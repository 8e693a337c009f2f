import TermLexer.Text.Basic

/-!
# Index by first code point

The places of a list of terms, sorted into buckets by the code point a term begins with. Within a
bucket the places ascend, so a walk along a bucket keeps the order of the list.
-/

namespace TermLexer.Term

/-- The places of the terms that begin with each code point. -/
abbrev Index := List (Char × List Nat)

namespace Index

/-- Puts a place in front of the bucket of a code point. -/
def add (c : Char) (place : Nat) : Index → Index
  | [] => [(c, [place])]
  | (key, places) :: rest =>
    if key = c then (key, place :: places) :: rest else (key, places) :: add c place rest

/-- The index of a list of terms whose first one stands at `place`. -/
def ofTermsAt (place : Nat) : List Text → Index
  | [] => []
  | [] :: terms => ofTermsAt (place + 1) terms
  | (c :: _) :: terms => add c place (ofTermsAt (place + 1) terms)

def ofTerms (terms : List Text) : Index := ofTermsAt 0 terms

/-- The places of the terms that begin with a code point. -/
def bucket (index : Index) (c : Char) : List Nat := (index.lookup c).getD []

@[simp] theorem bucket_nil (c : Char) : bucket [] c = [] := rfl

theorem bucket_cons (key : Char) (places : List Nat) (rest : Index) (c : Char) :
    bucket ((key, places) :: rest) c = if c = key then places else bucket rest c := by
  by_cases h : c = key
  · subst h
    simp [bucket]
  · simp [bucket, List.lookup_cons, beq_eq_false_iff_ne.2 h, h]

/-- Adding a place changes the bucket of its own code point only. -/
theorem bucket_add (index : Index) (c d : Char) (place : Nat) :
    bucket (add c place index) d =
      if d = c then place :: bucket index d else bucket index d := by
  induction index with
  | nil => simp [add, bucket_cons]
  | cons entry rest ih =>
    obtain ⟨key, places⟩ := entry
    by_cases hk : key = c
    · subst hk
      by_cases hd : d = key <;> simp [add, bucket_cons, hd]
    · by_cases hd : d = key
      · subst hd
        simp [add, hk, bucket_cons]
      · simp [add, hk, bucket_cons, hd, ih]

/-- The bucket of a code point lists the places of the terms that begin with it. -/
theorem bucket_ofTermsAt (first : Nat) (terms : List Text) (c : Char) :
    bucket (ofTermsAt first terms) c =
      ((terms.zipIdx first).filter fun entry => entry.1.head? == some c).map Prod.snd := by
  induction terms generalizing first with
  | nil => rfl
  | cons t ts ih =>
    rw [List.zipIdx_cons, List.filter_cons]
    cases t with
    | nil => exact ih (first + 1)
    | cons d ds =>
      rw [ofTermsAt, bucket_add, ih (first + 1)]
      by_cases h : c = d
      · subst h
        simp
      · simp [h, Ne.symm h]

theorem lt_length_of_mem_bucket {terms : List Text} {c : Char} {place : Nat}
    (h : place ∈ bucket (ofTerms terms) c) : place < terms.length := by
  rw [ofTerms, bucket_ofTermsAt] at h
  obtain ⟨⟨t, i⟩, hentry, rfl⟩ := List.mem_map.mp h
  have hplace := List.mem_zipIdx (List.mem_filter.mp hentry).1
  simpa using hplace.2.1

end Index

end TermLexer.Term
