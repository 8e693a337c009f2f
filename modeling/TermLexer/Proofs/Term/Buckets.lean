import Mathlib.Data.List.Nodup
import TermLexer.Proofs.Term.Match

/-! # The index of a term set

The index of a list of terms sorts their places by the code point that a term begins with. Adding a
place makes or extends one bucket and leaves the others alone, so no code point comes to two buckets
and no bucket is empty. What is in a bucket is known from its lookup: the places of the terms that
begin with its code point, in ascending order. In a term set no term is empty and the terms come in
match priority, so every place is in one bucket, and a walk along a bucket meets its terms in match
priority. -/

namespace TermLexer.Term.Index

open TermLexer.Text

/-! ## Buckets of an index -/

/-- No code point has two buckets, and no bucket is empty. -/
structure WellFormed (index : Index) : Prop where
  keys_nodup : (index.map Prod.fst).Nodup
  nonempty : ∀ entry ∈ index, entry.2 ≠ []

theorem mem_keys_add {c d : Char} {place : Nat} {index : Index} :
    d ∈ (add c place index).map Prod.fst ↔ d = c ∨ d ∈ index.map Prod.fst := by
  induction index with
  | nil => simp [add]
  | cons entry rest ih =>
    obtain ⟨key, places⟩ := entry
    rw [add]
    split
    · rename_i hkey
      simp [hkey]
    · rw [List.map_cons, List.mem_cons, ih, List.map_cons, List.mem_cons, or_left_comm]

theorem WellFormed.add {index : Index} (h : WellFormed index) (c : Char) (place : Nat) :
    WellFormed (add c place index) := by
  induction index with
  | nil => exact ⟨List.pairwise_singleton _ c, by simp [Index.add]⟩
  | cons entry rest ih =>
    obtain ⟨key, places⟩ := entry
    obtain ⟨hkey, hkeys⟩ := List.nodup_cons.mp h.keys_nodup
    obtain ⟨hplaces, hrest⟩ := List.forall_mem_cons.mp h.nonempty
    rw [Index.add]
    split
    · exact ⟨h.keys_nodup, List.forall_mem_cons.mpr ⟨List.cons_ne_nil _ _, hrest⟩⟩
    · rename_i hne
      have htail := ih ⟨hkeys, hrest⟩
      refine ⟨List.nodup_cons.mpr ⟨?_, htail.keys_nodup⟩,
        List.forall_mem_cons.mpr ⟨hplaces, htail.nonempty⟩⟩
      rw [mem_keys_add]
      exact not_or.mpr ⟨hne, hkey⟩

theorem wellFormed_ofTermsAt (first : Nat) (terms : List Text) :
    WellFormed (ofTermsAt first terms) := by
  fun_induction ofTermsAt first terms with
  | case1 => exact ⟨List.nodup_nil, nofun⟩
  | case2 _ _ ih => exact ih
  | case3 first c _ _ ih => exact ih.add c first

/-- The buckets are what lookups give, apart from the code points that have none. -/
theorem WellFormed.mem_iff {index : Index} (h : WellFormed index) {c : Char} {places : List Nat} :
    (c, places) ∈ index ↔ index.bucket c = places ∧ places ≠ [] := by
  induction index with
  | nil => simp [eq_comm]
  | cons entry rest ih =>
    obtain ⟨key, others⟩ := entry
    obtain ⟨hkey, hkeys⟩ := List.nodup_cons.mp h.keys_nodup
    obtain ⟨hplaces, hrest⟩ := List.forall_mem_cons.mp h.nonempty
    rw [bucket_cons, List.mem_cons, Prod.mk.injEq]
    by_cases hc : c = key
    · subst hc
      have hno : (c, places) ∉ rest := fun hmem => hkey (List.mem_map.mpr ⟨_, hmem, rfl⟩)
      rw [if_pos rfl, or_iff_left hno]
      constructor
      · rintro ⟨_, rfl⟩
        exact ⟨rfl, hplaces⟩
      · rintro ⟨rfl, _⟩
        exact ⟨rfl, rfl⟩
    · rw [if_neg hc, or_iff_right fun heq => hc heq.1, ih ⟨hkeys, hrest⟩]

/-! ## Places in a bucket -/

theorem mem_bucket_ofTerms {terms : List Text} {c : Char} {place : Nat} :
    place ∈ (ofTerms terms).bucket c ↔ ∃ t, terms[place]? = some t ∧ t.head? = some c := by
  rw [ofTerms, bucket_ofTermsAt, List.mem_map]
  constructor
  · rintro ⟨⟨t, i⟩, hentry, rfl⟩
    obtain ⟨hmem, hhead⟩ := List.mem_filter.mp hentry
    exact ⟨t, List.mem_zipIdx_iff_getElem?.mp hmem, beq_iff_eq.mp hhead⟩
  · rintro ⟨t, hplace, hhead⟩
    exact ⟨(t, place), List.mem_filter.mpr
      ⟨List.mem_zipIdx_iff_getElem?.mpr hplace, beq_iff_eq.mpr hhead⟩, rfl⟩

theorem pairwise_bucket_ofTerms (terms : List Text) (c : Char) :
    ((ofTerms terms).bucket c).Pairwise (· < ·) := by
  have hplaces : (terms.zipIdx.map Prod.snd).Pairwise (· < ·) := by
    rw [List.zipIdx_map_snd]
    exact List.pairwise_lt_range'
  rw [ofTerms, bucket_ofTermsAt]
  exact hplaces.sublist (List.filter_sublist.map Prod.snd)

/-- With one more term behind the others its place is put behind the others in its bucket. -/
theorem bucket_ofTerms_concat (terms : List Text) (t : Text) (c : Char) :
    (ofTerms (terms ++ [t])).bucket c =
      (ofTerms terms).bucket c ++ if t.head? = some c then [terms.length] else [] := by
  rw [ofTerms, bucket_ofTermsAt, ofTerms, bucket_ofTermsAt, List.zipIdx_append, List.filter_append,
    List.map_append]
  congr 1
  by_cases h : t.head? = some c <;> simp [h]

/-! ## Places in the index of a list of terms -/

/-- An index that sorts the places of terms in match priority by what the terms begin with. -/
structure Sorts (terms : List Text) (index : Index) : Prop where
  /-- Each place is once in one bucket, that of the code point its term begins with. -/
  once : ∀ place t, terms[place]? = some t → ∃ c places, t.head? = some c ∧ (c, places) ∈ index ∧
    places.count place = 1 ∧ ∀ entry ∈ index, place ∈ entry.2 → entry = (c, places)
  keys_nodup : (index.map Prod.fst).Nodup
  inside : ∀ entry ∈ index, ∀ place ∈ entry.2, place < terms.length
  nonempty : ∀ entry ∈ index, entry.2 ≠ []
  ascending : ∀ entry ∈ index, entry.2.Pairwise (· < ·)
  /-- A walk along a bucket meets every term before those of lower priority. -/
  decreasing : ∀ entry ∈ index, entry.2.Pairwise fun i j =>
    ∃ a b, terms[i]? = some a ∧ terms[j]? = some b ∧ priority a b = .lt
  /-- A lookup finds the buckets, and nothing for any other code point. -/
  found : ∀ c places, (c, places) ∈ index ↔ index.bucket c = places ∧ places ≠ []

section

variable {terms : List Text}

theorem mem_ofTerms_iff {c : Char} {places : List Nat} : (c, places) ∈ ofTerms terms ↔
    (ofTerms terms).bucket c = places ∧ places ≠ [] :=
  (wellFormed_ofTermsAt 0 terms).mem_iff

theorem bucket_of_mem {entry : Char × List Nat} (h : entry ∈ ofTerms terms) :
    (ofTerms terms).bucket entry.1 = entry.2 :=
  (mem_ofTerms_iff.mp h).1

/-- A place is in no bucket but that of the code point its term begins with. -/
theorem eq_bucket_of_mem {c : Char} {cs : Text} {place : Nat} {entry : Char × List Nat}
    (ht : terms[place]? = some (c :: cs)) (hentry : entry ∈ ofTerms terms)
    (hplace : place ∈ entry.2) : entry = (c, (ofTerms terms).bucket c) := by
  rw [← bucket_of_mem hentry] at hplace
  obtain ⟨u, hu, hhead⟩ := mem_bucket_ofTerms.mp hplace
  obtain rfl := Option.some.inj (ht.symm.trans hu)
  obtain hkey : c = entry.1 := Option.some.inj hhead
  rw [hkey, bucket_of_mem hentry]

theorem exists_bucket (hnil : [] ∉ terms) {place : Nat} {t : Text} (ht : terms[place]? = some t) :
    ∃ c places, t.head? = some c ∧ (c, places) ∈ ofTerms terms ∧ places.count place = 1 ∧
      ∀ entry ∈ ofTerms terms, place ∈ entry.2 → entry = (c, places) := by
  cases t with
  | nil => exact absurd (List.mem_of_getElem? ht) hnil
  | cons c cs =>
    have hmem : place ∈ (ofTerms terms).bucket c := mem_bucket_ofTerms.mpr ⟨_, ht, rfl⟩
    have hcount := List.count_eq_one_of_mem (pairwise_bucket_ofTerms terms c).nodup hmem
    have hbucket := mem_ofTerms_iff.mpr ⟨rfl, List.ne_nil_of_mem hmem⟩
    exact ⟨c, _, rfl, hbucket, hcount, fun _ => eq_bucket_of_mem ht⟩

theorem sorts_ofTerms (hnil : [] ∉ terms) (hordered : terms.Pairwise (priority · · = .lt)) :
    Sorts terms (ofTerms terms) := by
  have hwell := wellFormed_ofTermsAt 0 terms
  have hascending : ∀ entry ∈ ofTerms terms, entry.2.Pairwise (· < ·) := by
    intro entry hentry
    rw [← bucket_of_mem hentry]
    exact pairwise_bucket_ofTerms terms entry.1
  have hinside : ∀ entry ∈ ofTerms terms, ∀ place ∈ entry.2, place < terms.length := by
    intro entry hentry place hplace
    rw [← bucket_of_mem hentry] at hplace
    exact lt_length_of_mem_bucket hplace
  refine ⟨fun _ _ => exists_bucket hnil, hwell.keys_nodup, hinside, hwell.nonempty, hascending, ?_,
    fun _ _ => hwell.mem_iff⟩
  intro entry hentry
  refine (hascending entry hentry).imp_of_mem fun {i j} hi hj hlt => ?_
  have hbefore := List.pairwise_iff_getElem.mp hordered i j (hinside entry hentry i hi)
    (hinside entry hentry j hj) hlt
  exact ⟨_, _, List.getElem?_eq_getElem _, List.getElem?_eq_getElem _, hbefore⟩

end

end TermLexer.Term.Index

namespace TermLexer.TermSet

open TermLexer.Text TermLexer.Term

/-- The terms at the front of a set are in match priority too, and none of them is empty. -/
theorem sorts_take (set : TermSet) (n : Nat) :
    Index.Sorts (set.toList.take n) (Index.ofTerms (set.toList.take n)) := by
  have hfront := List.take_sublist n set.toList
  exact Index.sorts_ofTerms (mt hfront.mem set.nil_notMem) (set.ordered.sublist hfront)

theorem sorts_index (set : TermSet) : Index.Sorts set.toList set.index := by
  have h := sorts_take set set.toList.length
  rw [List.take_length] at h
  rwa [set.indexed]

theorem bucket_take_succ (terms : List Text) (n : Nat) (c : Char) :
    (Index.ofTerms (terms.take (n + 1))).bucket c = (Index.ofTerms (terms.take n)).bucket c ++
      if terms[n]?.bind List.head? = some c then [n] else [] := by
  rw [List.take_add_one]
  cases hn : terms[n]? with
  | none => simp
  | some t =>
    have hlt : n < terms.length := (List.getElem?_eq_some_iff.mp hn).1
    rw [Option.toList_some, Index.bucket_ofTerms_concat, List.length_take_of_le (Nat.le_of_lt hlt),
      Option.bind_some]

/-- **The index of a term set sorts the places of its terms by the code point they begin with**: each
place is in one bucket, in ascending order and hence in match priority. So it is for the terms at the
front of the set, and with each further term one place is put behind one bucket. -/
theorem index_ofList (texts : List Text) :
    Index.Sorts (ofList texts).toList (ofList texts).index ∧
      (∀ n, Index.Sorts ((ofList texts).toList.take n)
        (Index.ofTerms ((ofList texts).toList.take n))) ∧
      ∀ n c, (Index.ofTerms ((ofList texts).toList.take (n + 1))).bucket c =
        (Index.ofTerms ((ofList texts).toList.take n)).bucket c ++
          if (ofList texts).toList[n]?.bind List.head? = some c then [n] else [] :=
  ⟨sorts_index _, sorts_take _, bucket_take_succ _⟩

end TermLexer.TermSet
