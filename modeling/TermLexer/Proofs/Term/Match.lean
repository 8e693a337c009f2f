import Mathlib.Data.List.Basic
import Mathlib.Data.List.Find
import TermLexer.Lexer.Basic

/-! # The longest term

A lookup walks one bucket of the index. The bucket leaves out only terms that begin with another
code point, and the places in it are places of the list, so the walk finds the first term of the
whole list that the text begins with. The list is ordered by size, hence that term is the longest. -/

namespace TermLexer

open TermLexer.Text TermLexer.Term

/-! ## The index -/

/-- Read along the list, a bucket gives the terms that begin with its code point, in their order. -/
theorem filterMap_bucket (terms : List Text) (c : Char) :
    ((Index.ofTerms terms).bucket c).filterMap (terms[·]?) =
      terms.filter (·.head? == some c) := by
  have hread : ∀ entry ∈ terms.zipIdx.filter (fun entry => entry.1.head? == some c),
      terms[entry.2]? = some entry.1 := by
    intro entry hentry
    exact List.mem_zipIdx_iff_getElem?.mp (List.mem_filter.mp hentry).1
  have hmap := List.filterMap_eq_map_iff_forall_eq_some.mpr hread
  have hfilter := List.filter_map (f := Prod.fst) (p := fun t : Text => t.head? == some c)
    (l := terms.zipIdx)
  rw [List.zipIdx_map_fst] at hfilter
  rw [Index.ofTerms, Index.bucket_ofTermsAt, List.filterMap_map]
  exact hmap.trans hfilter.symm

namespace TermSet

theorem place_lt_length {set : TermSet} {c : Char} {place : Nat}
    (h : place ∈ set.index.bucket c) : place < set.terms.length := by
  rw [set.indexed] at h
  exact Index.lt_length_of_mem_bucket h

theorem candidates_eq (set : TermSet) (c : Char) :
    set.candidates c = set.terms.filter (·.head? == some c) := by
  rw [candidates, set.indexed]
  exact filterMap_bucket set.terms c

theorem ne_nil_of_mem {set : TermSet} {t : Text} (h : t ∈ set.terms) : t ≠ [] := by
  intro hnil
  exact set.nil_notMem (hnil ▸ h)

/-! ## Lookup -/

theorem firstMatch_eq {terms : List Text} (text : Text) {places : List Nat}
    (h : ∀ place ∈ places, place < terms.length) :
    firstMatch terms text places =
      .ok ((places.filterMap (terms[·]?)).find? (·.isPrefixOf text)) := by
  induction places with
  | nil => rfl
  | cons place places ih =>
    obtain ⟨t, ht⟩ : ∃ t, terms[place]? = some t :=
      ⟨_, List.getElem?_eq_getElem (h place List.mem_cons_self)⟩
    have htail := ih fun p hp => h p (List.mem_cons_of_mem _ hp)
    have hstep : firstMatch terms text (place :: places) =
        if t.isPrefixOf text then .ok (some t) else firstMatch terms text places := by
      rw [firstMatch, ht]
      rfl
    rw [hstep, htail, List.filterMap_cons_some ht, List.find?_cons]
    cases t.isPrefixOf text <;> rfl

/-- No lookup reads a place outside the list. -/
theorem lookup_eq (set : TermSet) (text : Text) :
    set.lookup text = .ok (set.longestPrefix? text) := by
  cases text with
  | nil => rfl
  | cons c cs => exact firstMatch_eq (c :: cs) fun _ => place_lt_length

theorem longestPrefix?_eq_find? (set : TermSet) (text : Text) :
    set.longestPrefix? text = set.terms.find? (·.isPrefixOf text) := by
  cases text with
  | nil =>
    symm
    rw [longestPrefix?, List.find?_eq_none]
    intro t ht hprefix
    exact ne_nil_of_mem ht (List.prefix_nil.mp (List.isPrefixOf_iff_prefix.mp hprefix))
  | cons c cs =>
    rw [longestPrefix?, candidates_eq, List.find?_filter]
    apply List.find?_congr
    intro t ht
    apply Bool.eq_iff_iff.mpr
    simp only [decide_eq_true_eq, beq_iff_eq, List.isPrefixOf_iff_prefix]
    refine ⟨And.right, fun hprefix => ⟨?_, hprefix⟩⟩
    -- a term is not empty, so it begins with `c` if the text begins with it
    cases t with
    | nil => exact absurd ht set.nil_notMem
    | cons d ds => rw [(List.cons_prefix_cons.mp hprefix).1, List.head?_cons]

theorem longestPrefix?_eq_none_iff {set : TermSet} {text : Text} :
    set.longestPrefix? text = none ↔ ∀ t ∈ set.terms, ¬t <+: text := by
  rw [longestPrefix?_eq_find?, List.find?_eq_none]
  simp only [List.isPrefixOf_iff_prefix]

/-- The first term that the text begins with is the longest, for the terms after it are no longer. -/
theorem byteSize_le_of_longestPrefix? {set : TermSet} {text w : Text}
    (h : set.longestPrefix? text = some w) :
    w ∈ set.terms ∧ ∀ t ∈ set.terms, t <+: text → byteSize t ≤ byteSize w := by
  rw [longestPrefix?_eq_find?, List.find?_eq_some_iff_append] at h
  obtain ⟨_, before, after, hterms, hbefore⟩ := h
  have hordered := set.ordered
  rw [hterms] at hordered
  have hafter := (List.pairwise_cons.mp (List.pairwise_append.mp hordered).2.1).1
  rw [hterms]
  refine ⟨by simp, ?_⟩
  intro t ht hprefix
  rcases List.mem_append.mp ht with ht | ht
  · have hno := hbefore t ht
    rw [List.isPrefixOf_iff_prefix.mpr hprefix] at hno
    cases hno
  · rcases List.mem_cons.mp ht with rfl | ht
    · exact Nat.le_refl _
    · exact byteSize_le_of_priority_lt (hafter t ht)

theorem longestPrefix?_eq_some_iff {set : TermSet} {text w : Text} :
    set.longestPrefix? text = some w ↔
      w ∈ set.terms ∧ w <+: text ∧ ∀ t ∈ set.terms, t <+: text → byteSize t ≤ byteSize w := by
  constructor
  · intro h
    obtain ⟨hmem, hlongest⟩ := byteSize_le_of_longestPrefix? h
    exact ⟨hmem, isPrefix_of_longestPrefix? h, hlongest⟩
  · rintro ⟨hmem, hprefix, hlongest⟩
    cases h : set.longestPrefix? text with
    | none => exact absurd hprefix (longestPrefix?_eq_none_iff.mp h w hmem)
    | some v =>
      have hv := isPrefix_of_longestPrefix? h
      obtain ⟨hvmem, hvlongest⟩ := byteSize_le_of_longestPrefix? h
      have hsize := Nat.le_antisymm (hlongest v hvmem hv) (hvlongest w hmem hprefix)
      rw [eq_of_prefix_of_byteSize hv hprefix hsize]

end TermSet

/-! ## Lookup in a set that may be missing -/

/-- The terms of a set. Without a set there are none. -/
def keptTerms (terms : Option TermSet) : List Text := terms.elim [] TermSet.toList

theorem Lexer.lookupTerm_eq (terms : Option TermSet) (text : Text) :
    lookupTerm terms text = .ok (matchTerm terms text) := by
  cases terms with
  | none => rfl
  | some set => exact set.lookup_eq text

theorem ne_nil_of_mem_keptTerms {terms : Option TermSet} {t : Text} (h : t ∈ keptTerms terms) :
    t ≠ [] := by
  cases terms with
  | none => cases h
  | some set => exact TermSet.ne_nil_of_mem h

theorem matchTerm_eq_none_iff {terms : Option TermSet} {text : Text} :
    matchTerm terms text = none ↔ ∀ t ∈ keptTerms terms, ¬t <+: text := by
  cases terms with
  | none => simp [matchTerm, keptTerms]
  | some set => exact TermSet.longestPrefix?_eq_none_iff

theorem matchTerm_eq_some_iff {terms : Option TermSet} {text w : Text} :
    matchTerm terms text = some w ↔
      w ∈ keptTerms terms ∧ w <+: text ∧
        ∀ t ∈ keptTerms terms, t <+: text → byteSize t ≤ byteSize w := by
  cases terms with
  | none => simp [matchTerm, keptTerms]
  | some set => exact TermSet.longestPrefix?_eq_some_iff

end TermLexer
