import Mathlib.Data.List.MinMax
import TermLexer.Proofs.Term.Canonical
import TermLexer.Proofs.Term.Match

/-! # What a lookup finds

A set made from a list of texts is folded, sorted, freed of repeats and indexed, and a lookup walks
one bucket of the index. What it finds needs none of this to be said: of the folded texts that are
not empty, the longest one that the text begins with. There is at most one, for two terms of one
size that a text begins with are the same. -/

namespace TermLexer.TermSet

open TermLexer.Text

/-- Of the terms made from a list of texts, `w` is the longest that the text begins with. -/
structure LongestOf (texts : List Text) (s w : Text) : Prop where
  term : IsTermOf texts w
  front : w <+: s
  longest : ∀ t, IsTermOf texts t → t <+: s → t ≠ w → byteSize t < byteSize w

/-- The terms made from a list of texts that the text begins with, in no order and with repeats. -/
def fronts (texts : List Text) (s : Text) : List Text :=
  (texts.map fold).filter fun t => !t.isEmpty && t.isPrefixOf s

theorem mem_fronts {texts : List Text} {s t : Text} :
    t ∈ fronts texts s ↔ IsTermOf texts t ∧ t <+: s := by
  have hkept : (!t.isEmpty) = true ↔ t ≠ [] := by cases t <;> simp
  rw [fronts, List.mem_filter, List.mem_map, Bool.and_eq_true, hkept, List.isPrefixOf_iff_prefix,
    and_left_comm, IsTermOf, and_assoc]

theorem longestPrefix?_ofList_eq_some_iff {texts : List Text} {s w : Text} :
    (ofList texts).longestPrefix? s = some w ↔ LongestOf texts s w := by
  rw [longestPrefix?_eq_some_iff]
  constructor
  · rintro ⟨hmem, hfront, hmax⟩
    refine ⟨mem_arrange.mp hmem, hfront, ?_⟩
    intro t ht htfront hne
    have hle := hmax t (mem_arrange.mpr ht) htfront
    have hsize := mt (eq_of_prefix_of_byteSize htfront hfront) hne
    omega
  · intro h
    refine ⟨mem_arrange.mpr h.term, h.front, ?_⟩
    intro t ht htfront
    by_cases heq : t = w
    · rw [heq]
    · exact Nat.le_of_lt (h.longest t (mem_arrange.mp ht) htfront heq)

theorem longestPrefix?_ofList_eq_none_iff {texts : List Text} {s : Text} :
    (ofList texts).longestPrefix? s = none ↔ ¬∃ t, IsTermOf texts t ∧ t <+: s := by
  rw [longestPrefix?_eq_none_iff, not_exists]
  exact forall_congr' fun t => by rw [not_and, ← mem_arrange]; rfl

/-- Sorting, the index and the walk along it come to the same as trying all folded texts. -/
theorem longestPrefix?_ofList_eq_argmax (texts : List Text) (s : Text) :
    (ofList texts).longestPrefix? s = (fronts texts s).argmax byteSize := by
  cases hmax : (fronts texts s).argmax byteSize with
  | none =>
    have hnil := List.argmax_eq_none.mp hmax
    rw [longestPrefix?_ofList_eq_none_iff]
    rintro ⟨t, ht⟩
    have hmem := mem_fronts.mpr ht
    rw [hnil] at hmem
    cases hmem
  | some w =>
    obtain ⟨hterm, hfront⟩ := mem_fronts.mp (List.argmax_mem hmax)
    refine longestPrefix?_eq_some_iff.mpr ⟨mem_arrange.mpr hterm, hfront, ?_⟩
    intro t ht htfront
    exact List.le_of_mem_argmax (mem_fronts.mpr ⟨mem_arrange.mp ht, htfront⟩) hmax

/-- **A lookup finds the longest term that the text begins with**, and nothing exactly if there is
none. It is the first such term in match priority, and the longest of all folded texts that are
tried one by one. -/
theorem lookup_ofList (texts : List Text) (s : Text) :
    ∃ found, (ofList texts).lookup s = .ok found ∧ (ofList texts).longestPrefix? s = found ∧
      (∀ w, found = some w ↔ LongestOf texts s w) ∧
      (found = none ↔ ¬∃ t, IsTermOf texts t ∧ t <+: s) ∧
      found = (ofList texts).toList.find? (·.isPrefixOf s) ∧
      found = (fronts texts s).argmax byteSize :=
  ⟨_, lookup_eq _ s, rfl, fun _ => longestPrefix?_ofList_eq_some_iff,
    longestPrefix?_ofList_eq_none_iff, longestPrefix?_eq_find? _ s,
    longestPrefix?_ofList_eq_argmax texts s⟩

end TermLexer.TermSet
