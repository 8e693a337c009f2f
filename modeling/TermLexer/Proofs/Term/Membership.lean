import TermLexer.Proofs.Term.Canonical
import TermLexer.Proofs.Term.Match

/-! # Membership

Membership walks the ordered list of terms and stops where the term would have stood. The walk may
stop early because the terms come in match priority: behind a term that the text comes before there
are only such terms. Any other search that goes by the same comparison gives the same answer, as long
as it reports equal elements only and misses none in a sorted list. Halving the list is such a
search, and the terms of a set are sorted for it, whatever text is looked for. -/

namespace TermLexer.TermSet

open TermLexer.Text TermLexer.Term

/-! ## Searches by a comparison -/

/-- Elements that compare as less come first, then equal ones, then greater ones. -/
def Partitioned (code : Text → Ordering) (terms : List Text) : Prop :=
  terms.Pairwise fun a b => (code b = .lt → code a = .lt) ∧ (code a = .gt → code b = .gt)

/-- What is asked of a search by a comparison in a sorted list, whichever way it takes: an equal
element is found if there is one, and nothing else. -/
structure FindsEqual (find : (Text → Ordering) → List Text → Option Nat) : Prop where
  sound : ∀ {code terms place}, Partitioned code terms → find code terms = some place →
    ∃ t, terms[place]? = some t ∧ code t = .eq
  complete : ∀ {code terms t}, Partitioned code terms → t ∈ terms → code t = .eq →
    (find code terms).isSome

/-- Looks at the middle of the `size` places from `low` on, and goes on in the half where an equal
element has to stand. -/
def bisectFrom (code : Text → Ordering) (terms : List Text) (low size : Nat) : Option Nat :=
  if size = 0 then none
  else
    match terms[low + size / 2]?.map code with
    | some .lt => bisectFrom code terms (low + size / 2 + 1) (size - size / 2 - 1)
    | some .eq => some (low + size / 2)
    | some .gt => bisectFrom code terms low (size / 2)
    | none => none
termination_by size

def bisect (code : Text → Ordering) (terms : List Text) : Option Nat :=
  bisectFrom code terms 0 terms.length

theorem bisectFrom_sound {code : Text → Ordering} {terms : List Text} {low size place : Nat}
    (h : bisectFrom code terms low size = some place) :
    ∃ t, terms[place]? = some t ∧ code t = .eq := by
  fun_induction bisectFrom code terms low size with
  | case1 | case5 => cases h
  | case2 low size hsize hcode ih | case4 low size hsize hcode ih => exact ih h
  | case3 low size hsize hcode =>
    obtain rfl := Option.some.inj h
    exact Option.map_eq_some_iff.mp hcode

/-- An equal element stands behind every lesser and before every greater one. -/
theorem Partitioned.place_lt {code : Text → Ordering} {terms : List Text} {i j : Nat} {a b : Text}
    (h : Partitioned code terms) (ha : terms[i]? = some a) (hb : terms[j]? = some b)
    (heq : code b = .eq) : (code a = .lt → i < j) ∧ (code a = .gt → j < i) := by
  obtain ⟨hi, rfl⟩ := List.getElem?_eq_some_iff.mp ha
  obtain ⟨hj, rfl⟩ := List.getElem?_eq_some_iff.mp hb
  have hpair := List.pairwise_iff_getElem.mp h
  rcases Nat.lt_trichotomy i j with hij | rfl | hji
  · refine ⟨fun _ => hij, fun hgreater => ?_⟩
    rw [(hpair i j hi hj hij).2 hgreater] at heq
    cases heq
  · rw [heq]
    exact ⟨nofun, nofun⟩
  · refine ⟨fun hless => ?_, fun _ => hji⟩
    rw [(hpair j i hj hi hji).1 hless] at heq
    cases heq

theorem bisectFrom_complete {code : Text → Ordering} {terms : List Text} {low size place : Nat}
    {t : Text} (hsorted : Partitioned code terms) (ht : terms[place]? = some t)
    (heq : code t = .eq) (hlow : low ≤ place) (hhigh : place < low + size)
    (hsize : low + size ≤ terms.length) : (bisectFrom code terms low size).isSome := by
  fun_induction bisectFrom code terms low size with
  | case1 => omega
  | case2 low size _ hcode ih =>
    obtain ⟨middle, hmiddle, hless⟩ := Option.map_eq_some_iff.mp hcode
    have hbehind := (hsorted.place_lt hmiddle ht heq).1 hless
    exact ih (by omega) (by omega) (by omega)
  | case3 => rfl
  | case4 low size _ hcode ih =>
    obtain ⟨middle, hmiddle, hgreater⟩ := Option.map_eq_some_iff.mp hcode
    have hbefore := (hsorted.place_lt hmiddle ht heq).2 hgreater
    exact ih hlow hbefore (by omega)
  | case5 low size _ hcode =>
    have hbeyond := List.getElem?_eq_none_iff.mp (Option.map_eq_none_iff.mp hcode)
    omega

theorem findsEqual_bisect : FindsEqual bisect where
  sound := fun _ => bisectFrom_sound
  complete := by
    intro code terms t hsorted hmem heq
    obtain ⟨place, ht⟩ := List.getElem?_of_mem hmem
    have hplace : place < terms.length := (List.getElem?_eq_some_iff.mp ht).1
    exact bisectFrom_complete hsorted ht heq (by omega) (by omega) (by omega)

/-! ## Searches for a term -/

/-- Terms in match priority are sorted for a search that compares them with a text. -/
theorem partitioned_priority (set : TermSet) (w : Text) :
    Partitioned (priority · w) set.terms := by
  refine set.ordered.imp fun {a b} hab => ⟨Std.TransCmp.lt_trans hab, fun hgreater => ?_⟩
  have hwa := Std.OrientedCmp.gt_iff_lt.mp hgreater
  exact Std.OrientedCmp.gt_iff_lt.mpr (Std.TransCmp.lt_trans hwa hab)

theorem search_eq_true_iff {w : Text} {terms : List Text}
    (h : terms.Pairwise (priority · · = .lt)) : search w terms = true ↔ w ∈ terms := by
  induction terms with
  | nil => simp [search]
  | cons other rest ih =>
    obtain ⟨hother, hrest⟩ := List.pairwise_cons.mp h
    unfold search
    split
    · rename_i hless
      -- the text comes before this term, hence before all that follow
      have hnone : w ∉ other :: rest := by
        intro hmem
        rcases List.mem_cons.mp hmem with rfl | hmem
        · rw [priority_self] at hless
          cases hless
        · exact Std.OrientedCmp.not_lt_of_lt hless (hother w hmem)
      simp [hnone]
    · rename_i heq
      obtain rfl := Std.LawfulEqCmp.eq_of_compare heq
      simp
    · rename_i hgreater
      have hne : w ≠ other := by
        rintro rfl
        rw [priority_self] at hgreater
        cases hgreater
      rw [ih hrest, List.mem_cons, or_iff_right hne]

theorem contains_iff_mem {set : TermSet} {s : Text} :
    set.contains s = true ↔ fold s ∈ set.toList := search_eq_true_iff set.ordered

/-- Whichever search is used, what it finds is the folded text. -/
theorem FindsEqual.isSome_eq_contains {find : (Text → Ordering) → List Text → Option Nat}
    (h : FindsEqual find) (set : TermSet) (s : Text) :
    (find (priority · (fold s)) set.toList).isSome = set.contains s := by
  refine Bool.eq_iff_iff.mpr (Iff.trans ⟨fun hfound => ?_, fun hmem => ?_⟩ contains_iff_mem.symm)
  · obtain ⟨place, hplace⟩ := Option.isSome_iff_exists.mp hfound
    obtain ⟨t, ht, heq⟩ := h.sound (set.partitioned_priority (fold s)) hplace
    rw [← Std.LawfulEqCmp.eq_of_compare heq]
    exact List.mem_of_getElem? ht
  · exact h.complete (set.partitioned_priority (fold s)) hmem (priority_self (fold s))

/-- The longest term that a term begins with is the term itself. -/
theorem longestPrefix?_self_iff {set : TermSet} {w : Text} :
    set.longestPrefix? w = some w ↔ w ∈ set.toList := by
  rw [longestPrefix?_eq_some_iff]
  refine ⟨And.left, fun hmem => ⟨hmem, List.prefix_refl w, ?_⟩⟩
  rintro t - ⟨after, rfl⟩
  rw [byteSize_append]
  exact Nat.le_add_right _ _

/-- **A text is in a term set exactly if its folded form is one of the terms**: the folded form of a
text that the set was made from, and not empty. The list of terms has it, it is the longest term that
it begins with itself, and any search by match priority finds it. -/
theorem contains_ofList (texts : List Text) (s : Text) :
    ((ofList texts).contains s = true ↔ fold s ≠ [] ∧ ∃ t ∈ texts, fold t = fold s) ∧
      ((ofList texts).contains s = true ↔ fold s ∈ (ofList texts).toList) ∧
      ((ofList texts).contains s = true ↔
        (ofList texts).lookup (fold s) = .ok (some (fold s))) ∧
      ∀ find, FindsEqual find →
        (find (priority · (fold s)) (ofList texts).toList).isSome = (ofList texts).contains s := by
  have hlookup : (ofList texts).lookup (fold s) = .ok (some (fold s)) ↔
      fold s ∈ (ofList texts).toList := by
    rw [lookup_eq, Except.ok.injEq, longestPrefix?_self_iff]
  exact ⟨contains_iff_mem.trans mem_arrange, contains_iff_mem, contains_iff_mem.trans hlookup.symm,
    fun _ hfind => hfind.isSome_eq_contains _ s⟩

/-- The theorem with halving as the search, at terms of two sizes of which one is there twice: a text
in capitals that is a term, and one that only begins with a term. -/
theorem contains_ofList_halved :
    FindsEqual bisect ∧
      (bisect (priority · (fold ['Σ', '#'])) (ofList [['c'], ['σ', '#'], ['C']]).toList).isSome =
        (ofList [['c'], ['σ', '#'], ['C']]).contains ['Σ', '#'] ∧
      (ofList [['c'], ['σ', '#'], ['C']]).contains ['Σ', '#'] = true ∧
      (bisect (priority · (fold ['C', 'σ'])) (ofList [['c'], ['σ', '#'], ['C']]).toList).isSome =
        (ofList [['c'], ['σ', '#'], ['C']]).contains ['C', 'σ'] ∧
      (ofList [['c'], ['σ', '#'], ['C']]).contains ['C', 'σ'] = false := by
  refine ⟨findsEqual_bisect, ?_, by decide +kernel, ?_, by decide +kernel⟩
  · exact (contains_ofList [['c'], ['σ', '#'], ['C']] ['Σ', '#']).2.2.2 bisect findsEqual_bisect
  · exact (contains_ofList [['c'], ['σ', '#'], ['C']] ['C', 'σ']).2.2.2 bisect findsEqual_bisect

end TermLexer.TermSet
