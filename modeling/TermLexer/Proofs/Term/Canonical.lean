import Mathlib.Data.List.Destutter
import TermLexer.Proofs.Lexer.Pull
import TermLexer.Proofs.Term.Order
import TermLexer.Proofs.Text.Fold
import TermLexer.Term.Value

/-! # Canonical term sets

A term set is determined by which terms are in it: the terms stand in the one order there is, and
the index is made from them. What a list is made into therefore depends on the folded forms of its
texts only, not on their order, how often they come, or how they were written. A folded text is its
own folded form, so the terms of a set are made into that set again. -/

namespace TermLexer.TermSet

open TermLexer.Text TermLexer.Term

/-! ## Members of an ordered list of terms -/

theorem mem_insert {term t : Text} {terms : List Text} :
    t ∈ insert term terms ↔ t = term ∨ t ∈ terms := by
  refine ⟨eq_or_mem_of_mem_insert, ?_⟩
  induction terms with
  | nil => simp [insert]
  | cons other rest ih =>
    unfold insert
    split
    · exact List.mem_cons.mpr
    · rename_i heq
      obtain rfl := Std.LawfulEqCmp.eq_of_compare heq
      simp
    · intro h
      rw [List.mem_cons, or_left_comm] at h
      exact List.mem_cons.mpr (h.imp_right ih)

theorem mem_foldr_insert {t : Text} {terms : List Text} :
    t ∈ terms.foldr insert [] ↔ t ∈ terms := by
  induction terms with
  | nil => rfl
  | cons u us ih => rw [List.foldr_cons, mem_insert, ih, List.mem_cons]

/-- A term that the set made from a list of texts holds: the folded form of one of them, unless it
is empty. -/
def IsTermOf (texts : List Text) (t : Text) : Prop := t ≠ [] ∧ ∃ s ∈ texts, fold s = t

theorem mem_arrange {t : Text} {texts : List Text} : t ∈ arrange texts ↔ IsTermOf texts t := by
  rw [arrange, mem_foldr_insert, List.mem_filter, List.mem_map, and_comm]
  simp [IsTermOf]

/-! ## Sorted terms without repeats -/

theorem mem_destutter_ne {t : Text} {terms : List Text} :
    t ∈ terms.destutter (· ≠ ·) ↔ t ∈ terms := by
  refine ⟨(List.destutter_sublist _ _).mem, ?_⟩
  cases terms with
  | nil => exact id
  | cons u us =>
    rw [List.destutter_cons']
    induction us generalizing u with
    | nil => exact id
    | cons v vs ih =>
      intro h
      by_cases huv : u = v
      · subst huv
        rw [List.destutter'_cons_neg _ (not_not_intro rfl)]
        refine ih u ?_
        rcases List.mem_cons.mp h with rfl | h
        · exact List.mem_cons_self
        · exact h
      · rw [List.destutter'_cons_pos _ huv, List.mem_cons]
        exact (List.mem_cons.mp h).imp_right (ih v)

/-- In a sorted list equal terms stand side by side, so no repeat is left over. -/
theorem pairwise_destutter {terms : List Text}
    (h : terms.Pairwise fun a b => (priority a b).isLE = true) :
    (terms.destutter (· ≠ ·)).Pairwise (priority · · = .lt) := by
  have hne := List.isChain_iff_getElem.mp (List.isChain_destutter (· ≠ ·) terms)
  have hle := List.isChain_iff_getElem.mp (h.sublist (List.destutter_sublist (· ≠ ·) terms)).isChain
  have htrans : IsTrans Text (priority · · = .lt) := ⟨fun _ _ _ => Std.TransCmp.lt_trans⟩
  refine List.isChain_iff_pairwise.mp (List.isChain_iff_getElem.mpr fun i hi => ?_)
  rcases Ordering.isLE_iff_eq_lt_or_eq_eq.mp (hle i hi) with hlt | heq
  · exact hlt
  · exact absurd (Std.LawfulEqCmp.eq_of_compare heq) (hne i hi)

/-- Inserting the terms one by one is sorting them, in whatever way, and taking out every term that
repeats the one before it. -/
theorem destutter_eq_arrange {texts sorted : List Text}
    (hperm : sorted.Perm ((texts.map fold).filter (!·.isEmpty)))
    (h : sorted.Pairwise fun a b => (priority a b).isLE = true) :
    sorted.destutter (· ≠ ·) = arrange texts := by
  refine (pairwise_destutter h).eq_of_mem_iff (pairwise_arrange texts) fun t => ?_
  rw [mem_destutter_ne, hperm.mem_iff, arrange, mem_foldr_insert]

theorem destutter_mergeSort_eq_arrange (texts : List Text) :
    (((texts.map fold).filter (!·.isEmpty)).mergeSort fun a b => (priority a b).isLE).destutter
      (· ≠ ·) = arrange texts := by
  refine destutter_eq_arrange (List.mergeSort_perm _ _) (List.pairwise_mergeSort ?_ ?_ _)
  · exact fun _ _ _ => Std.TransCmp.isLE_trans
  · intro a b
    cases h : priority a b with
    | lt | eq => rfl
    | gt => rw [Std.OrientedCmp.gt_iff_lt.mp h]; rfl

/-! ## Sets with the same terms -/

/-- The index adds nothing to the terms. -/
theorem eq_of_terms_eq {a b : TermSet} (h : a.terms = b.terms) : a = b := by
  have hindex : a.index = b.index := by rw [a.indexed, b.indexed, h]
  cases a
  cases b
  cases h
  cases hindex
  rfl

theorem eq_of_mem_iff {a b : TermSet} (h : ∀ t, t ∈ a.terms ↔ t ∈ b.terms) : a = b :=
  eq_of_terms_eq (a.ordered.eq_of_mem_iff b.ordered h)

/-- Comparing the terms decides whether two sets are the same. -/
instance : LawfulBEq TermSet where
  rfl := fun {a} => beq_self_eq_true a.terms
  eq_of_beq := fun {a b} h => eq_of_terms_eq (eq_of_beq (a := a.terms) (b := b.terms) h)

theorem ofList_eq_ofList_iff {xs ys : List Text} :
    ofList xs = ofList ys ↔ ∀ t, IsTermOf xs t ↔ IsTermOf ys t := by
  constructor
  · intro h t
    rw [← mem_arrange, ← mem_arrange, ← toList_ofList, h, toList_ofList]
  · intro h
    refine eq_of_mem_iff fun t => ?_
    exact mem_arrange.trans ((h t).trans mem_arrange.symm)

/-! ## What a set is made from -/

/-- A list in match priority with exactly the given terms. -/
structure Enumerates (terms : List Text) (p : Text → Prop) : Prop where
  mem_iff : ∀ t, t ∈ terms ↔ p t
  nodup : terms.Nodup
  /-- More bytes come first, and of as many bytes the lesser ones. -/
  decreasing : terms.Pairwise fun a b =>
    byteSize b < byteSize a ∨ byteSize a = byteSize b ∧ utf8 a < utf8 b

/-- Two sets answer everything alike, and texts are tokenized alike with them, by their pieces and by
a lexer that is drained. -/
structure SameAnswers (a b : TermSet) : Prop where
  size : a.size = b.size
  isEmpty : a.isEmpty = b.isEmpty
  toList : a.toList = b.toList
  toValue : a.toValue = b.toValue
  contains : ∀ s, a.contains s = b.contains s
  lookup : ∀ s, a.lookup s = b.lookup s
  longestPrefix? : ∀ s, a.longestPrefix? s = b.longestPrefix? s
  tokenize : ∀ text, tokenize text (some a) = tokenize text (some b)
  drain : ∀ text, ∃ ts, (Lexer.ofText text (some a)).drain = .ok ts ∧
    (Lexer.ofText text (some b)).drain = .ok ts

theorem enumerates_ofList (texts : List Text) :
    Enumerates (ofList texts).toList (IsTermOf texts) where
  mem_iff := fun _ => mem_arrange
  nodup := (ofList texts).ordered.nodup
  decreasing := (ofList texts).ordered.imp priority_eq_lt_iff.mp

theorem sameAnswers_of_beq {a b : TermSet} (h : (a == b) = true) : SameAnswers a b := by
  obtain rfl := eq_of_beq h
  refine ⟨rfl, rfl, rfl, rfl, fun _ => rfl, fun _ => rfl, fun _ => rfl, fun _ => rfl, ?_⟩
  intro text
  have hdrain := Lexer.drain_ofText text (some a)
  exact ⟨_, hdrain, hdrain⟩

/-- **A term set is the set of its folded terms**: sets compare as equal exactly if they hold the
same terms, they list them in match priority, and equal sets cannot be told apart. Neither the order
of the texts that a set is made from nor how often they come matters. -/
theorem ofList_canonical (xs ys : List Text) :
    ((ofList xs == ofList ys) = true ↔ ∀ t, IsTermOf xs t ↔ IsTermOf ys t) ∧
      Enumerates (ofList xs).toList (IsTermOf xs) ∧
      ((ofList xs == ofList ys) = true → SameAnswers (ofList xs) (ofList ys)) ∧
      ((∀ s, s ∈ xs ↔ s ∈ ys) → ofList xs = ofList ys) := by
  refine ⟨beq_iff_eq.trans ofList_eq_ofList_iff, enumerates_ofList xs, sameAnswers_of_beq, ?_⟩
  intro h
  rw [ofList_eq_ofList_iff]
  intro t
  exact and_congr_right fun _ => exists_congr fun s => and_congr_left fun _ => h s

/-- The theorem at lists that differ in case, in an empty text, and in order and number. -/
theorem ofList_canonical_sigma :
    (ofList [['b'], [], ['A', 'Σ']] == ofList [['a', 'ς'], ['B']]) = true ∧
      SameAnswers (ofList [['b'], [], ['A', 'Σ']]) (ofList [['a', 'ς'], ['B']]) ∧
      (∀ s : Text, s ∈ [['b'], ['#']] ↔ s ∈ [['#'], ['b'], ['#']]) ∧
      ofList [['b'], ['#']] = ofList [['#'], ['b'], ['#']] := by
  have hbeq : (ofList [['b'], [], ['A', 'Σ']] == ofList [['a', 'ς'], ['B']]) = true := by
    decide +kernel
  have hmem : ∀ s : Text, s ∈ [['b'], ['#']] ↔ s ∈ [['#'], ['b'], ['#']] := by
    simp [or_comm]
  refine ⟨hbeq, ?_, hmem, ?_⟩
  · exact (ofList_canonical [['b'], [], ['A', 'Σ']] [['a', 'ς'], ['B']]).2.2.1 hbeq
  · exact (ofList_canonical [['b'], ['#']] [['#'], ['b'], ['#']]).2.2.2 hmem

/-! ## Back from the terms -/

/-- The terms of a set are folded already, and they are all kept when they are read again. -/
theorem ofList_toList_ofList (texts : List Text) : ofList (ofList texts).toList = ofList texts := by
  have hfold : ∀ s ∈ arrange texts, fold s = s := by
    intro s hs
    obtain ⟨_, u, _, rfl⟩ := mem_arrange.mp hs
    exact fold_of_infix (List.infix_refl _)
  rw [toList_ofList, ofList_eq_ofList_iff]
  intro t
  constructor
  · rintro ⟨_, s, hs, rfl⟩
    rw [hfold s hs]
    exact mem_arrange.mp hs
  · intro h
    have hmem := mem_arrange.mpr h
    exact ⟨h.1, t, hmem, hfold t hmem⟩

/-- The ways to come by a set. -/
inductive Built : TermSet → Prop
  | ofList (texts : List Text) : Built (ofList texts)
  | empty : Built empty
  | ofValue {v : Value} {set : TermSet} : ofValue? v = some set → Built set

theorem Built.exists_ofList {set : TermSet} (h : Built set) :
    ∃ texts, set = TermSet.ofList texts := by
  cases h with
  | ofList texts => exact ⟨texts, rfl⟩
  | empty => exact ⟨[], rfl⟩
  | @ofValue v _ hread =>
    cases v with
    | list items =>
      obtain ⟨texts, _, rfl⟩ := Option.map_eq_some_iff.mp hread
      exact ⟨texts, rfl⟩
    | null | bool | integer | decimal | text | record => cases hread

/-- A set is read back from its terms and from its stored form. -/
structure Restores (set : TermSet) : Prop where
  fromList : ofList set.toList = set
  beq : (ofList set.toList == set) = true
  answers : SameAnswers (ofList set.toList) set
  fromValue : ofValue? set.toValue = some set

/-- **Every term set is made again from its own terms**, however it was come by, and so is the list
of terms that any list is made into. -/
theorem restores_of_built :
    (∀ set, Built set → Restores set) ∧
      ∀ texts, (ofList (ofList texts).toList).toList = (ofList texts).toList := by
  refine ⟨?_, fun texts => congrArg toList (ofList_toList_ofList texts)⟩
  intro set h
  obtain ⟨texts, rfl⟩ := h.exists_ofList
  have hsame := ofList_toList_ofList texts
  have hbeq : (ofList (ofList texts).toList == ofList texts) = true := beq_iff_eq.mpr hsame
  exact ⟨hsame, hbeq, sameAnswers_of_beq hbeq, (ofValue?_toValue _).trans (congrArg some hsame)⟩

/-- The theorem at a stored set whose terms change their size and their order when they are read. -/
theorem restores_of_built_stored :
    ofValue? (.list [.text ['\u212a'], .text ['İ', 'Σ'], .text ['k']]) =
        some (ofList [['\u212a'], ['İ', 'Σ'], ['k']]) ∧
      (ofList [['\u212a'], ['İ', 'Σ'], ['k']]).toList = [['i', '\u0307', 'ς'], ['k']] ∧
      Restores (ofList [['\u212a'], ['İ', 'Σ'], ['k']]) := by
  have hread : ofValue? (.list [.text ['\u212a'], .text ['İ', 'Σ'], .text ['k']]) =
      some (ofList [['\u212a'], ['İ', 'Σ'], ['k']]) := rfl
  exact ⟨hread, by decide +kernel, restores_of_built.1 _ (.ofValue hread)⟩

end TermLexer.TermSet
