import TermLexer.Proofs.Text.Append
import TermLexer.Proofs.Token.Context

/-! # A term at the front of a text

A term is folded on its own, and a text that begins with it is folded as a whole. The two agree on
the term but for one case: a capital sigma that ends a word of the term, with nothing but ignorable
code points after it, while the text goes on with a cased code point. Then the sigma is a final one
in the term and none in the text, and the term is not found. In every other case the term is the
first token of the text. -/

namespace TermLexer

open TermLexer.Text TermLexer.Unicode

/-! ## Folding with and without what follows -/

namespace Text

/-- Behind `before`, listed backwards, a capital sigma of the text ends a word as long as no cased
code point follows the text. -/
def OpenSigma (before s : Text) : Prop :=
  ∃ u v, s = u ++ 'Σ' :: v ∧ v.all isIgnorable = true ∧ meetsCased (u.reverse ++ before) = true

theorem not_openSigma_nil (before : Text) : ¬OpenSigma before [] := by
  rintro ⟨u, v, h, _⟩
  cases u <;> cases h

theorem openSigma_cons_iff {before : Text} {c : Char} {cs : Text} :
    OpenSigma before (c :: cs) ↔
      c = 'Σ' ∧ cs.all isIgnorable = true ∧ meetsCased before = true ∨
        OpenSigma (c :: before) cs := by
  constructor
  · rintro ⟨u, v, h, hv, hu⟩
    cases u with
    | nil =>
      obtain ⟨rfl, rfl⟩ := List.cons.inj h
      exact .inl ⟨rfl, hv, hu⟩
    | cons d u =>
      obtain ⟨rfl, rfl⟩ := List.cons.inj h
      rw [List.reverse_cons, List.append_assoc] at hu
      exact .inr ⟨u, v, rfl, hv, hu⟩
  · rintro (⟨rfl, hall, hmeets⟩ | ⟨u, v, rfl, hv, hu⟩)
    · exact ⟨[], cs, rfl, hall, hmeets⟩
    · refine ⟨c :: u, v, rfl, hv, ?_⟩
      rw [List.reverse_cons, List.append_assoc]
      exact hu

theorem length_foldChar (before before' : Text) (c : Char) (after after' : Text) :
    (foldChar before c after).length = (foldChar before' c after').length := by
  unfold foldChar
  split
  · rfl
  · rfl

/-- A sigma takes the same form in front of two texts unless only the second decides that no word
ends there. -/
theorem foldChar_append_eq_iff {before : Text} {c : Char} {cs after : Text} :
    foldChar before c (cs ++ after) = foldChar before c cs ↔
      ¬(meetsCased after = true ∧
        c = 'Σ' ∧ cs.all isIgnorable = true ∧ meetsCased before = true) := by
  by_cases hc : c = 'Σ'
  · subst hc
    cases hall : cs.all isIgnorable with
    | false => simp [foldChar, endsWord, meetsCased_append, hall]
    | true =>
      have hcs := meetsCased_of_all_ignorable hall
      cases hafter : meetsCased after <;> cases hbefore : meetsCased before <;>
        simp [foldChar, endsWord, meetsCased_append, hall, hcs, hafter, hbefore]
  · simp [foldChar, hc]

theorem foldBetween_eq_iff {before s after : Text} :
    foldBetween before s after = foldAfter before s ↔
      ¬(meetsCased after = true ∧ OpenSigma before s) := by
  induction s generalizing before with
  | nil => exact iff_of_true rfl fun h => not_openSigma_nil before h.2
  | cons c cs ih =>
    have hlength := length_foldChar before before c (cs ++ after) cs
    have hparts : foldBetween before (c :: cs) after = foldAfter before (c :: cs) ↔
        foldChar before c (cs ++ after) = foldChar before c cs ∧
          foldBetween (c :: before) cs after = foldAfter (c :: before) cs :=
      ⟨fun h => List.append_inj h hlength, fun h => congrArg₂ (· ++ ·) h.1 h.2⟩
    rw [hparts, ih, foldChar_append_eq_iff, openSigma_cons_iff, and_or_left, not_or]

theorem length_foldBetween (before s after : Text) :
    (foldBetween before s after).length = (foldAfter before s).length := by
  rw [← foldBetween_nil]
  exact (sigmaVariants_foldBetween before after before [] s).length_eq

/-- The folded form of a text begins with that of its first part exactly if no sigma that ends the
part is followed by a cased code point. -/
theorem fold_prefix_fold_append_iff {w r : Text} :
    fold w <+: fold (w ++ r) ↔ ¬(meetsCased r = true ∧ OpenSigma [] w) := by
  rw [fold_append, ← foldBetween_eq_iff]
  constructor
  · rintro ⟨tail, happend⟩
    exact (List.append_inj happend (length_foldBetween [] w r).symm).1.symm
  · intro h
    rw [h]
    exact List.prefix_append _ _

/-- The first code point has nothing before it, so what follows does not matter to it. -/
theorem head?_fold_append {w : Text} (hne : w ≠ []) (r : Text) :
    (fold (w ++ r)).head? = (fold w).head? := by
  cases w with
  | nil => exact absurd rfl hne
  | cons c cs =>
    have hhead : foldChar [] c (cs ++ r) = foldChar [] c cs := by
      simp [foldChar, endsWord, meetsCased]
    have hfirst := foldChar_ne_nil [] c cs
    show (foldChar [] c (cs ++ r) ++ _).head? = (foldChar [] c cs ++ _).head?
    rw [hhead, List.head?_append_of_ne_nil _ hfirst, List.head?_append_of_ne_nil _ hfirst]

end Text

/-! ## The first token -/

theorem keptTerms_singleton {w : Text} (hne : fold w ≠ []) :
    keptTerms (some (.ofList [w])) = [fold w] := by
  show TermSet.arrange [w] = [fold w]
  cases hfold : fold w with
  | nil => exact absurd hfold hne
  | cons c cs => simp [TermSet.arrange, hfold, TermSet.insert]

/-- The only term of a set is matched wherever the text goes on with it. -/
theorem rule_of_singleton {w after : Text} {c : Char} {cs : Text} (hne : fold w ≠ [])
    (happend : fold w ++ after = c :: cs) :
    Rule (some (.ofList [w])) c cs .special (fold w) after := by
  refine .special (matchTerm_eq_some_iff.mpr ?_) happend.symm
  rw [keptTerms_singleton hne, ← happend]
  refine ⟨List.mem_singleton_self _, List.prefix_append _ _, ?_⟩
  intro t ht _
  rw [List.mem_singleton.mp ht]

/-- **A special term at the front of a text is the first token** unless the text goes on with a
cased code point behind a capital sigma that ends the term. -/
theorem head?_tokenize_term_append_iff {w : Text} (hne : fold w ≠ [])
    (hsolid : ∀ c ∈ (fold w).head?, isWhitespace c = false) (r : Text) :
    Emits (w ++ r) (some (.ofList [w])) (tokenize (w ++ r) (some (.ofList [w]))) ∧
      ((tokenize (w ++ r) (some (.ofList [w]))).head? = some (fold w) ↔
        ¬(meetsCased r = true ∧ OpenSigma [] w)) := by
  refine ⟨emits_iff.mpr rfl, ?_⟩
  rw [← fold_prefix_fold_append_iff, tokenize_eq]
  obtain ⟨c, hhead⟩ := Option.ne_none_iff_exists'.mp (mt List.head?_eq_none_iff.mp hne)
  have hc := hsolid c hhead
  rw [← head?_fold_append (mt fold_eq_nil.mpr hne) r] at hhead
  obtain ⟨cs, hcs⟩ := List.head?_eq_some_iff.mp hhead
  rw [hcs]
  constructor
  · intro hfirst
    obtain ⟨kind, token, after, hrule, hpieces⟩ :=
      pieces_cons_token (some (.ofList [w])) cs hc
    rw [hpieces] at hfirst
    obtain rfl : token = fold w := Option.some.inj hfirst
    exact ⟨after, hrule.append_eq⟩
  · rintro ⟨after, happend⟩
    rw [← happend, (rule_of_singleton hne happend).pieces_eq hc]
    rfl

/-- The theorem at a term that ends with a sigma. Behind an ignorable code point it is a digit or a
letter that decides. -/
theorem head?_tokenize_term_append_sigma :
    fold ['A', 'Σ'] ≠ [] ∧ (∀ c ∈ (fold ['A', 'Σ']).head?, isWhitespace c = false) ∧
      Emits (['A', 'Σ'] ++ ['.', '1']) (some (.ofList [['A', 'Σ']])) [['a', 'ς'], ['.'], ['1']] ∧
      (tokenize (['A', 'Σ'] ++ ['.', '1']) (some (.ofList [['A', 'Σ']]))).head? =
        some (fold ['A', 'Σ']) ∧
      Emits (['A', 'Σ'] ++ ['.', 'B']) (some (.ofList [['A', 'Σ']])) [['a', 'σ'], ['.'], ['b']] ∧
      (tokenize (['A', 'Σ'] ++ ['.', 'B']) (some (.ofList [['A', 'Σ']]))).head? ≠
        some (fold ['A', 'Σ']) := by
  have hfold : fold ['A', 'Σ'] = ['a', 'ς'] := by decide +kernel
  have hne : fold ['A', 'Σ'] ≠ [] := by
    rw [hfold]
    exact List.cons_ne_nil _ _
  have hsolid : ∀ c ∈ (fold ['A', 'Σ']).head?, isWhitespace c = false := by
    rw [hfold]
    rintro c ⟨⟩
    decide
  have hdigit : meetsCased ['.', '1'] = false := by decide +kernel
  have hletter : meetsCased ['.', 'B'] = true := by decide +kernel
  have hopen : OpenSigma [] ['A', 'Σ'] := ⟨['A'], [], rfl, rfl, by decide +kernel⟩
  have hwhole : tokenize (['A', 'Σ'] ++ ['.', '1']) (some (.ofList [['A', 'Σ']])) =
      [['a', 'ς'], ['.'], ['1']] := by
    decide +kernel
  have hcut : tokenize (['A', 'Σ'] ++ ['.', 'B']) (some (.ofList [['A', 'Σ']])) =
      [['a', 'σ'], ['.'], ['b']] := by
    decide +kernel
  obtain ⟨hemits, hfirst⟩ := head?_tokenize_term_append_iff hne hsolid ['.', '1']
  obtain ⟨hemits', hfirst'⟩ := head?_tokenize_term_append_iff hne hsolid ['.', 'B']
  rw [hwhole] at hemits
  rw [hcut] at hemits'
  refine ⟨hne, hsolid, hemits, hfirst.mpr ?_, hemits', ?_⟩
  · rw [hdigit]
    exact fun h => Bool.false_ne_true h.1
  · intro hfound
    exact hfirst'.mp hfound ⟨hletter, hopen⟩

/-- A term is not always emitted whole: with a letter behind its sigma it is taken for a word. -/
theorem tokenize_open_sigma : fold ['A', 'Σ'] = ['a', 'ς'] ∧
    tokenize (['A', 'Σ'] ++ ['B']) (some (.ofList [['A', 'Σ']])) = [['a', 'σ', 'b']] ∧
    Emits (['A', 'Σ'] ++ ['B']) (some (.ofList [['A', 'Σ']])) [['a', 'σ', 'b']] := by
  have hfold : fold ['A', 'Σ'] = ['a', 'ς'] := by decide +kernel
  have htokens : tokenize (['A', 'Σ'] ++ ['B']) (some (.ofList [['A', 'Σ']])) =
      [['a', 'σ', 'b']] := by
    decide +kernel
  exact ⟨hfold, htokens, emits_iff.mpr htokens⟩

end TermLexer
