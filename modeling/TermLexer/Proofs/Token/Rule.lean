import TermLexer.Proofs.Term.Match

/-! # The rule that applies

`munch` says how many code points a token takes. Here the same is said by parts: which rule applies
to the text `c :: cs`, the token it recognises and what follows the token. Everything about single
tokens is proved by cases on the rule. -/

namespace TermLexer

open TermLexer.Text TermLexer.Unicode

/-- The rule that applies to `c :: cs`, with the token and what follows it. -/
inductive Rule (terms : Option TermSet) (c : Char) (cs : Text) : Token.Kind → Text → Text → Prop
  | special {term after : Text} : matchTerm terms (c :: cs) = some term → c :: cs = term ++ after →
      Rule terms c cs .special term after
  | number : matchTerm terms (c :: cs) = none → isNumeric c = true →
      Rule terms c cs .number (c :: cs.takeWhile isNumeric) (cs.dropWhile isNumeric)
  | word : matchTerm terms (c :: cs) = none → isNumeric c = false → isAlphabetic c = true →
      Rule terms c cs .word (c :: cs.takeWhile isAlphanumeric) (cs.dropWhile isAlphanumeric)
  | symbol : matchTerm terms (c :: cs) = none → isNumeric c = false → isAlphabetic c = false →
      Rule terms c cs .symbol [c] cs

theorem Rule.of_munch (terms : Option TermSet) (c : Char) (cs : Text) :
    Rule terms c cs (munch terms c cs).1 (c :: cs.take (munch terms c cs).2)
      (cs.drop (munch terms c cs).2) := by
  unfold munch
  cases hterm : matchTerm terms (c :: cs) with
  | some term =>
    obtain ⟨hmem, ⟨after, happend⟩, _⟩ := matchTerm_eq_some_iff.mp hterm
    -- a term is not empty, so it takes `c`
    cases term with
    | nil => exact absurd rfl (ne_nil_of_mem_keptTerms hmem)
    | cons d ds =>
      cases happend
      simpa using Rule.special hterm rfl
  | none =>
    by_cases hn : isNumeric c = true
    · simp only [hn, if_true, take_length_takeWhile, drop_length_takeWhile]
      exact .number hterm hn
    · rw [Bool.not_eq_true] at hn
      by_cases ha : isAlphabetic c = true
      · simp only [hn, ha, if_true, Bool.false_eq_true, if_false, take_length_takeWhile,
          drop_length_takeWhile]
        exact .word hterm hn ha
      · rw [Bool.not_eq_true] at ha
        simp only [hn, ha, Bool.false_eq_true, if_false, List.take_zero, List.drop_zero]
        exact .symbol hterm hn ha

namespace Rule

variable {terms : Option TermSet} {c : Char} {cs : Text} {kind : Token.Kind} {token after : Text}

theorem append_eq (h : Rule terms c cs kind token after) : token ++ after = c :: cs := by
  cases h with
  | special _ happend => exact happend.symm
  | number => rw [List.cons_append, List.takeWhile_append_dropWhile]
  | word => rw [List.cons_append, List.takeWhile_append_dropWhile]
  | symbol => rfl

theorem token_ne_nil (h : Rule terms c cs kind token after) : token ≠ [] := by
  cases h with
  | special hterm _ => exact ne_nil_of_mem_keptTerms (matchTerm_eq_some_iff.mp hterm).1
  | number => exact List.cons_ne_nil _ _
  | word => exact List.cons_ne_nil _ _
  | symbol => exact List.cons_ne_nil _ _

end Rule

/-! ## Pieces, rule by rule -/

theorem pieces_cons_blank (terms : Option TermSet) {c : Char} (cs : Text)
    (h : isWhitespace c = true) : pieces terms (c :: cs) = .blank c :: pieces terms cs := by
  rw [pieces, if_pos h]

theorem pieces_cons_token (terms : Option TermSet) {c : Char} (cs : Text)
    (h : isWhitespace c = false) : ∃ kind token after, Rule terms c cs kind token after ∧
      pieces terms (c :: cs) = .token kind token :: pieces terms after := by
  refine ⟨_, _, _, Rule.of_munch terms c cs, ?_⟩
  rw [pieces, if_neg (Bool.eq_false_iff.mp h)]

end TermLexer
