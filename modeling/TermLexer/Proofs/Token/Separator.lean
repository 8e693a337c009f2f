import TermLexer.Proofs.Text.Fold
import TermLexer.Proofs.Token.Context

/-! # Texts put together with separators

As long as no term has a separator in it, neither folding nor a token looks across a separator. So
the tokens of texts with separators between them are the tokens of the texts one after the other,
whatever the separators are. A token read again on its own is the same token, hence the tokens of a
text, written with separators between them, are read back as they were. All this is shown of the
pieces of a text, and `emits_iff` carries it over to a lexer that is drained. -/

namespace TermLexer

open TermLexer.Text TermLexer.Unicode

section

variable {terms : Option TermSet} (hterms : Unspaced terms)

include hterms

theorem tokenize_append_blank {x : Char} (hx : isWhitespace x = true) (a b : Text) :
    tokenize (a ++ x :: b) terms = tokenize a terms ++ tokenize b terms := by
  have hhead : ∀ c ∈ (x :: fold b).head?, isWhitespace c = true := by
    rintro c ⟨⟩
    exact hx
  rw [tokenize_eq, tokenize_eq, tokenize_eq, fold_append_blank hx, pieces_append hterms _ hhead,
    pieces_cons_blank terms _ hx, List.filterMap_append, List.filterMap_cons]
  rfl

theorem tokenize_blanks_append {w : Text} (hw : ∀ c ∈ w, isWhitespace c = true) (b : Text) :
    tokenize (w ++ b) terms = tokenize b terms := by
  induction w with
  | nil => rfl
  | cons x xs ih =>
    have hfirst := tokenize_append_blank hterms (hw x List.mem_cons_self) [] (xs ++ b)
    rw [List.nil_append, tokenize_nil, List.nil_append] at hfirst
    rw [List.cons_append, hfirst, ih fun c hc => hw c (List.mem_cons_of_mem _ hc)]

theorem tokenize_append_blanks {w : Text} (hne : w ≠ []) (hw : ∀ c ∈ w, isWhitespace c = true)
    (a b : Text) : tokenize (a ++ (w ++ b)) terms = tokenize a terms ++ tokenize b terms := by
  cases w with
  | nil => exact absurd rfl hne
  | cons x xs =>
    rw [List.cons_append, tokenize_append_blank hterms (hw x List.mem_cons_self),
      tokenize_blanks_append hterms fun c hc => hw c (List.mem_cons_of_mem _ hc)]

/-- Texts that are one token each are the tokens of the text that they make with separators. -/
theorem tokenize_intercalate {w : Text} (hne : w ≠ []) (hw : ∀ c ∈ w, isWhitespace c = true)
    {ts : List Text} (hts : ∀ t ∈ ts, tokenize t terms = [t]) :
    tokenize (w.intercalate ts) terms = ts := by
  induction ts with
  | nil => rw [List.intercalate_nil, tokenize_nil]
  | cons t ts ih =>
    have hfirst := hts t List.mem_cons_self
    cases ts with
    | nil => rw [List.intercalate_singleton, hfirst]
    | cons t' ts =>
      have hrest := ih fun u hu => hts u (List.mem_cons_of_mem _ hu)
      rw [List.intercalate_cons_cons, List.append_assoc,
        tokenize_append_blanks hterms hne hw, hfirst, hrest]
      rfl

end

/-- A token is cut out of a folded text, and it is one piece of its own. -/
theorem tokenize_of_mem_tokenize {text t : Text} {terms : Option TermSet}
    (h : t ∈ tokenize text terms) : tokenize t terms = [t] := by
  rw [tokenize_eq] at h
  obtain ⟨p, hp, hword⟩ := List.mem_filterMap.mp h
  cases p with
  | blank c => cases hword
  | token kind token =>
    obtain rfl : token = t := Option.some.inj hword
    have hinfix : token <:+: fold text := by
      obtain ⟨front, back, hpieces⟩ := List.append_of_mem hp
      rw [← flatMap_text_pieces terms (fold text), hpieces, List.flatMap_append, List.flatMap_cons,
        ← List.append_assoc]
      exact List.infix_append ..
    rw [tokenize_eq, fold_of_infix hinfix, pieces_of_token_mem hp]
    rfl

/-- **Separators between two texts separate their tokens**, whatever separators they are, and
separators in front of a text or behind it change nothing. -/
theorem tokenize_separated {terms : Option TermSet} (hterms : Unspaced terms) {w : Text}
    (hne : w ≠ []) (hw : ∀ c ∈ w, isWhitespace c = true) (a b : Text) :
    tokenize (a ++ (w ++ b)) terms = tokenize a terms ++ tokenize b terms ∧
      tokenize (w ++ b) terms = tokenize b terms ∧ tokenize (a ++ w) terms = tokenize a terms ∧
      Emits a terms (tokenize a terms) ∧ Emits b terms (tokenize b terms) ∧
      Emits (a ++ (w ++ b)) terms (tokenize a terms ++ tokenize b terms) ∧
      Emits (w ++ b) terms (tokenize b terms) ∧ Emits (a ++ w) terms (tokenize a terms) := by
  have hbetween := tokenize_append_blanks hterms hne hw a b
  have hbefore := tokenize_blanks_append hterms hw b
  have hbehind := tokenize_append_blanks hterms hne hw a []
  rw [List.append_nil, tokenize_nil, List.append_nil] at hbehind
  exact ⟨hbetween, hbefore, hbehind, emits_iff.mpr rfl, emits_iff.mpr rfl, emits_iff.mpr hbetween,
    emits_iff.mpr hbefore, emits_iff.mpr hbehind⟩

/-- The theorem where a sigma stands before the separators and a cased letter behind them. -/
theorem tokenize_separated_sigma :
    Unspaced (some (.ofList [['B', '#']])) ∧ ([' ', '\u3000'] : Text) ≠ [] ∧
      (∀ c ∈ ([' ', '\u3000'] : Text), isWhitespace c = true) ∧
      tokenize (['A', 'Σ'] ++ ([' ', '\u3000'] ++ ['B', '#'])) (some (.ofList [['B', '#']])) =
        [['a', 'ς'], ['b', '#']] ∧
      Emits (['A', 'Σ'] ++ ([' ', '\u3000'] ++ ['B', '#'])) (some (.ofList [['B', '#']]))
        [['a', 'ς'], ['b', '#']] := by
  have hterms : Unspaced (some (.ofList [['B', '#']])) := by decide +kernel
  have hne : ([' ', '\u3000'] : Text) ≠ [] := by decide
  have hw : ∀ c ∈ ([' ', '\u3000'] : Text), isWhitespace c = true :=
    List.all_eq_true.mp (by decide)
  have hparts : tokenize ['A', 'Σ'] (some (.ofList [['B', '#']])) ++
      tokenize ['B', '#'] (some (.ofList [['B', '#']])) = [['a', 'ς'], ['b', '#']] := by
    decide +kernel
  obtain ⟨hbetween, _, _, _, _, hemits, _⟩ :=
    tokenize_separated hterms hne hw ['A', 'Σ'] ['B', '#']
  rw [hparts] at hbetween hemits
  exact ⟨hterms, hne, hw, hbetween, hemits⟩

/-- **The tokens of a text, written with blanks between them, are read back.** -/
theorem tokenize_joined {terms : Option TermSet} (hterms : Unspaced terms) (text : Text) :
    tokenize ([' '].intercalate (tokenize text terms)) terms = tokenize text terms ∧
      Emits text terms (tokenize text terms) ∧
      Emits ([' '].intercalate (tokenize text terms)) terms (tokenize text terms) := by
  have hjoined : tokenize ([' '].intercalate (tokenize text terms)) terms = tokenize text terms :=
    tokenize_intercalate hterms (List.cons_ne_nil _ _) (List.all_eq_true.mp (by decide))
      fun _ => tokenize_of_mem_tokenize
  exact ⟨hjoined, emits_iff.mpr rfl, emits_iff.mpr hjoined⟩

/-- The theorem at tokens that were cut from each other without a separator. -/
theorem tokenize_joined_unseparated :
    Unspaced (some (.ofList [['C'], ['c', '#']])) ∧
      tokenize ['X', 'Σ', '-', 'C', '#', '1', 'C'] (some (.ofList [['C'], ['c', '#']])) =
        [['x', 'ς'], ['-'], ['c', '#'], ['1'], ['c']] ∧
      tokenize ([' '].intercalate [['x', 'ς'], ['-'], ['c', '#'], ['1'], ['c']])
          (some (.ofList [['C'], ['c', '#']])) =
        [['x', 'ς'], ['-'], ['c', '#'], ['1'], ['c']] ∧
      Emits ([' '].intercalate [['x', 'ς'], ['-'], ['c', '#'], ['1'], ['c']])
        (some (.ofList [['C'], ['c', '#']])) [['x', 'ς'], ['-'], ['c', '#'], ['1'], ['c']] := by
  have hterms : Unspaced (some (.ofList [['C'], ['c', '#']])) := by decide +kernel
  have htokens : tokenize ['X', 'Σ', '-', 'C', '#', '1', 'C'] (some (.ofList [['C'], ['c', '#']])) =
      [['x', 'ς'], ['-'], ['c', '#'], ['1'], ['c']] := by
    decide +kernel
  obtain ⟨hjoined, _, hemits⟩ := tokenize_joined hterms ['X', 'Σ', '-', 'C', '#', '1', 'C']
  rw [htokens] at hjoined hemits
  exact ⟨hterms, htokens, hjoined, hemits⟩

end TermLexer
