import TermLexer.Proofs.Token.Enclosed

/-! # What tokens leave out

Tokens and gaps lie over a text in turn, and the gaps are separators. So the tokens one after the
other hold every code point of the text that is no separator, in its place, whatever the special
terms are. Whether they hold separators as well is up to the special terms: no run goes over a
separator and no symbol is one. -/

namespace TermLexer

open TermLexer.Text TermLexer.Unicode

/-! ## Without the separators -/

theorem filter_of_blank {s : Text} (h : ∀ c ∈ s, isWhitespace c = true) :
    s.filter (!isWhitespace ·) = [] := by
  rw [List.filter_eq_nil_iff]
  intro c hc
  rw [h c hc]
  exact Bool.false_ne_true

theorem filter_of_solid {s : Text} (h : ∀ c ∈ s, isWhitespace c = false) :
    s.filter (!isWhitespace ·) = s := by
  rw [List.filter_eq_self]
  intro c hc
  rw [h c hc]
  rfl

/-- But for separators the tokens laid over a text are the text. -/
theorem Laid.filter_flatten {pos : Nat} {s : Text} {ts : List Token} (h : Laid pos s ts) :
    (ts.map Token.text).flatten.filter (!isWhitespace ·) = s.filter (!isWhitespace ·) := by
  induction h with
  | gap hblanks =>
    rw [filter_of_blank hblanks]
    rfl
  | token hblanks _ _ ih =>
    rw [List.map_cons, List.flatten_cons, List.filter_append, ih, List.filter_append,
      List.filter_append, filter_of_blank hblanks, List.nil_append]

/-! ## Tokens without separators -/

section

variable {terms : Option TermSet} {s : Text} {t : Token} (ht : t ∈ tokens terms s)

include ht

theorem solid_of_not_special (hkind : t.kind ≠ .special) : ∀ c ∈ t.text, isWhitespace c = false := by
  obtain ⟨_, _, _, _, _, hlexeme⟩ := exists_lexeme ht
  intro c hc
  rw [Bool.eq_false_iff]
  intro hblank
  exact hkind (hlexeme.special_of_blank hc hblank)

theorem solid_of_unspaced (hterms : Unspaced terms) : ∀ c ∈ t.text, isWhitespace c = false := by
  by_cases hkind : t.kind = .special
  · obtain ⟨_, _, _, _, _, hlexeme⟩ := exists_lexeme ht
    exact hterms t.text (hlexeme.longest hkind).1
  · exact solid_of_not_special ht hkind

end

/-- **The tokens of a text, one after the other, are its folded form without the separators** as
long as no special term has a separator in it. With any terms only special tokens have, and nothing
but separators is lost. -/
theorem tokens_rebuild_text (text : Text) (terms : Option TermSet) :
    ∃ ts, (Lexer.ofText text terms).drain = .ok ts ∧ tokenize text terms = ts.map Token.text ∧
      (∀ t ∈ ts, t.kind ≠ .special → ∀ c ∈ t.text, isWhitespace c = false) ∧
      (tokenize text terms).flatten.filter (!isWhitespace ·) =
        (fold text).filter (!isWhitespace ·) ∧
      (Unspaced terms → (tokenize text terms).flatten = (fold text).filter (!isWhitespace ·)) := by
  have hfilter := (laid_pieces terms 0 (fold text)).filter_flatten
  refine ⟨tokens terms (fold text), Lexer.drain_ofText text terms, rfl,
    fun _ => solid_of_not_special, hfilter, ?_⟩
  intro hterms
  have hsolid : ∀ c ∈ (tokenize text terms).flatten, isWhitespace c = false := by
    intro c hc
    obtain ⟨_, hmem, hc⟩ := List.mem_flatten.mp hc
    obtain ⟨t, ht, rfl⟩ := List.mem_map.mp hmem
    exact solid_of_unspaced ht hterms c hc
  rw [← filter_of_solid hsolid]
  exact hfilter

/-- The theorem at a text with separators of several kinds, with a term and without a set. -/
theorem tokens_rebuild_text_sharp :
    Unspaced (some (.ofList [['C', '#']])) ∧ Unspaced none ∧
      (tokenize ['\t', 'A', 'Σ', '\u3000', 'C', '#', '1', ' '] (some (.ofList [['C', '#']]))).flatten =
        ['a', 'ς', 'c', '#', '1'] ∧
      (tokenize ['\t', 'A', 'Σ', '\u3000', 'C', '#', '1', ' '] none).flatten =
        ['a', 'ς', 'c', '#', '1'] := by
  have hset : Unspaced (some (.ofList [['C', '#']])) := by decide +kernel
  have hnone : Unspaced none := List.forall_mem_nil _
  have hfold : (fold ['\t', 'A', 'Σ', '\u3000', 'C', '#', '1', ' ']).filter (!isWhitespace ·) =
      ['a', 'ς', 'c', '#', '1'] := by
    decide +kernel
  obtain ⟨_, _, _, _, _, hwith⟩ :=
    tokens_rebuild_text ['\t', 'A', 'Σ', '\u3000', 'C', '#', '1', ' '] (some (.ofList [['C', '#']]))
  obtain ⟨_, _, _, _, _, hwithout⟩ :=
    tokens_rebuild_text ['\t', 'A', 'Σ', '\u3000', 'C', '#', '1', ' '] none
  exact ⟨hset, hnone, (hwith hset).trans hfold, (hwithout hnone).trans hfold⟩

end TermLexer
