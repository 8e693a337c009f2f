import TermLexer.Proofs.Token.Grammar
import TermLexer.Proofs.Unicode.Tables

/-! # A token and what follows it

A rule looks beyond its token at two things only: the terms that would reach further, and the next
code point, which ends a run. So the token stays the same in front of any other text in which no
other term matches and in which a run does not go on, in particular in front of a separator or of
nothing. Over a whole text this says that its pieces can be cut anywhere between two of them, and
that pieces in front of a separator are the pieces of their own text. -/

namespace TermLexer

open TermLexer.Text TermLexer.Unicode

theorem MaximalRun.dropWhile_eq {p : Char → Bool} {run after : Text} (h : MaximalRun p run after) :
    (run ++ after).dropWhile p = after := by
  have hsplit := List.takeWhile_append_dropWhile (p := p) (l := run ++ after)
  rw [h.takeWhile_eq] at hsplit
  exact List.append_cancel_left hsplit

/-- A run stops as well in front of any text that begins like the one before, or with a
separator. -/
theorem MaximalRun.of_after {p : Char → Bool} {cs after : Text}
    (hblank : ∀ d, isWhitespace d = true → p d = false)
    (hnext : ∀ d ∈ after.head?, d ∈ (cs.dropWhile p).head? ∨ isWhitespace d = true) :
    MaximalRun p (cs.takeWhile p) after where
  passes := forall_mem_takeWhile p cs
  stops := by
    intro d hd
    rcases hnext d hd with hsame | hspace
    · exact head?_dropWhile_fails p cs d hsame
    · exact hblank d hspace

namespace Rule

variable {terms : Option TermSet} {c : Char} {cs : Text} {kind : Token.Kind} {token after : Text}

/-- Another text may follow a token if it lets no other term match and no run go on. -/
theorem of_after (h : Rule terms c cs kind token after) {after' cs' : Text}
    (happend : token ++ after' = c :: cs')
    (hterms : ∀ t ∈ keptTerms terms, t <+: token ++ after' → t <+: token ++ after)
    (hnext : ∀ d ∈ after'.head?, d ∈ after.head? ∨ isWhitespace d = true) :
    Rule terms c cs' kind token after' := by
  rw [h.append_eq, happend] at hterms
  have hnone : matchTerm terms (c :: cs) = none → matchTerm terms (c :: cs') = none := by
    intro hterm
    rw [matchTerm_eq_none_iff] at hterm ⊢
    intro t ht hprefix
    exact hterm t ht (hterms t ht hprefix)
  cases h with
  | special hterm _ =>
    obtain ⟨hmem, _, hmax⟩ := matchTerm_eq_some_iff.mp hterm
    refine .special (matchTerm_eq_some_iff.mpr ⟨hmem, ⟨after', happend⟩, ?_⟩) happend.symm
    intro t ht hprefix
    exact hmax t ht (hterms t ht hprefix)
  | number hterm hn =>
    have hrun : MaximalRun isNumeric (cs.takeWhile isNumeric) after' :=
      .of_after (fun _ => isNumeric_eq_false) hnext
    have hrule := Rule.number (hnone hterm) hn
    rw [List.cons_append, List.cons.injEq] at happend
    rwa [← happend.2, hrun.takeWhile_eq, hrun.dropWhile_eq, happend.2] at hrule
  | word hterm hn ha =>
    have hrun : MaximalRun isAlphanumeric (cs.takeWhile isAlphanumeric) after' :=
      .of_after (fun _ => isAlphanumeric_eq_false) hnext
    have hrule := Rule.word (hnone hterm) hn ha
    rw [List.cons_append, List.cons.injEq] at happend
    rwa [← happend.2, hrun.takeWhile_eq, hrun.dropWhile_eq, happend.2] at hrule
  | symbol hterm hn ha =>
    obtain rfl : after' = cs' := (List.cons.inj happend).2
    exact .symbol (hnone hterm) hn ha

/-- The text behind a token can be cut off anywhere. -/
theorem cut_after (h : Rule terms c cs kind token after) {after' cs' : Text}
    (happend : token ++ after' = c :: cs') (hcut : after' <+: after) :
    Rule terms c cs' kind token after' := by
  obtain ⟨tail, rfl⟩ := hcut
  refine h.of_after happend ?_ ?_
  · intro t _ ht
    rw [← List.append_assoc]
    exact ht.trans (List.prefix_append _ _)
  · intro d hd
    obtain ⟨ds, rfl⟩ := List.head?_eq_some_iff.mp hd
    exact .inl hd

theorem pieces_eq (h : Rule terms c cs kind token after) (hc : isWhitespace c = false) :
    pieces terms (token ++ after) = .token kind token :: pieces terms after := by
  obtain ⟨kind', token', after', hrule, hpieces⟩ := pieces_cons_token terms cs hc
  obtain ⟨rfl, rfl, rfl⟩ := (h.lexeme hc).unique (hrule.lexeme hc)
    (h.append_eq.trans hrule.append_eq.symm)
  rw [h.append_eq, hpieces]

theorem exists_cons (h : Rule terms c cs kind token after) : ∃ tail, token = c :: tail := by
  have happend := h.append_eq
  cases token with
  | nil => exact absurd rfl h.token_ne_nil
  | cons d ds => exact ⟨ds, by rw [(List.cons.inj happend).1]⟩

end Rule

/-! ## Cutting between pieces -/

/-- The two halves of the pieces of a text are the pieces of their own texts. -/
theorem pieces_flatMap_text {terms : Option TermSet} {s : Text} {ps qs : List Piece}
    (h : pieces terms s = ps ++ qs) :
    pieces terms (ps.flatMap Piece.text) = ps ∧ pieces terms (qs.flatMap Piece.text) = qs := by
  induction ps generalizing s with
  | nil =>
    refine ⟨by rw [List.flatMap_nil, pieces], ?_⟩
    rw [List.nil_append] at h
    rw [← h, flatMap_text_pieces]
  | cons p ps ih =>
    cases s with
    | nil =>
      rw [pieces] at h
      cases h
    | cons c cs =>
      by_cases hc : isWhitespace c = true
      · rw [pieces_cons_blank terms cs hc] at h
        obtain ⟨rfl, htail⟩ := List.cons.inj h
        obtain ⟨hfront, hback⟩ := ih htail
        refine ⟨?_, hback⟩
        rw [List.flatMap_cons, Piece.text, List.singleton_append, pieces_cons_blank terms _ hc,
          hfront]
      · rw [Bool.not_eq_true] at hc
        obtain ⟨kind, token, after, hrule, hpieces⟩ := pieces_cons_token terms cs hc
        rw [hpieces, List.cons_append] at h
        obtain ⟨rfl, htail⟩ := List.cons.inj h
        obtain ⟨hfront, hback⟩ := ih htail
        refine ⟨?_, hback⟩
        -- the token is the same in front of the pieces that are kept
        obtain ⟨tail, rfl⟩ := hrule.exists_cons
        have hcut : ps.flatMap Piece.text <+: after := by
          rw [← flatMap_text_pieces terms after, htail, List.flatMap_append]
          exact List.prefix_append _ _
        have hsame := hrule.cut_after (List.cons_append ..) hcut
        rw [List.flatMap_cons, Piece.text, hsame.pieces_eq hc, hfront]

/-- A token on its own is one piece. -/
theorem pieces_of_token_mem {terms : Option TermSet} {s : Text} {kind : Token.Kind} {token : Text}
    (h : Piece.token kind token ∈ pieces terms s) : pieces terms token = [.token kind token] := by
  obtain ⟨front, back, hpieces⟩ := List.append_of_mem h
  have hback := (pieces_flatMap_text hpieces).2
  rw [← List.singleton_append] at hback
  have htoken := (pieces_flatMap_text hback).1
  rw [List.flatMap_singleton] at htoken
  exact htoken

/-! ## Pieces in front of a separator -/

/-- No term of the set has a separator in it. -/
def Unspaced (terms : Option TermSet) : Prop :=
  ∀ t ∈ keptTerms terms, ∀ c ∈ t, isWhitespace c = false

theorem unspaced_iff {terms : Option TermSet} :
    Unspaced terms ↔ (keptTerms terms).all (List.all · (!isWhitespace ·)) = true := by
  simp [Unspaced]

instance (terms : Option TermSet) : Decidable (Unspaced terms) :=
  decidable_of_iff _ unspaced_iff.symm

/-- A part without separators does not reach beyond one. -/
theorem prefix_of_prefix_append {t s after : Text} (ht : ∀ c ∈ t, isWhitespace c = false)
    (hafter : ∀ c ∈ after.head?, isWhitespace c = true) (h : t <+: s ++ after) : t <+: s := by
  obtain ⟨tail, happend⟩ := h
  rcases List.append_eq_append_iff.mp happend with ⟨m, hs, _⟩ | ⟨m, rfl, hm⟩
  · exact ⟨m, hs.symm⟩
  · cases m with
    | nil => simp
    | cons c m =>
      have hblank := hafter c (by rw [hm]; rfl)
      rw [ht c (by simp)] at hblank
      cases hblank

theorem Rule.append_after {terms : Option TermSet} {c : Char} {cs : Text} {kind : Token.Kind}
    {token rest after : Text} (h : Rule terms c cs kind token rest) (hterms : Unspaced terms)
    (hafter : ∀ c ∈ after.head?, isWhitespace c = true) :
    Rule terms c (cs ++ after) kind token (rest ++ after) := by
  have happend : token ++ (rest ++ after) = c :: (cs ++ after) := by
    rw [← List.append_assoc, h.append_eq, List.cons_append]
  refine h.of_after happend ?_ ?_
  · intro t ht hmatch
    rw [← List.append_assoc] at hmatch
    exact prefix_of_prefix_append (hterms t ht) hafter hmatch
  · intro d hd
    cases rest with
    | nil => exact .inr (hafter d hd)
    | cons x xs => exact .inl hd

theorem pieces_append {terms : Option TermSet} (hterms : Unspaced terms) (s : Text) {after : Text}
    (hafter : ∀ c ∈ after.head?, isWhitespace c = true) :
    pieces terms (s ++ after) = pieces terms s ++ pieces terms after := by
  fun_induction pieces terms s with
  | case1 => rfl
  | case2 c cs hc ih => rw [List.cons_append, pieces_cons_blank terms _ hc, ih, List.cons_append]
  | case3 c cs hc ih =>
    rw [Bool.not_eq_true] at hc
    have hrule := (Rule.of_munch terms c cs).append_after hterms hafter
    rw [List.cons_append, ← hrule.append_eq, hrule.pieces_eq hc, ih, List.cons_append]

/-! ## Tokens without their places -/

/-- The text of a piece that is a token. -/
def Piece.word? : Piece → Option Text
  | blank _ => none
  | token _ t => some t

theorem Piece.map_text_placeFrom (pos : Nat) (ps : List Piece) :
    (placeFrom pos ps).map Token.text = ps.filterMap word? := by
  induction ps generalizing pos with
  | nil => rfl
  | cons p ps ih =>
    cases p with
    | blank c => exact ih _
    | token kind t =>
      rw [placeFrom, List.map_cons, ih]
      rfl

theorem tokenize_eq (text : Text) (terms : Option TermSet) :
    tokenize text terms = (pieces terms (fold text)).filterMap Piece.word? :=
  Piece.map_text_placeFrom 0 _

theorem tokenize_nil (terms : Option TermSet) : tokenize [] terms = [] := by
  rw [tokenize_eq, fold_nil, pieces]
  rfl

end TermLexer
