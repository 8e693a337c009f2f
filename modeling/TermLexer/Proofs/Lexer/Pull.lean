import TermLexer.Lexer.Stream
import TermLexer.Proofs.Token.Rule

/-! # What a pull gives

A lexer goes through its text by offsets, `pieces` goes through it by its parts. Between the two
stands one invariant: the offset of a lexer is the size of a part `done` of its text, and the tokens
it has still to give are those of the rest, placed behind `done`. A pull takes the first of these
tokens and keeps the invariant, so draining gives them all. -/

namespace TermLexer

open TermLexer.Text TermLexer.Unicode

namespace Piece

/-- Separators at the front of a text only move its tokens. -/
theorem placeFrom_blanks (terms : Option TermSet) (pos : Nat) {blanks : Text} (rest : Text)
    (h : ∀ b ∈ blanks, isWhitespace b = true) :
    placeFrom pos (pieces terms (blanks ++ rest)) =
      placeFrom (pos + byteSize blanks) (pieces terms rest) := by
  induction blanks generalizing pos with
  | nil => rfl
  | cons b bs ih =>
    have hb := pieces_cons_blank terms (bs ++ rest) (h b List.mem_cons_self)
    rw [List.cons_append, hb, placeFrom, ih _ fun x hx => h x (List.mem_cons_of_mem _ hx),
      byteSize_cons, Nat.add_assoc]

/-- Every token has a code point of its own that is no separator. -/
theorem length_placeFrom_le_countP (terms : Option TermSet) (pos : Nat) (cs : Text) :
    (placeFrom pos (pieces terms cs)).length ≤ cs.countP (!isWhitespace ·) := by
  fun_induction pieces terms cs generalizing pos with
  | case1 => exact Nat.zero_le _
  | case2 c cs hc ih =>
    rw [placeFrom, List.countP_cons_of_neg (by simp [hc])]
    exact ih _
  | case3 c cs hc ih =>
    have hcount : (c :: cs).countP (!isWhitespace ·) =
        (c :: cs.take (munch terms c cs).2).countP (!isWhitespace ·) +
          (cs.drop (munch terms c cs).2).countP (!isWhitespace ·) := by
      rw [← List.countP_append, (Rule.of_munch terms c cs).append_eq]
    have htail := ih (pos + byteSize (c :: cs.take (munch terms c cs).2))
    rw [List.countP_cons_of_pos (l := cs.take _) (by simp [hc])] at hcount
    rw [placeFrom, List.length_cons]
    omega

theorem countP_le_byteSize (p : Char → Bool) (cs : Text) : cs.countP p ≤ byteSize cs :=
  List.countP_le_length.trans (length_le_byteSize cs)

end Piece

namespace Lexer

/-! ## Scanning -/

/-- Scanning moves a cursor over the token of the rule that applies. -/
theorem scan_of_rule {terms : Option TermSet} {c : Char} {cs : Text} {kind : Token.Kind}
    {token after : Text} (h : Rule terms c cs kind token after) (done : Text) :
    scan terms ⟨done ++ c :: cs, byteSize done⟩ =
      .ok (kind, ⟨done ++ c :: cs, byteSize done + byteSize token⟩) := by
  have hahead := Cursor.rest_append done (c :: cs)
  have hlookup := lookupTerm_eq terms (c :: cs)
  unfold scan
  rw [hahead, Fault.ok_bind, hlookup, Fault.ok_bind]
  cases h with
  | special hterm happend =>
    rw [hterm, happend]
    simp only [Cursor.advanceBytes_append]
    rfl
  | number hterm hn =>
    rw [hterm]
    simp only [List.head?_cons, Option.any_some, hn, if_true, Cursor.eatWhile_append,
      Fault.ok_bind, List.takeWhile_cons_of_pos]
    rfl
  | word hterm hn ha =>
    have hword : isAlphanumeric c = true := by
      rw [isAlphanumeric, ha, Bool.true_or]
    rw [hterm]
    simp only [List.head?_cons, Option.any_some, hn, ha, if_true, Bool.false_eq_true, if_false,
      Cursor.eatWhile_append, Fault.ok_bind, List.takeWhile_cons_of_pos hword]
    rfl
  | symbol hterm hn ha =>
    rw [hterm]
    simp only [List.head?_cons, Option.any_some, hn, ha, Bool.false_eq_true, if_false,
      Cursor.take_append, Fault.ok_bind]
    rfl

/-! ## Pulling -/

theorem pull_end (terms : Option TermSet) (done blanks : Text)
    (hblanks : ∀ b ∈ blanks, isWhitespace b = true) :
    pull ⟨done ++ blanks, byteSize done, terms⟩ =
      .ok (none, ⟨done ++ blanks, byteSize (done ++ blanks), terms⟩) := by
  have hskip := Cursor.eatWhitespace_append done blanks [] hblanks (by simp)
  have hend : Cursor.isEnd ⟨done ++ blanks, byteSize (done ++ blanks)⟩ = true := by
    simp [Cursor.isEnd]
  rw [List.append_nil] at hskip
  simp only [pull, Fault.ok_bind, Cursor.resume_append, hskip, hend, if_true]
  rfl

theorem pull_token {terms : Option TermSet} {c : Char} {cs : Text} {kind : Token.Kind}
    {token after : Text} (h : Rule terms c cs kind token after) (done blanks : Text)
    (hblanks : ∀ b ∈ blanks, isWhitespace b = true) (hc : isWhitespace c = false) :
    pull ⟨done ++ (blanks ++ c :: cs), byteSize done, terms⟩ =
      .ok (some ⟨kind, ⟨byteSize (done ++ blanks), byteSize (done ++ blanks) + byteSize token⟩, token⟩,
        ⟨done ++ (blanks ++ c :: cs), byteSize (done ++ blanks) + byteSize token, terms⟩) := by
  have hskip := Cursor.eatWhitespace_append done blanks (c :: cs) hblanks (by simpa using hc)
  have hscan := scan_of_rule h (done ++ blanks)
  have hslice := slice_append (done ++ blanks) token after
  have hend : Cursor.isEnd ⟨done ++ (blanks ++ c :: cs), byteSize (done ++ blanks)⟩ = false := by
    have hpos := c.utf8Size_pos
    simp only [Cursor.isEnd, byteSize_append, byteSize_cons, decide_eq_false_iff_not]
    omega
  rw [h.append_eq, List.append_assoc] at hslice
  rw [List.append_assoc] at hscan
  simp only [pull, Fault.ok_bind, Cursor.resume_append, hskip, hend, hscan, hslice,
    Bool.false_eq_true, if_false]
  rfl

/-- A text falls into separators and a rest that begins with none. -/
theorem exists_blanks (s : Text) : ∃ blanks rest, s = blanks ++ rest ∧
    (∀ b ∈ blanks, isWhitespace b = true) ∧ ∀ c ∈ rest.head?, isWhitespace c = false :=
  ⟨s.takeWhile isWhitespace, s.dropWhile isWhitespace, List.takeWhile_append_dropWhile.symm,
    forall_mem_takeWhile isWhitespace s, head?_dropWhile_fails isWhitespace s⟩

/-! ## The invariant -/

/-- The tokens that a lexer has still to give. -/
def Awaits (l : Lexer) (ts : List Token) : Prop :=
  ∃ done rest, l.text = done ++ rest ∧ l.pos = byteSize done ∧
    Piece.placeFrom (byteSize done) (pieces l.terms rest) = ts

/-- The lexer behind a token, or at the end of its text if there is none. -/
def behind (l : Lexer) (t : Option Token) : Lexer :=
  { l with pos := t.elim (byteSize l.text) (·.span.stop) }

theorem awaits_ofText (text : Text) (terms : Option TermSet) :
    Awaits (ofText text terms) (tokens terms (fold text)) :=
  ⟨[], fold text, rfl, rfl, rfl⟩

/-- What stands in front of a lexer: separators up to the end of its text, or separators and then a
token. -/
inductive Faces : Lexer → List Token → Prop
  | ending {terms : Option TermSet} {blanks : Text} (done : Text) :
      (∀ b ∈ blanks, isWhitespace b = true) → Faces ⟨done ++ blanks, byteSize done, terms⟩ []
  | token {terms : Option TermSet} {blanks cs token after : Text} {c : Char} {kind : Token.Kind}
      (done : Text) : (∀ b ∈ blanks, isWhitespace b = true) → isWhitespace c = false →
      Rule terms c cs kind token after →
      Faces ⟨done ++ (blanks ++ c :: cs), byteSize done, terms⟩
        (⟨kind, ⟨byteSize (done ++ blanks), byteSize (done ++ blanks) + byteSize token⟩, token⟩ ::
          Piece.placeFrom (byteSize (done ++ blanks) + byteSize token) (pieces terms after))

theorem Awaits.faces {l : Lexer} {ts : List Token} (h : l.Awaits ts) : Faces l ts := by
  obtain ⟨text, pos, terms⟩ := l
  obtain ⟨done, s, htext, hpos, hts⟩ := h
  obtain ⟨blanks, rest, rfl, hblanks, hrest⟩ := exists_blanks s
  simp only at htext hpos hts
  subst htext hpos
  rw [Piece.placeFrom_blanks terms _ rest hblanks, ← byteSize_append] at hts
  cases rest with
  | nil =>
    rw [pieces, Piece.placeFrom] at hts
    subst hts
    rw [List.append_nil]
    exact .ending done hblanks
  | cons c cs =>
    have hc := hrest c rfl
    obtain ⟨kind, token, after, hrule, hpieces⟩ := pieces_cons_token terms cs hc
    rw [hpieces, Piece.placeFrom] at hts
    subst hts
    exact .token done hblanks hc hrule

/-- A pull gives the first token that is awaited, and after it the others are. -/
theorem Awaits.pull_eq {l : Lexer} {ts : List Token} (h : l.Awaits ts) :
    l.pull = .ok (ts.head?, l.behind ts.head?) ∧ (l.behind ts.head?).Awaits ts.tail := by
  cases h.faces with
  | @ending terms blanks done hblanks =>
    refine ⟨pull_end terms done blanks hblanks, done ++ blanks, [], (List.append_nil _).symm, rfl, ?_⟩
    rw [pieces, Piece.placeFrom]
    rfl
  | @token terms blanks cs token after c kind done hblanks hc hrule =>
    refine ⟨pull_token hrule done blanks hblanks hc, done ++ blanks ++ token, after, ?_, ?_, ?_⟩
    · simp only [behind, List.append_assoc, hrule.append_eq]
    · simp only [behind, List.head?_cons, Option.elim_some, byteSize_append]
    · rw [byteSize_append (done ++ blanks) token]
      rfl

/-- A drain makes one pull more than there are tokens. -/
theorem Awaits.drainWithin_eq {l : Lexer} {ts : List Token} (h : l.Awaits ts) (fuel : Nat) :
    drainWithin fuel l = if ts.length < fuel then .ok ts else .error .unfinished := by
  induction fuel generalizing l ts with
  | zero => rfl
  | succ fuel ih =>
    obtain ⟨hpull, hafter⟩ := h.pull_eq
    cases ts with
    | nil =>
      simp only [drainWithin, hpull, Fault.ok_bind]
      rfl
    | cons t ts =>
      have htail : drainWithin fuel (l.behind (some t)) =
          if ts.length < fuel then .ok ts else .error .unfinished := ih hafter
      simp only [drainWithin, hpull, Fault.ok_bind, List.head?_cons, htail]
      by_cases hfuel : ts.length < fuel
      · have hlonger : (t :: ts).length < fuel + 1 := Nat.succ_lt_succ hfuel
        rw [if_pos hfuel, if_pos hlonger]
        rfl
      · have hlonger : ¬(t :: ts).length < fuel + 1 := mt Nat.lt_of_succ_lt_succ hfuel
        rw [if_neg hfuel, if_neg hlonger]
        rfl

theorem Awaits.remaining_eq {l : Lexer} {ts : List Token} (h : l.Awaits ts) :
    l.remaining = .ok (byteSize l.text - l.pos) ∧ ts.length ≤ byteSize l.text - l.pos := by
  obtain ⟨done, rest, htext, hpos, hts⟩ := h
  have hcount := Piece.length_placeFrom_le_countP l.terms (byteSize done) rest
  have hlength := hcount.trans (Piece.countP_le_byteSize _ rest)
  have hsize : byteSize l.text = byteSize done + byteSize rest := by
    rw [htext, byteSize_append]
  rw [hts] at hlength
  exact ⟨distance_of_le (by omega), by omega⟩

theorem Awaits.drain_eq {l : Lexer} {ts : List Token} (h : l.Awaits ts) : l.drain = .ok ts := by
  obtain ⟨hremaining, hlength⟩ := h.remaining_eq
  simp only [drain, hremaining, Fault.ok_bind]
  rw [h.drainWithin_eq, if_pos (Nat.lt_succ_of_le hlength)]

theorem drain_ofText (text : Text) (terms : Option TermSet) :
    (ofText text terms).drain = .ok (tokens terms (fold text)) :=
  (awaits_ofText text terms).drain_eq

theorem eq_tokens_of_drain {text : Text} {terms : Option TermSet} {ts : List Token}
    (h : (ofText text terms).drain = .ok ts) : ts = tokens terms (fold text) :=
  Except.ok.inj (h.symm.trans (drain_ofText text terms))

end Lexer

/-- A drained lexer over the text has given tokens with these texts. -/
def Emits (text : Text) (terms : Option TermSet) (ts : List Text) : Prop :=
  ∃ drained, (Lexer.ofText text terms).drain = .ok drained ∧ drained.map Token.text = ts

/-- A drain does not fail, and what it emits is told by the pieces of the text. -/
theorem emits_iff {text : Text} {terms : Option TermSet} {ts : List Text} :
    Emits text terms ts ↔ tokenize text terms = ts := by
  constructor
  · rintro ⟨drained, hdrain, rfl⟩
    rw [Lexer.eq_tokens_of_drain hdrain]
    rfl
  · rintro rfl
    exact ⟨_, Lexer.drain_ofText text terms, rfl⟩

/-- All tokens of a text with their spans. -/
theorem Stream.run_intoSpanned_collect (text : Text) (terms : Option TermSet) :
    (ofText text terms).run [.intoSpanned, .collect] =
      .ok [(.done, .spanned (.ofText text terms)), (.tokens (tokens terms (fold text)), .spent)] := by
  have hspanned : (ofText text terms).answer .intoSpanned =
      .ok (.done, .spanned (.ofText text terms)) := rfl
  have hcollect : (spanned (.ofText text terms)).answer .collect =
      .ok (.tokens (tokens terms (fold text)), .spent) := by
    rw [answer, answerSpanned, Lexer.drain_ofText]
    rfl
  exact run_cons hspanned (run_cons hcollect rfl)

end TermLexer
