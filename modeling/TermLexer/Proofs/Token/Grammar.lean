import TermLexer.Proofs.Lexer.Trace
import TermLexer.Proofs.Token.Tiling

/-! # The lexical grammar

`Lexeme` states the rules for one token without saying how it is found, and `Segments` states
what a sequence of spans and kinds has to obey over a whole text. The rules leave no choice at a
code point, and a code point that is no separator has to be covered, so a text has exactly one
segmentation. -/

namespace TermLexer

open TermLexer.Text TermLexer.Unicode

/-! ## Rules for one token -/

/-- `run` is as long as it can be in front of `after` with all its code points passing a test. -/
structure MaximalRun (p : Char → Bool) (run after : Text) : Prop where
  passes : ∀ c ∈ run, p c = true
  stops : ∀ c ∈ after.head?, p c = false

/-- What the rules say of a token in front of `after` where the text goes on with `c`. -/
structure Lexeme (terms : Option TermSet) (c : Char) (kind : Token.Kind) (token after : Text) :
    Prop where
  first : (token ++ after).head? = some c
  solid : isWhitespace c = false
  special : kind = .special ↔ ∃ term ∈ keptTerms terms, term <+: token ++ after
  longest : kind = .special → token ∈ keptTerms terms ∧
    ∀ term ∈ keptTerms terms, term <+: token ++ after → byteSize term ≤ byteSize token
  number : kind ≠ .special → (kind = .number ↔ isNumeric c = true)
  digits : kind = .number → MaximalRun isNumeric token after
  word : kind ≠ .special → (kind = .word ↔ isAlphabetic c = true ∧ isNumeric c = false)
  letters : kind = .word → MaximalRun isAlphanumeric token after
  symbol : kind = .symbol → token = [c]

def Event.Obeys (terms : Option TermSet) (s : Text) (e : Event) : Prop :=
  ∃ before token after c, s = before ++ (token ++ after) ∧
    e.1 = ⟨byteSize before, byteSize before + byteSize token⟩ ∧ Lexeme terms c e.2 token after

/-- Events that cut the text into tokens from offset `pos` on. -/
structure SegmentsFrom (terms : Option TermSet) (s : Text) (pos : Nat) (es : List Event) :
    Prop where
  later : ∀ e ∈ es, pos ≤ e.1.start
  ordered : es.Pairwise fun a b => a.1.stop ≤ b.1.start
  obeys : ∀ e ∈ es, e.Obeys terms s
  /-- Outside the spans there are separators only. -/
  outside : ∀ before c after, s = before ++ c :: after → pos ≤ byteSize before →
    (∀ e ∈ es, e.1.contains (byteSize before) = false) → isWhitespace c = true

def Segments (terms : Option TermSet) (s : Text) (es : List Event) : Prop :=
  SegmentsFrom terms s 0 es

/-! ## The rules leave no choice -/

theorem MaximalRun.takeWhile_eq {p : Char → Bool} {run after : Text} (h : MaximalRun p run after) :
    (run ++ after).takeWhile p = run :=
  takeWhile_append h.passes h.stops

theorem MaximalRun.of_cons {p : Char → Bool} {c : Char} (hc : p c = true) (cs : Text) :
    MaximalRun p (c :: cs.takeWhile p) (cs.dropWhile p) where
  passes := List.forall_mem_cons.mpr ⟨hc, forall_mem_takeWhile p cs⟩
  stops := head?_dropWhile_fails p cs

/-- A text begins with at most one token, of one kind. -/
theorem Lexeme.unique {terms : Option TermSet} {c d : Char} {kind kind' : Token.Kind}
    {token token' after after' : Text} (h : Lexeme terms c kind token after)
    (h' : Lexeme terms d kind' token' after') (happend : token ++ after = token' ++ after') :
    kind = kind' ∧ token = token' ∧ after = after' := by
  have hc : c = d := Option.some.inj (h.first.symm.trans (happend ▸ h'.first))
  subst hc
  have hspecial : kind = .special ↔ kind' = .special := by
    rw [h.special, h'.special, happend]
  have hkind : kind = kind' := by
    by_cases hs : kind = .special
    · rw [hs, hspecial.mp hs]
    · have hs' := mt hspecial.mpr hs
      have hn : kind = .number ↔ kind' = .number := (h.number hs).trans (h'.number hs').symm
      have hw : kind = .word ↔ kind' = .word := (h.word hs).trans (h'.word hs').symm
      cases kind <;> cases kind' <;> simp_all
  subst hkind
  have htoken : token = token' := by
    cases kind with
    | special =>
      have hprefix : token <+: token ++ after := ⟨after, rfl⟩
      have hprefix' : token' <+: token ++ after := ⟨after', happend.symm⟩
      obtain ⟨hmem, hmax⟩ := h.longest rfl
      obtain ⟨hmem', hmax'⟩ := h'.longest rfl
      rw [← happend] at hmax'
      exact eq_of_prefix_of_byteSize hprefix hprefix'
        (Nat.le_antisymm (hmax' token hmem hprefix) (hmax token' hmem' hprefix'))
    | number => rw [← (h.digits rfl).takeWhile_eq, happend, (h'.digits rfl).takeWhile_eq]
    | word => rw [← (h.letters rfl).takeWhile_eq, happend, (h'.letters rfl).takeWhile_eq]
    | symbol => rw [h.symbol rfl, h'.symbol rfl]
  subst htoken
  exact ⟨rfl, rfl, List.append_cancel_left happend⟩

/-- The rule that applies recognises a token as the grammar has it. -/
theorem Rule.lexeme {terms : Option TermSet} {c : Char} {cs : Text} {kind : Token.Kind}
    {token after : Text} (h : Rule terms c cs kind token after) (hc : isWhitespace c = false) :
    Lexeme terms c kind token after := by
  have happend := h.append_eq
  have hfirst : (token ++ after).head? = some c := by rw [happend, List.head?_cons]
  have hno : matchTerm terms (c :: cs) = none →
      ¬∃ term ∈ keptTerms terms, term <+: token ++ after := by
    rintro hterm ⟨term, hmem, hprefix⟩
    rw [happend] at hprefix
    exact matchTerm_eq_none_iff.mp hterm term hmem hprefix
  cases h with
  | special hterm _ =>
    obtain ⟨hmem, hprefix, hmax⟩ := matchTerm_eq_some_iff.mp hterm
    rw [← happend] at hprefix hmax
    exact {
      first := hfirst
      solid := hc
      special := iff_of_true rfl ⟨token, hmem, hprefix⟩
      longest := fun _ => ⟨hmem, hmax⟩
      number := by simp
      digits := by simp
      word := by simp
      letters := by simp
      symbol := by simp }
  | number hterm hn =>
    exact {
      first := hfirst
      solid := hc
      special := iff_of_false (by simp) (hno hterm)
      longest := by simp
      number := fun _ => iff_of_true rfl hn
      digits := fun _ => .of_cons hn cs
      word := by simp [hn]
      letters := by simp
      symbol := by simp }
  | word hterm hn ha =>
    have hword : isAlphanumeric c = true := by rw [isAlphanumeric, ha, Bool.true_or]
    exact {
      first := hfirst
      solid := hc
      special := iff_of_false (by simp) (hno hterm)
      longest := by simp
      number := by simp [hn]
      digits := by simp
      word := fun _ => iff_of_true rfl ⟨ha, hn⟩
      letters := fun _ => .of_cons hword cs
      symbol := by simp }
  | symbol hterm hn ha =>
    exact {
      first := hfirst
      solid := hc
      special := iff_of_false (by simp) (hno hterm)
      longest := by simp
      number := by simp [hn]
      digits := by simp
      word := by simp [ha]
      letters := by simp
      symbol := fun _ => rfl }

/-- The grammar has only tokens that a rule recognises. -/
theorem Lexeme.rule {terms : Option TermSet} {c : Char} {kind : Token.Kind} {token after : Text}
    (h : Lexeme terms c kind token after) : ∃ cs, token ++ after = c :: cs ∧
      kind = (munch terms c cs).1 ∧ token = c :: cs.take (munch terms c cs).2 ∧
      after = cs.drop (munch terms c cs).2 := by
  obtain ⟨cs, hcs⟩ := List.head?_eq_some_iff.mp h.first
  have hrule := Rule.of_munch terms c cs
  exact ⟨cs, hcs, h.unique (hrule.lexeme h.solid) (hcs.trans hrule.append_eq.symm)⟩

/-! ## The tokens of a text segment it -/

theorem obeys_of_mem_placeFrom (terms : Option TermSet) (done rest : Text) :
    ∀ t ∈ Piece.placeFrom (byteSize done) (pieces terms rest),
      t.event.Obeys terms (done ++ rest) := by
  fun_induction pieces terms rest generalizing done with
  | case1 => simp [Piece.placeFrom]
  | case2 c cs _ ih =>
    have htail := ih (done ++ [c])
    rw [byteSize_append, List.append_assoc] at htail
    exact htail
  | case3 c cs hc ih =>
    have hrule := Rule.of_munch terms c cs
    rw [Bool.not_eq_true] at hc
    have htail := ih (done ++ (c :: cs.take (munch terms c cs).2))
    rw [byteSize_append, List.append_assoc, hrule.append_eq] at htail
    refine List.forall_mem_cons.mpr ⟨?_, htail⟩
    exact ⟨done, _, _, c, by rw [hrule.append_eq], rfl, hrule.lexeme hc⟩

theorem segments_tokens (terms : Option TermSet) (s : Text) :
    Segments terms s ((tokens terms s).map Token.event) where
  later := fun _ _ => Nat.zero_le _
  ordered := List.pairwise_map.mpr (laid_pieces terms 0 s).pairwise
  obeys := by
    intro e he
    obtain ⟨t, ht, rfl⟩ := List.mem_map.mp he
    exact obeys_of_mem_placeFrom terms [] s t ht
  outside := by
    intro before c after hs _ hfree
    by_contra hc
    rw [Bool.not_eq_true] at hc
    have hpos := c.utf8Size_pos
    obtain ⟨t, ht, hcontains⟩ := (laid_pieces terms 0 s).exists_contains hs hc
      (n := byteSize before) (by omega) (by omega)
    have hno : t.span.contains (byteSize before) = false :=
      hfree t.event (List.mem_map_of_mem ht)
    rw [hno] at hcontains
    cases hcontains

/-! ## No other events do -/

namespace SegmentsFrom

variable {terms : Option TermSet} {done rest : Text} {es : List Event}

/-- An event lies in the part of the text that is still to be cut. -/
theorem exists_parts (h : SegmentsFrom terms (done ++ rest) (byteSize done) es) :
    ∀ e ∈ es, ∃ gap token after c, rest = gap ++ (token ++ after) ∧
      e.1 = ⟨byteSize (done ++ gap), byteSize (done ++ gap) + byteSize token⟩ ∧
      Lexeme terms c e.2 token after := by
  intro e he
  obtain ⟨before, token, after, c, hs, hspan, hlexeme⟩ := h.obeys e he
  have hle := h.later e he
  rw [hspan] at hle
  obtain ⟨gap, rfl, hrest⟩ := exists_append_of_byteSize_le hs hle
  exact ⟨gap, token, after, c, hrest, hspan, hlexeme⟩

theorem start_lt_stop (h : SegmentsFrom terms (done ++ rest) (byteSize done) es) {e : Event}
    (he : e ∈ es) : e.1.start < e.1.stop := by
  obtain ⟨gap, token, after, c, _, hspan, hlexeme⟩ := h.exists_parts e he
  obtain ⟨cs, _, _, htoken, _⟩ := hlexeme.rule
  have hpos := c.utf8Size_pos
  rw [hspan, htoken]
  simp only [byteSize_cons]
  omega

theorem nil (h : SegmentsFrom terms (done ++ []) (byteSize done) es) : es = [] := by
  rw [List.eq_nil_iff_forall_not_mem]
  intro e he
  obtain ⟨gap, token, after, c, hrest, _, hlexeme⟩ := h.exists_parts e he
  have hfirst := hlexeme.first
  rw [(List.append_eq_nil_iff.mp hrest.symm).2] at hfirst
  cases hfirst

/-- No token begins at a separator. -/
theorem blank {c : Char} {cs : Text} (hc : isWhitespace c = true)
    (h : SegmentsFrom terms (done ++ c :: cs) (byteSize done) es) :
    SegmentsFrom terms ((done ++ [c]) ++ cs) (byteSize (done ++ [c])) es := by
  have hs : (done ++ [c]) ++ cs = done ++ c :: cs := List.append_cons done c cs |>.symm
  have hsize : byteSize done ≤ byteSize (done ++ [c]) := by simp
  rw [hs]
  refine ⟨?_, h.ordered, h.obeys, fun before d after hd hle => h.outside before d after hd
    (Nat.le_trans hsize hle)⟩
  intro e he
  obtain ⟨gap, token, after, d, hrest, hspan, hlexeme⟩ := h.exists_parts e he
  cases gap with
  | nil =>
    have hfirst := hlexeme.first
    rw [List.nil_append] at hrest
    rw [← hrest, List.head?_cons] at hfirst
    have hsolid := hlexeme.solid
    rw [← Option.some.inj hfirst, hc] at hsolid
    cases hsolid
  | cons x gap =>
    obtain ⟨rfl, _⟩ := List.cons.inj hrest
    rw [hspan]
    simp only [byteSize_append, byteSize_cons, byteSize_nil]
    omega

/-- Where the text goes on with a code point that is no separator, the first event is the token
there. -/
theorem token {c : Char} {cs : Text} (hc : isWhitespace c = false)
    (h : SegmentsFrom terms (done ++ c :: cs) (byteSize done) es) {kind : Token.Kind}
    {token after : Text} (hrule : Rule terms c cs kind token after) :
    ∃ es', es = (⟨byteSize done, byteSize done + byteSize token⟩, kind) :: es' ∧
      SegmentsFrom terms ((done ++ token) ++ after) (byteSize (done ++ token)) es' := by
  -- an event covers the code point, and it begins there
  obtain ⟨e, he, hcontains⟩ : ∃ e ∈ es, e.1.contains (byteSize done) = true := by
    by_contra hnone
    have hblank := h.outside done c cs rfl (Nat.le_refl _) fun e he =>
      Bool.eq_false_iff.mpr fun hcontains => hnone ⟨e, he, hcontains⟩
    rw [hc] at hblank
    cases hblank
  have hstart : e.1.start = byteSize done :=
    Nat.le_antisymm (Span.contains_eq_true.mp hcontains).1 (h.later e he)
  have hevent : e = (⟨byteSize done, byteSize done + byteSize token⟩, kind) := by
    obtain ⟨gap, token', after', d, hrest, hspan, hlexeme⟩ := h.exists_parts e he
    have hgap : gap = [] := by
      rw [hspan] at hstart
      simp only [byteSize_append] at hstart
      exact byteSize_eq_zero.mp (by omega)
    subst hgap
    rw [List.nil_append] at hrest
    obtain ⟨hkind, htoken, _⟩ :=
      hlexeme.unique (hrule.lexeme hc) (hrest.symm.trans hrule.append_eq.symm)
    rw [List.append_nil, htoken] at hspan
    exact Prod.ext hspan hkind
  -- it is the first, for an event before it would end where it begins
  cases es with
  | nil => cases he
  | cons e₀ es' =>
    obtain ⟨hbefore, hordered⟩ := List.pairwise_cons.mp h.ordered
    have hhead : e = e₀ := by
      rcases List.mem_cons.mp he with rfl | he'
      · rfl
      · have hlt := h.start_lt_stop (List.mem_cons_self (a := e₀))
        have hle := h.later e₀ List.mem_cons_self
        have hstop := hbefore e he'
        omega
    subst hhead
    have hstop : e.1.stop = byteSize (done ++ token) := by rw [hevent, byteSize_append]
    refine ⟨es', by rw [← hevent], ?_⟩
    rw [List.append_assoc, hrule.append_eq, ← hstop]
    refine ⟨hbefore, hordered, fun e' he' => h.obeys e' (List.mem_cons_of_mem _ he'), ?_⟩
    intro before d after' hd hle hfree
    have hsize := h.start_lt_stop he
    refine h.outside before d after' hd (by omega) (List.forall_mem_cons.mpr ⟨?_, hfree⟩)
    rw [Bool.eq_false_iff, Ne, Span.contains_eq_true]
    omega

theorem eq_tokens (done rest : Text) (es : List Event)
    (h : SegmentsFrom terms (done ++ rest) (byteSize done) es) :
    es = (Piece.placeFrom (byteSize done) (pieces terms rest)).map Token.event := by
  fun_induction pieces terms rest generalizing done es with
  | case1 => exact h.nil
  | case2 c cs hc ih =>
    have htail := ih _ _ (h.blank hc)
    rw [byteSize_append] at htail
    exact htail
  | case3 c cs hc ih =>
    rw [Bool.not_eq_true] at hc
    obtain ⟨es', rfl, htail⟩ := h.token hc (Rule.of_munch terms c cs)
    rw [ih _ _ htail, byteSize_append]
    rfl

end SegmentsFrom

/-- **A drain gives the one sequence of spans and kinds that the lexical grammar allows**, and that
is what a trace of the pulls shows. -/
theorem segments_iff_drain (text : Text) (terms : Option TermSet) :
    ∃ ts, (Lexer.ofText text terms).drain = .ok ts ∧
      (∀ recorder : Log.Recorder, recorder.Lawful → ∀ n, ∃ records,
        Log.record recorder .trace [⟨text, terms⟩] (List.replicate n 0) = .ok records ∧
          records.filterMap Log.Record.event? = (ts.take n).map Token.event) ∧
      ∀ es, Segments terms (fold text) es ↔ es = ts.map Token.event := by
  refine ⟨tokens terms (fold text), Lexer.drain_ofText text terms, ?_, ?_⟩
  · intro recorder hrecorder
    exact Log.events_record hrecorder text terms
  · intro es
    constructor
    · intro h
      exact SegmentsFrom.eq_tokens [] (fold text) es h
    · intro h
      rw [h]
      exact segments_tokens terms (fold text)

/-- The theorem at a numeral that is a letter as well, before a term that begins like a word. -/
theorem segments_iff_drain_numeral : Log.Recorder.plain.Lawful ∧
    (∃ records, Log.record .plain .trace [⟨['\u2167', 'C', '#'], some (.ofList [['c', '#']])⟩]
        (List.replicate 2 0) = .ok records ∧
      records.filterMap Log.Record.event? = [(⟨0, 3⟩, .number), (⟨3, 5⟩, .special)]) ∧
    Segments (some (.ofList [['c', '#']])) (fold ['\u2167', 'C', '#'])
      [(⟨0, 3⟩, .number), (⟨3, 5⟩, .special)] := by
  obtain ⟨ts, hdrain, htrace, hsegments⟩ :=
    segments_iff_drain ['\u2167', 'C', '#'] (some (.ofList [['c', '#']]))
  have hevents :
      (tokens (some (.ofList [['c', '#']])) (fold ['\u2167', 'C', '#'])).map Token.event =
        [(⟨0, 3⟩, .number), (⟨3, 5⟩, .special)] := by
    decide +kernel
  rw [← Lexer.eq_tokens_of_drain hdrain] at hevents
  obtain ⟨records, hrecords, hshown⟩ := htrace .plain Log.Recorder.plain_lawful 2
  rw [List.map_take, hevents] at hshown
  exact ⟨Log.Recorder.plain_lawful, ⟨records, hrecords, hshown⟩, (hsegments _).mpr hevents.symm⟩

end TermLexer
