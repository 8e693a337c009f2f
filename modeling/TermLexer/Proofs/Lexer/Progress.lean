import TermLexer.Proofs.Lexer.Safety
import TermLexer.Proofs.Token.Context

/-! # Every pull goes on

A stream says how many bytes of its text are left, and this bounds the tokens that it has still to
give: each of them has a code point of its own that is no separator. A pull that finds a token goes
over this code point, a pull that finds none goes to the end, and no request goes back. So however a
stream came to where it stands, a drain from there ends. -/

namespace TermLexer

open TermLexer.Text TermLexer.Unicode TermLexer.Stream

/-! ## What is to hold -/

/-- The bytes from the offset of a lexer to the end of its text. -/
def Lexer.left (l : Lexer) : Nat := byteSize l.text - l.pos

namespace Stream

/-- Whether a pull found a token. Replies to other requests do not tell. -/
def Reply.found? : Reply → Option Bool
  | text t => some t.isSome
  | span s => some s.isSome
  | token t => some t.isSome
  | done | position _ | bounds _ _ | source _ | terms _ | texts _ | tokens _ | unavailable => none

/-- How many tokens a drain gave. Replies to other requests do not tell. -/
def Reply.count? : Reply → Option Nat
  | texts ts => some ts.length
  | tokens ts => some ts.length
  | done | text _ | span _ | token _ | position _ | bounds _ _ | source _ | terms _
  | unavailable => none

/-- What a reply tells of the bytes that are left after it, if `before` were left with `rest` to
go. -/
structure Reply.Advances (reply : Reply) (rest : Text) (before after : Nat) : Prop where
  le : after ≤ before
  found : reply.found? = some true → ∃ c ∈ rest, isWhitespace c = false ∧
    after + c.utf8Size ≤ before
  ended : reply.found? = some false → after = 0

/-- What holds of a stream whose lexer has `rest` to go, where the tokens `ts` are. -/
structure Progresses (s : Stream) (l : Lexer) (rest : Text) (ts : List Token) : Prop where
  ahead : dropBytes l.text l.pos = some rest
  hint : s.answer .sizeHint = .ok (.bounds 0 l.left, s)
  /-- Every token needs a code point that is no separator. -/
  few : ts.length ≤ rest.countP (!isWhitespace ·)
  fewer : rest.countP (!isWhitespace ·) ≤ l.left
  drained : l.drain = .ok ts
  /-- A drain ends with the first pull that finds no token. -/
  within : ∀ fuel, l.drainWithin fuel = if ts.length < fuel then .ok ts else .error .unfinished
  /-- A pull finds a token as long as there is one. -/
  pulled : ∃ reply next, s.answer .next = .ok (reply, next) ∧ reply.found? = some (!ts.isEmpty)
  /-- A request takes all the tokens or leaves the stream further on. -/
  answers : ∀ request, ∃ reply next, s.answer request = .ok (reply, next) ∧
    match next.lexer? with
    | none => reply.count? = some ts.length
    | some after => reply.Advances rest l.left after.left

end Stream

/-! ## One pull -/

namespace Lexer

theorem left_behind_none (l : Lexer) : (l.behind none).left = 0 := Nat.sub_self _

/-- The tokens that are awaited lie in what a lexer has to go. -/
theorem Awaits.exists_rest {l : Lexer} {ts : List Token} (h : l.Awaits ts) :
    ∃ rest, dropBytes l.text l.pos = some rest ∧
      ts.length ≤ rest.countP (!isWhitespace ·) ∧ rest.countP (!isWhitespace ·) ≤ l.left := by
  obtain ⟨done, rest, htext, hpos, rfl⟩ := h
  refine ⟨rest, ?_, Piece.length_placeFrom_le_countP l.terms _ rest, ?_⟩
  · rw [htext, hpos, dropBytes_append]
  · rw [left, htext, hpos, byteSize_append, Nat.add_sub_cancel_left]
    exact Piece.countP_le_byteSize _ rest

/-- A pull that finds a token goes over the code point with which the token begins. -/
theorem Awaits.exists_passed {l : Lexer} {t : Token} {ts : List Token} (h : l.Awaits (t :: ts))
    {rest : Text} (hrest : dropBytes l.text l.pos = some rest) :
    ∃ c ∈ rest, isWhitespace c = false ∧ (l.behind (some t)).left + c.utf8Size ≤ l.left := by
  cases h.faces with
  | @token terms blanks cs token after c kind done _ hc hrule =>
    obtain rfl : blanks ++ c :: cs = rest := by
      rw [dropBytes_append] at hrest
      exact Option.some.inj hrest
    obtain ⟨tail, rfl⟩ := hrule.exists_cons
    refine ⟨c, by simp, hc, ?_⟩
    have hsplit := congrArg byteSize hrule.append_eq
    simp only [left, behind, Option.elim_some, byteSize_append, byteSize_cons] at hsplit ⊢
    omega

end Lexer

/-! ## One request -/

/-- How many pulls a stream has made that is not spent. -/
def Stage.pulls? : Stage → Option Nat
  | .plain k | .spanned k => some k
  | .spent => none

namespace Script

theorem lexer?_stream (s : Script) (stage : Stage) :
    (s.stream stage).lexer? = stage.pulls?.map s.lexer := by
  cases stage <;> rfl

section

variable (s : Script) {stage : Stage} {k : Nat} (hstage : stage.pulls? = some k)

include hstage

/-- A request takes all the tokens that are left, leaves the stream where it stands, or pulls
once. -/
theorem answer_cases (request : Request) :
    ((s.answer stage request).2.pulls? = none ∧
        (s.answer stage request).1.count? = some (s.tokens.drop k).length) ∨
      ((s.answer stage request).2.pulls? = some k ∧
        (s.answer stage request).1.found? = none) ∨
      ((s.answer stage request).2.pulls? = some (k + 1) ∧
        (s.answer stage request).1.found? = some s.tokens[k]?.isSome) := by
  cases stage with
  | plain =>
    cases hstage
    cases request with
    | collect | intoTokens => exact .inl ⟨rfl, congrArg some (List.length_map _)⟩
    | position | sizeHint | source | terms | intoSpanned => exact .inr (.inl ⟨rfl, rfl⟩)
    | next | nextToken | nextSpan => exact .inr (.inr ⟨rfl, congrArg some Option.isSome_map⟩)
  | spanned =>
    cases hstage
    cases request with
    | collect => exact .inl ⟨rfl, rfl⟩
    | nextToken | nextSpan | position | sizeHint | source | terms | intoTokens | intoSpanned =>
      exact .inr (.inl ⟨rfl, rfl⟩)
    | next => exact .inr (.inr ⟨rfl, rfl⟩)
  | spent => cases hstage

theorem found_next : (s.answer stage .next).1.found? = some (!(s.tokens.drop k).isEmpty) := by
  have hsome : s.tokens[k]?.isSome = !(s.tokens.drop k).isEmpty := by
    rw [← List.head?_drop]
    cases s.tokens.drop k <;> rfl
  rw [← hsome]
  cases stage with
  | plain =>
    cases hstage
    exact congrArg some Option.isSome_map
  | spanned =>
    cases hstage
    rfl
  | spent => cases hstage

theorem answer_sizeHint :
    s.answer stage .sizeHint = (.bounds 0 (s.lexer k).left, stage) := by
  cases stage with
  | plain | spanned =>
    cases hstage
    rfl
  | spent => cases hstage

end

section

variable {s : Script} (h : (s.lexer 0).Awaits s.tokens)

include h

theorem advances_pull {k : Nat} {rest : Text} {reply : Reply}
    (hrest : dropBytes (s.lexer k).text (s.lexer k).pos = some rest)
    (hreply : reply.found? = some s.tokens[k]?.isSome) :
    reply.Advances rest (s.lexer k).left (s.lexer (k + 1)).left := by
  have hawaits := awaits_lexer h k
  have hnext : s.lexer (k + 1) = (s.lexer k).behind s.tokens[k]? := rfl
  rw [hnext]
  cases hk : s.tokens[k]? with
  | none =>
    rw [hk] at hreply
    rw [Lexer.left_behind_none]
    exact ⟨Nat.zero_le _, by simp [hreply], fun _ => rfl⟩
  | some t =>
    obtain ⟨hlt, ht⟩ := List.getElem?_eq_some_iff.mp hk
    rw [hk] at hreply
    rw [List.drop_eq_getElem_cons hlt, ht] at hawaits
    obtain ⟨c, hmem, hsolid, hpassed⟩ := hawaits.exists_passed hrest
    exact ⟨by omega, fun _ => ⟨c, hmem, hsolid, hpassed⟩, by simp [hreply]⟩

theorem answers_advance {stage : Stage} {k : Nat} (hstage : stage.pulls? = some k) {rest : Text}
    (hrest : dropBytes (s.lexer k).text (s.lexer k).pos = some rest) (request : Request) :
    match (s.stream (s.answer stage request).2).lexer? with
    | none => (s.answer stage request).1.count? = some (s.tokens.drop k).length
    | some after => (s.answer stage request).1.Advances rest (s.lexer k).left after.left := by
  rw [lexer?_stream]
  rcases s.answer_cases hstage request with ⟨hnext, hcount⟩ | ⟨hnext, hfound⟩ | ⟨hnext, hfound⟩
  · rw [hnext]
    exact hcount
  · rw [hnext]
    exact ⟨Nat.le_refl _, by simp [hfound], by simp [hfound]⟩
  · rw [hnext]
    exact advances_pull h hrest hfound

theorem progresses (stage : Stage) : ∀ l ∈ (s.stream stage).lexer?,
    ∃ rest ts, (s.stream stage).Progresses l rest ts := by
  intro l hl
  rw [lexer?_stream] at hl
  obtain ⟨k, hstage, rfl⟩ := Option.map_eq_some_iff.mp hl
  have hawaits := awaits_lexer h k
  obtain ⟨rest, hrest, hfew, hfewer⟩ := hawaits.exists_rest
  have hhint := stream_answer h stage .sizeHint
  rw [s.answer_sizeHint hstage] at hhint
  exact ⟨rest, s.tokens.drop k,
    { ahead := hrest
      hint := hhint
      few := hfew
      fewer := hfewer
      drained := hawaits.drain_eq
      within := hawaits.drainWithin_eq
      pulled := ⟨_, _, stream_answer h stage .next, s.found_next hstage⟩
      answers := fun request =>
        ⟨_, _, stream_answer h stage request, answers_advance h hstage hrest request⟩ }⟩

end

end Script

/-- **Wherever requests lead a stream, it goes on and its drain ends**: the bytes that it says are left
bound the tokens to come, every token found takes some of them, and at the end none are left. -/
theorem run_progresses (text : Text) (terms : Option TermSet) (requests : List Request) :
    ∃ answers, (Stream.ofText text terms).run requests = .ok answers ∧
      ∀ s ∈ Stream.ofText text terms :: answers.map Prod.snd, ∀ l ∈ s.lexer?,
        ∃ rest ts, s.Progresses l rest ts := by
  have hprogresses := Script.progresses (Script.awaits_ofText text terms)
  exact ⟨_, Script.run_ofText text terms requests,
    Script.forall_mem_run (s := Script.ofText text terms) hprogresses (.plain 0) requests⟩

/-- The theorem behind the first token of a text, once the stream gives spans: four bytes are left, and
at most two tokens. -/
theorem run_progresses_spanned :
    ∃ rest ts, (Stream.spanned ⟨fold ['A', ' ', 'Σ', '!'], 1, none⟩).Progresses
        ⟨fold ['A', ' ', 'Σ', '!'], 1, none⟩ rest ts ∧
      rest = [' ', 'σ', '!'] ∧ ts.length ≤ 2 ∧
      Lexer.left ⟨fold ['A', ' ', 'Σ', '!'], 1, none⟩ = 4 := by
  have hpos : (Script.ofText ['A', ' ', 'Σ', '!'] none).position 1 = 1 := by decide +kernel
  have hstream : (Script.ofText ['A', ' ', 'Σ', '!'] none).stream (.spanned 1) =
      .spanned ⟨fold ['A', ' ', 'Σ', '!'], 1, none⟩ :=
    congrArg (fun pos => Stream.spanned ⟨fold ['A', ' ', 'Σ', '!'], pos, none⟩) hpos
  have hscript := Script.run_ofText ['A', ' ', 'Σ', '!'] none [.nextSpan, .intoSpanned]
  obtain ⟨answers, hrun, hall⟩ :=
    run_progresses ['A', ' ', 'Σ', '!'] none [.nextSpan, .intoSpanned]
  obtain rfl := Except.ok.inj (hscript.symm.trans hrun)
  have hmem : (Script.ofText ['A', ' ', 'Σ', '!'] none).stream (.spanned 1) ∈
      Stream.ofText ['A', ' ', 'Σ', '!'] none ::
        ((Script.ofText ['A', ' ', 'Σ', '!'] none).run (.plain 0)
          [.nextSpan, .intoSpanned]).map Prod.snd :=
    List.mem_cons_of_mem _ (List.mem_cons_of_mem _ List.mem_cons_self)
  rw [hstream] at hmem
  obtain ⟨rest, ts, hprogress⟩ := hall _ hmem _ rfl
  have hahead : dropBytes (fold ['A', ' ', 'Σ', '!']) 1 = some [' ', 'σ', '!'] := by decide +kernel
  obtain rfl := Option.some.inj (hprogress.ahead.symm.trans hahead)
  exact ⟨_, ts, hprogress, rfl, hprogress.few, by decide +kernel⟩

end TermLexer
