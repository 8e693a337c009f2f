import TermLexer.Proofs.Lexer.Pull

/-! # Streams follow a script

A script knows all tokens of a stream beforehand and answers every request from their list, by the
number of pulls made so far. A stream finds its tokens one at a time and keeps an offset only. The
two give the same answers to every sequence of requests, however pulls and observations are mixed
and however often a stream is asked beyond its end. -/

namespace TermLexer

open TermLexer.Text TermLexer.Stream

/-- The text, the special terms and all tokens of a stream. -/
structure Script where
  text : Text
  terms : Option TermSet
  tokens : List Token

/-- How many pulls a stream has made, and what it gives. -/
inductive Stage where
  | plain (pulls : Nat)
  | spanned (pulls : Nat)
  | spent

namespace Script

/-- The offset after a number of pulls: the end of the last token pulled, or the end of the text
once there was none. -/
def position (s : Script) : Nat → Nat
  | 0 => 0
  | k + 1 => s.tokens[k]?.elim (byteSize s.text) (·.span.stop)

def answerPlain (s : Script) (k : Nat) : Request → Reply × Stage
  | .next | .nextToken => (.text (s.tokens[k]?.map Token.text), .plain (k + 1))
  | .nextSpan => (.span (s.tokens[k]?.map Token.span), .plain (k + 1))
  | .position => (.position (s.position k), .plain k)
  | .sizeHint => (.bounds 0 (byteSize s.text - s.position k), .plain k)
  | .source => (.source s.text, .plain k)
  | .terms => (.terms (s.terms.map TermSet.toList), .plain k)
  | .collect | .intoTokens => (.texts ((s.tokens.drop k).map Token.text), .spent)
  | .intoSpanned => (.done, .spanned k)

def answerSpanned (s : Script) (k : Nat) : Request → Reply × Stage
  | .next => (.token s.tokens[k]?, .spanned (k + 1))
  | .sizeHint => (.bounds 0 (byteSize s.text - s.position k), .spanned k)
  | .collect => (.tokens (s.tokens.drop k), .spent)
  | .nextToken | .nextSpan | .position | .source | .terms | .intoTokens | .intoSpanned =>
    (.unavailable, .spanned k)

def answer (s : Script) : Stage → Request → Reply × Stage
  | .plain k, request => s.answerPlain k request
  | .spanned k, request => s.answerSpanned k request
  | .spent, _ => (.unavailable, .spent)

def lexer (s : Script) (k : Nat) : Lexer := ⟨s.text, s.position k, s.terms⟩

def stream (s : Script) : Stage → Stream
  | .plain k => .plain (s.lexer k)
  | .spanned k => .spanned (s.lexer k)
  | .spent => .spent

def run (s : Script) (stage : Stage) : List Request → List (Reply × Stream)
  | [] => []
  | request :: requests =>
    let (reply, next) := s.answer stage request
    (reply, s.stream next) :: s.run next requests

def ofText (text : Text) (terms : Option TermSet) : Script :=
  ⟨fold text, terms, TermLexer.tokens terms (fold text)⟩

/-! ## One pull -/

/-- After `k` pulls the tokens from the `k`-th on are awaited. -/
theorem awaits_lexer {s : Script} (h : (s.lexer 0).Awaits s.tokens) (k : Nat) :
    (s.lexer k).Awaits (s.tokens.drop k) := by
  induction k with
  | zero => exact h
  | succ k ih =>
    have hafter := ih.pull_eq.2
    rw [List.head?_drop, List.tail_drop] at hafter
    exact hafter

theorem pull_lexer {s : Script} (h : (s.lexer 0).Awaits s.tokens) (k : Nat) :
    (s.lexer k).pull = .ok (s.tokens[k]?, s.lexer (k + 1)) := by
  have hpull := (awaits_lexer h k).pull_eq.1
  rw [List.head?_drop] at hpull
  exact hpull

/-! ## One request -/

theorem stream_answer_plain {s : Script} (h : (s.lexer 0).Awaits s.tokens) (k : Nat)
    (request : Request) : (s.stream (.plain k)).answer request =
      .ok ((s.answerPlain k request).1, s.stream (s.answerPlain k request).2) := by
  have hpull := pull_lexer h k
  have hdrain := (awaits_lexer h k).drain_eq
  have hremaining := (awaits_lexer h k).remaining_eq.1
  show Stream.answerPlain (s.lexer k) request = _
  cases request with
  | next | nextToken | nextSpan =>
    simp only [Stream.answerPlain, hpull, Fault.ok_bind]
    rfl
  | collect | intoTokens =>
    simp only [Stream.answerPlain, hdrain, Fault.ok_bind]
    rfl
  | sizeHint =>
    simp only [Stream.answerPlain, hremaining, Fault.ok_bind]
    rfl
  | position | source | terms | intoSpanned => rfl

theorem stream_answer_spanned {s : Script} (h : (s.lexer 0).Awaits s.tokens) (k : Nat)
    (request : Request) : (s.stream (.spanned k)).answer request =
      .ok ((s.answerSpanned k request).1, s.stream (s.answerSpanned k request).2) := by
  have hpull := pull_lexer h k
  have hdrain := (awaits_lexer h k).drain_eq
  have hremaining := (awaits_lexer h k).remaining_eq.1
  show Stream.answerSpanned (s.lexer k) request = _
  cases request with
  | next =>
    simp only [Stream.answerSpanned, hpull, Fault.ok_bind]
    rfl
  | collect =>
    simp only [Stream.answerSpanned, hdrain, Fault.ok_bind]
    rfl
  | sizeHint =>
    simp only [Stream.answerSpanned, hremaining, Fault.ok_bind]
    rfl
  | nextToken | nextSpan | position | source | terms | intoTokens | intoSpanned => rfl

theorem stream_answer {s : Script} (h : (s.lexer 0).Awaits s.tokens) (stage : Stage)
    (request : Request) : (s.stream stage).answer request =
      .ok ((s.answer stage request).1, s.stream (s.answer stage request).2) := by
  cases stage with
  | plain k => exact stream_answer_plain h k request
  | spanned k => exact stream_answer_spanned h k request
  | spent => rfl

/-! ## Any number of requests -/

theorem stream_run {s : Script} (h : (s.lexer 0).Awaits s.tokens) (stage : Stage)
    (requests : List Request) : (s.stream stage).run requests = .ok (s.run stage requests) := by
  induction requests generalizing stage with
  | nil => rfl
  | cons request requests ih => exact Stream.run_cons (stream_answer h stage request) (ih _)

theorem awaits_ofText (text : Text) (terms : Option TermSet) :
    ((ofText text terms).lexer 0).Awaits (ofText text terms).tokens :=
  Lexer.awaits_ofText text terms

theorem run_ofText (text : Text) (terms : Option TermSet) (requests : List Request) :
    (Stream.ofText text terms).run requests = .ok ((ofText text terms).run (.plain 0) requests) :=
  stream_run (awaits_ofText text terms) (.plain 0) requests

/-- A run of the script only goes through streams of the script. -/
theorem forall_mem_run {s : Script} {p : Stream → Prop} (h : ∀ stage, p (s.stream stage))
    (stage : Stage) (requests : List Request) :
    ∀ t ∈ s.stream stage :: (s.run stage requests).map Prod.snd, p t := by
  induction requests generalizing stage with
  | nil => exact List.forall_mem_singleton.mpr (h stage)
  | cons request requests ih => exact List.forall_mem_cons.mpr ⟨h stage, ih _⟩

end Script

/-- **Every run of a stream is the run of the script made of the tokens it gives with their
spans**, whose texts are what tokenizing gives. -/
theorem run_follows_script (text : Text) (terms : Option TermSet) :
    ∃ ts, (Stream.ofText text terms).run [.intoSpanned, .collect] =
        .ok [(.done, .spanned (.ofText text terms)), (.tokens ts, .spent)] ∧
      tokenize text terms = ts.map Token.text ∧
      ∀ requests, (Stream.ofText text terms).run requests =
        .ok (Script.run ⟨fold text, terms, ts⟩ (.plain 0) requests) :=
  ⟨tokens terms (fold text), run_intoSpanned_collect text terms, rfl, Script.run_ofText text terms⟩

end TermLexer
