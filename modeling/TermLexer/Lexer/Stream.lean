import TermLexer.Lexer.Basic

/-!
# Token streams

A stream answers requests for tokens. It gives the texts of tokens until it is turned into a stream
of tokens with their spans, and it is spent once it was asked for all tokens that were left. A
request that does not fit the present form of the stream is not available and changes nothing.
-/

namespace TermLexer

inductive Stream where
  /-- Gives the texts of tokens. -/
  | plain (l : Lexer)
  /-- Gives tokens with their spans. -/
  | spanned (l : Lexer)
  /-- Has given all it had. -/
  | spent

namespace Stream

/-- What a stream can be asked. -/
inductive Request where
  | next
  | nextToken
  | nextSpan
  | position
  | sizeHint
  | source
  | terms
  | collect
  | intoTokens
  | intoSpanned
  deriving DecidableEq, Repr

/-- What a stream answers. -/
inductive Reply where
  | done
  | text (t : Option Text)
  | span (s : Option Span)
  | token (t : Option Token)
  | position (n : Nat)
  | bounds (lower upper : Nat)
  | source (t : Text)
  | terms (ts : Option (List Text))
  | texts (ts : List Text)
  | tokens (ts : List Token)
  | unavailable
  deriving DecidableEq, Repr

def ofText (text : Text) (terms : Option TermSet) : Stream := plain (.ofText text terms)

/-- The offset up to which tokens were pulled, where it can still be asked for. -/
def position? : Stream → Option Nat
  | plain l => some l.pos
  | spanned _ | spent => none

def answerPlain (l : Lexer) : Request → Except Fault (Reply × Stream)
  | .next | .nextToken => do
    let (token, after) ← l.pull
    return (.text (token.map Token.text), plain after)
  | .nextSpan => do
    let (token, after) ← l.pull
    return (.span (token.map Token.span), plain after)
  | .position => return (.position l.pos, plain l)
  | .sizeHint => do return (.bounds 0 (← l.remaining), plain l)
  | .source => return (.source l.text, plain l)
  | .terms => return (.terms (l.terms.map TermSet.toList), plain l)
  | .collect | .intoTokens => do return (.texts ((← l.drain).map Token.text), spent)
  | .intoSpanned => return (.done, spanned l)

def answerSpanned (l : Lexer) : Request → Except Fault (Reply × Stream)
  | .next => do
    let (token, after) ← l.pull
    return (.token token, spanned after)
  | .sizeHint => do return (.bounds 0 (← l.remaining), spanned l)
  | .collect => do return (.tokens (← l.drain), spent)
  | .nextToken | .nextSpan | .position | .source | .terms | .intoTokens | .intoSpanned =>
    return (.unavailable, spanned l)

def answer (request : Request) : Stream → Except Fault (Reply × Stream)
  | plain l => answerPlain l request
  | spanned l => answerSpanned l request
  | spent => return (.unavailable, spent)

/-- The answers to requests made in turn, each with the stream after it. The first fault ends the
run. -/
def run (s : Stream) : List Request → Except Fault (List (Reply × Stream))
  | [] => return []
  | request :: requests => do
    let (reply, next) ← s.answer request
    return (reply, next) :: (← next.run requests)

theorem run_cons {s next : Stream} {request : Request} {requests : List Request} {reply : Reply}
    {answers : List (Reply × Stream)} (h : s.answer request = .ok (reply, next))
    (hrest : next.run requests = .ok answers) :
    s.run (request :: requests) = .ok ((reply, next) :: answers) := by
  simp only [run, h, hrest, Fault.ok_bind]
  rfl

end Stream

end TermLexer
