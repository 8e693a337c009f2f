import TermLexer.Cursor.Basic
import TermLexer.Piece

/-!
# Lexers

A lexer holds a folded text and the offset up to which its tokens were pulled. A pull skips
separators, recognises one token by the rules of `munch` and moves the offset behind it. Everything
goes through cursors, so every offset is checked against the text, and every place of the index of
the terms is checked against their list.
-/

namespace TermLexer

open TermLexer.Text TermLexer.Unicode

/-- A text whose tokens are pulled one at a time. -/
structure Lexer where
  text : Text
  /-- The offset up to which tokens were pulled. -/
  pos : Nat
  terms : Option TermSet
  deriving Repr

namespace Lexer

def ofText (text : Text) (terms : Option TermSet) : Lexer := ⟨fold text, 0, terms⟩

/-- The longest special term that the text begins with. Without a set there is none. -/
def lookupTerm (terms : Option TermSet) (text : Text) : Except Fault (Option Text) :=
  match terms with
  | none => return none
  | some set => set.lookup text

/-- Moves a cursor over the token ahead of it. -/
def scan (terms : Option TermSet) (c : Cursor) : Except Fault (Token.Kind × Cursor) := do
  let ahead ← c.rest
  match ← lookupTerm terms ahead with
  | some term => return (.special, c.advanceBytes (byteSize term))
  | none =>
    if ahead.head?.any isNumeric then return (.number, (← c.eatWhile isNumeric).2)
    else if ahead.head?.any isAlphabetic then return (.word, (← c.eatWhile isAlphanumeric).2)
    else return (.symbol, (← c.take 1).2)

/-- Moves behind the next token and gives it. At the end there is none, and the offset is that of
the end. -/
def pull (l : Lexer) : Except Fault (Option Token × Lexer) := do
  let (_, c) ← (← Cursor.resume l.text l.pos).eatWhitespace
  if c.isEnd then return (none, { l with pos := c.pos })
  else
    let (kind, after) ← scan l.terms c
    let span : Span := ⟨c.pos, after.pos⟩
    return (some ⟨kind, span, ← Text.slice l.text span⟩, { l with pos := after.pos })

/-- The number of bytes not pulled yet, which is also a bound on the number of tokens. -/
def remaining (l : Lexer) : Except Fault Nat := distance l.pos (byteSize l.text)

/-- Pulls at most `fuel` times, up to the end of the text. -/
def drainWithin : Nat → Lexer → Except Fault (List Token)
  | 0, _ => .error .unfinished
  | fuel + 1, l => do
    match ← l.pull with
    | (none, _) => return []
    | (some token, after) => return token :: (← drainWithin fuel after)

/-- All tokens that were not pulled yet. Every token has a byte of its own, and one more pull finds
the end. -/
def drain (l : Lexer) : Except Fault (List Token) := do
  drainWithin ((← l.remaining) + 1) l

end Lexer

end TermLexer
