import TermLexer.Cursor.Basic

/-!
# Cursor sessions

A session is a cursor that obeys commands one after the other, with one kept copy of the cursor to
which it can go back. A command that meets a fault leaves the session as it was.
-/

namespace TermLexer.Cursor

inductive Command where
  | current
  | rest
  | isEnd
  | advanceBytes (n : Nat)
  | advanceChar
  | take (n : Nat)
  | eatWhile (p : Char → Bool)
  | eatWhitespace
  | slice (start stop : Nat)
  | sliceFrom (start : Nat)
  | save
  | restore

inductive Answer where
  | done
  | flag (b : Bool)
  | char (c : Option Char)
  | text (s : Text)
  deriving DecidableEq, Repr

/-- A cursor and the kept copy. -/
structure Session where
  cursor : Cursor
  saved : Cursor
  deriving DecidableEq, Repr

namespace Session

/-- The session at the front of a text, which is also where the copy stands. -/
def start (text : Text) : Session := ⟨.start text, .start text⟩

def move (s : Session) (c : Cursor) : Session := { s with cursor := c }

def step (s : Session) : Command → Except Fault (Answer × Session)
  | .current => do return (.char (← s.cursor.current), s)
  | .rest => do return (.text (← s.cursor.rest), s)
  | .isEnd => return (.flag s.cursor.isEnd, s)
  | .advanceBytes n => return (.done, s.move (s.cursor.advanceBytes n))
  | .advanceChar => do return (.done, s.move (← s.cursor.advanceChar))
  | .take n => do
    let (taken, c) ← s.cursor.take n
    return (.text taken, s.move c)
  | .eatWhile p => do
    let (eaten, c) ← s.cursor.eatWhile p
    return (.text eaten, s.move c)
  | .eatWhitespace => do
    let (eaten, c) ← s.cursor.eatWhitespace
    return (.text eaten, s.move c)
  | .slice start stop => do return (.text (← s.cursor.slice start stop), s)
  | .sliceFrom start => do return (.text (← s.cursor.sliceFrom start), s)
  | .save => return (.done, { s with saved := s.cursor })
  | .restore => return (.done, s.move s.saved)

/-- The answer to a command and the session after it. -/
def obey (s : Session) (command : Command) : Except Fault Answer × Session :=
  match s.step command with
  | .ok (answer, next) => (.ok answer, next)
  | .error fault => (.error fault, s)

def run (s : Session) : List Command → List (Except Fault Answer × Session)
  | [] => []
  | command :: commands => s.obey command :: (s.obey command).2.run commands

end Session

end TermLexer.Cursor
