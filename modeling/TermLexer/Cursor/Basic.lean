import TermLexer.Text.Slice
import TermLexer.Unicode.Whitespace

/-!
# Cursors

A cursor is a text with a byte offset into it. It starts at the front and moves forward by bytes or
by code points; an operation that consumes code points gives back the text it moved over. On a
cursor whose offset is a boundary no such operation has a fault.
-/

namespace TermLexer

open TermLexer.Text TermLexer.Unicode

/-- A place in a text, by its byte offset. -/
structure Cursor where
  text : Text
  pos : Nat
  deriving DecidableEq, Repr

namespace Cursor

def start (text : Text) : Cursor := ⟨text, 0⟩

/-- The cursor at an offset, which has to be a boundary of the text. -/
def resume (text : Text) (pos : Nat) : Except Fault Cursor :=
  if IsBoundary text pos then .ok ⟨text, pos⟩ else .error (.misplaced pos)

def rest (c : Cursor) : Except Fault Text :=
  match dropBytes c.text c.pos with
  | some ahead => .ok ahead
  | none => .error (.outside c.pos (byteSize c.text))

def current (c : Cursor) : Except Fault (Option Char) := do
  return (← c.rest).head?

def isEnd (c : Cursor) : Bool := byteSize c.text ≤ c.pos

/-- The text between two offsets. Ends in the wrong order are reported before anything else. -/
def slice (c : Cursor) (start stop : Nat) : Except Fault Text :=
  if stop < start then .error (.reversed start stop) else Text.slice c.text ⟨start, stop⟩

def sliceFrom (c : Cursor) (start : Nat) : Except Fault Text := c.slice start c.pos

/-- Moves by a number of bytes, but not beyond the end, and on to the next boundary. -/
def advanceBytes (c : Cursor) (n : Nat) : Cursor :=
  { c with pos := ceilBoundary c.text (c.pos + n) }

/-- Moves over one code point. At the end it stays. -/
def advanceChar (c : Cursor) : Except Fault Cursor := do
  match ← c.current with
  | some ahead => return { c with pos := c.pos + ahead.utf8Size }
  | none => return c

/-- Moves over a part of what lies ahead and gives back the text between the old and the new
offset. -/
def consume (c : Cursor) (part : Text → Text) : Except Fault (Text × Cursor) := do
  let moved := { c with pos := c.pos + byteSize (part (← c.rest)) }
  return (← moved.sliceFrom c.pos, moved)

def take (c : Cursor) (n : Nat) : Except Fault (Text × Cursor) := c.consume (List.take n)

/-- Consumes the code points up to the first that fails the test. -/
def eatWhile (c : Cursor) (p : Char → Bool) : Except Fault (Text × Cursor) :=
  c.consume (List.takeWhile p)

def eatWhitespace (c : Cursor) : Except Fault (Text × Cursor) := c.eatWhile isWhitespace

/-! ## Cursors at a boundary

A cursor at a boundary stands between two parts of its text, and what it does is said by them. -/

theorem resume_append (a b : Text) :
    resume (a ++ b) (byteSize a) = .ok ⟨a ++ b, byteSize a⟩ :=
  if_pos ⟨a, b, rfl, rfl⟩

theorem rest_append (a b : Text) : rest ⟨a ++ b, byteSize a⟩ = .ok b := by
  simp [rest]

theorem current_append (a b : Text) : current ⟨a ++ b, byteSize a⟩ = .ok b.head? := by
  rw [current, rest_append]
  rfl

/-- A move by bytes is told by the boundaries of what lies ahead. -/
theorem advanceBytes_of_parts (a b : Text) (n : Nat) :
    advanceBytes ⟨a ++ b, byteSize a⟩ n = ⟨a ++ b, byteSize a + ceilBoundary b n⟩ := by
  rw [advanceBytes, ceilBoundary_append_add]

/-- The size of a part that lies ahead leads behind it, with nothing to round. -/
theorem advanceBytes_append (a u v : Text) :
    advanceBytes ⟨a ++ (u ++ v), byteSize a⟩ (byteSize u) =
      ⟨a ++ (u ++ v), byteSize a + byteSize u⟩ := by
  rw [advanceBytes_of_parts, ceilBoundary_append]

theorem advanceChar_append (a b : Text) :
    advanceChar ⟨a ++ b, byteSize a⟩ = .ok ⟨a ++ b, byteSize a + byteSize (b.take 1)⟩ := by
  rw [advanceChar, current_append]
  cases b <;> rfl

theorem consume_append (a u v : Text) (part : Text → Text) (h : part (u ++ v) = u) :
    consume ⟨a ++ (u ++ v), byteSize a⟩ part =
      .ok (u, ⟨a ++ (u ++ v), byteSize a + byteSize u⟩) := by
  have hle : ¬byteSize a + byteSize u < byteSize a := by omega
  simp only [consume, rest_append, sliceFrom, slice, Fault.ok_bind, h, if_neg hle,
    slice_append]
  rfl

theorem eatWhile_append (a b : Text) (p : Char → Bool) :
    eatWhile ⟨a ++ b, byteSize a⟩ p =
      .ok (b.takeWhile p, ⟨a ++ b, byteSize a + byteSize (b.takeWhile p)⟩) := by
  have hsplit : b.takeWhile p ++ b.dropWhile p = b := List.takeWhile_append_dropWhile
  have h := consume_append a (b.takeWhile p) (b.dropWhile p) (List.takeWhile p)
  rw [hsplit] at h
  exact h rfl

theorem eatWhitespace_append (done blanks rest : Text)
    (hblanks : ∀ b ∈ blanks, isWhitespace b = true)
    (hrest : ∀ c ∈ rest.head?, isWhitespace c = false) :
    eatWhitespace ⟨done ++ (blanks ++ rest), byteSize done⟩ =
      .ok (blanks, ⟨done ++ (blanks ++ rest), byteSize (done ++ blanks)⟩) := by
  rw [eatWhitespace, eatWhile_append, takeWhile_append hblanks hrest, byteSize_append]

theorem take_append (a b : Text) (n : Nat) :
    take ⟨a ++ b, byteSize a⟩ n =
      .ok (b.take n, ⟨a ++ b, byteSize a + byteSize (b.take n)⟩) := by
  have h := consume_append a (b.take n) (b.drop n) (List.take n)
  rw [List.take_append_drop] at h
  exact h rfl

end Cursor

end TermLexer
