import TermLexer.Text.Basic

/-!
# Structured values

The values in which spans and term sets are stored and exchanged. A number keeps how it was
written: only one without fraction and exponent is an integer.
-/

namespace TermLexer

inductive Value where
  | null
  | bool (b : Bool)
  /-- A number written by a sign and digits only. -/
  | integer (n : Int)
  /-- Any other number, as it was written. -/
  | decimal (written : String)
  | text (s : Text)
  | list (items : List Value)
  | record (fields : List (String × Value))

namespace Value

/-- Offsets are numbers of 64 bits. -/
def offsetLimit : Nat := UInt64.size

def offset? : Value → Option Nat
  | integer (.ofNat n) => if n < offsetLimit then some n else none
  | _ => none

def text? : Value → Option Text
  | text s => some s
  | _ => none

@[simp] theorem text?_text (s : Text) : text? (text s) = some s := rfl

theorem offset?_integer {n : Nat} (h : n < offsetLimit) : offset? (integer n) = some n := by
  show (if n < offsetLimit then some n else none) = some n
  exact if_pos h

end Value

end TermLexer
