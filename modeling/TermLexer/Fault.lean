/-!
# Faults

Why an operation on byte offsets or on the places of a list has no answer. Two of the causes are
reported with a text, the others only as such.
-/

namespace TermLexer

/-- The cause of a refused operation. -/
inductive Fault where
  /-- A range to cut out ends before it starts. -/
  | reversed (start stop : Nat)
  /-- A range to cut out passes the end of the text or splits a code point. -/
  | outside (start stop : Nat)
  /-- A length is asked for whose end lies before its start. -/
  | negative (start stop : Nat)
  /-- A position to resume from is no boundary of the text. -/
  | misplaced (pos : Nat)
  /-- A place lies outside the list that it was noted for. -/
  | unlisted (place : Nat)
  /-- A drain was cut off before the end of the text. -/
  | unfinished
  deriving DecidableEq, Repr

/-- The text a fault is reported with, if it has one. -/
def Fault.message? : Fault → Option String
  | .reversed start stop =>
    some ("slice start " ++ toString start ++ " exceeds end " ++ toString stop)
  | .negative _ _ => some "attempt to subtract with overflow"
  | .outside _ _ | .misplaced _ | .unlisted _ | .unfinished => none

/-- What follows an operation that was not refused goes on with its result. -/
@[simp] theorem Fault.ok_bind {α β : Type} (a : α) (f : α → Except Fault β) :
    (Except.ok a >>= f) = f a := rfl

/-- The distance from `start` to `stop`, which has to be no negative number. -/
def distance (start stop : Nat) : Except Fault Nat :=
  if start ≤ stop then .ok (stop - start) else .error (.negative start stop)

theorem distance_of_le {start stop : Nat} (h : start ≤ stop) :
    distance start stop = .ok (stop - start) := by
  simp [distance, h]

theorem distance_of_lt {start stop : Nat} (h : stop < start) :
    distance start stop = .error (.negative start stop) := by
  simp [distance, Nat.not_le.mpr h]

end TermLexer
