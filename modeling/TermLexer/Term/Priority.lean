import TermLexer.Text.Basic

/-!
# Match priority

Of two terms the longer one is tried first. Terms of one length are ordered by their bytes, which
makes the order total and the terms of a set come in one order only.
-/

namespace TermLexer.Term

open TermLexer.Text

/-- More bytes come first, and among terms of equal size the lesser bytes. -/
def priority (a b : Text) : Ordering :=
  (compare (byteSize b) (byteSize a)).then (compare (utf8 a) (utf8 b))

@[simp] theorem priority_self (a : Text) : priority a a = .eq := by
  simp [priority]

/-- A longer term comes before a shorter one. -/
theorem priority_of_byteSize_lt {a b : Text} (h : byteSize b < byteSize a) :
    priority a b = .lt := by
  simp [priority, Nat.compare_eq_lt.2 h]

theorem byteSize_le_of_priority_lt {a b : Text} (h : priority a b = .lt) :
    byteSize b ≤ byteSize a := by
  rcases Ordering.then_eq_lt.mp h with hsize | ⟨hsize, _⟩
  · exact Nat.le_of_lt (Nat.compare_eq_lt.mp hsize)
  · exact Nat.le_of_eq (Nat.compare_eq_eq.mp hsize)

/-- Both keys are compared by total orders, the sizes the other way round. -/
instance : Std.TransCmp priority :=
  have : Std.TransCmp fun a b : Text => compareOn byteSize b a := Std.TransCmp.opposite
  inferInstanceAs (Std.TransCmp (compareLex (fun a b => compareOn byteSize b a) (compareOn utf8)))

end TermLexer.Term
