/-!
# Tables of code points

A property of code points is given by the inclusive ranges that have it.
-/

namespace TermLexer.Unicode

/-- Inclusive ranges of code points. -/
abbrev Ranges := List (Nat × Nat)

/-- The code point lies in one of the ranges. -/
def Ranges.covers (ranges : Ranges) (c : Char) : Bool :=
  ranges.any fun (first, last) => first ≤ c.toNat && c.toNat ≤ last

theorem Ranges.covers_iff {ranges : Ranges} {c : Char} :
    ranges.covers c = true ↔ ∃ r ∈ ranges, r.1 ≤ c.toNat ∧ c.toNat ≤ r.2 := by
  simp [Ranges.covers]

end TermLexer.Unicode
