import TermLexer.Proofs.Unicode.Tables

/-! # Classes of code points

What the lexer asks of a code point is whether it is a separator, numeric or alphabetic. A capital
letter and its small letter answer alike: this is checked at every code point that a shift moves.
The tables are read as bit sets there, each of them made once and tested at two bits a point. -/

namespace TermLexer.Unicode

/-! ## Tables as bit sets -/

/-- The number whose bits from the first to the last of a range are set. -/
def rangeBits (r : Nat × Nat) : Nat := ((1 <<< (r.2 + 1 - r.1)) - 1) <<< r.1

theorem testBit_rangeBits (r : Nat × Nat) (n : Nat) :
    (rangeBits r).testBit n = (decide (r.1 ≤ n) && decide (n ≤ r.2)) := by
  rw [rangeBits, Nat.testBit_shiftLeft, Nat.one_shiftLeft, Nat.testBit_two_pow_sub_one,
    Bool.eq_iff_iff]
  simp only [Bool.and_eq_true, decide_eq_true_eq]
  omega

/-- The number whose bits in the ranges are set. -/
def Ranges.mask (ranges : Ranges) : Nat := ranges.foldr (fun r m => rangeBits r ||| m) 0

theorem Ranges.testBit_mask (ranges : Ranges) (c : Char) :
    ranges.mask.testBit c.toNat = ranges.covers c := by
  induction ranges with
  | nil => exact Nat.zero_testBit _
  | cons r rs ih =>
    have hcons : Ranges.mask (r :: rs) = rangeBits r ||| Ranges.mask rs := rfl
    rw [hcons, Nat.testBit_or, testBit_rangeBits, ih]
    rfl

/-- Every code point that the shift moves is in the table exactly if its image is. -/
def Shift.keeps (s : Shift) (table : Ranges) : Bool :=
  s.points.all fun n =>
    table.mask.testBit n == table.mask.testBit (Char.ofNat (s.image n)).toNat

/-- The tables that tell how a text is cut. -/
def cutting : List Ranges := [whitespace, numeric, alphabetic]

theorem lowercase_keeps : ∀ table ∈ cutting, ∀ s ∈ lowercase, s.keeps table = true := by
  decide +kernel

theorem covers_apply {table : Ranges} (htable : table ∈ cutting) {s : Shift} (hs : s ∈ lowercase)
    {c : Char} (hmoves : s.moves c = true) : table.covers (s.apply c) = table.covers c := by
  have hkeeps := List.all_eq_true.mp (lowercase_keeps table htable s hs) _ (Shift.mem_points hmoves)
  rw [← Ranges.testBit_mask, ← Ranges.testBit_mask]
  exact (eq_of_beq hkeeps).symm

/-! ## Classes -/

/-- Two code points that are the same to the rules for tokens. -/
structure SameClass (c d : Char) : Prop where
  whitespace : isWhitespace c = isWhitespace d
  numeric : isNumeric c = isNumeric d
  alphabetic : isAlphabetic c = isAlphabetic d

theorem SameClass.alphanumeric {c d : Char} (h : SameClass c d) :
    isAlphanumeric c = isAlphanumeric d := by
  rw [isAlphanumeric, isAlphanumeric, h.alphabetic, h.numeric]

theorem covers_toLower {table : Ranges} (htable : table ∈ cutting) (c : Char) :
    table.covers (toLower c) = table.covers c := by
  rcases toLower_cases c with hself | ⟨s, hs, hmoves, happly⟩
  · rw [hself]
  · rw [happly, covers_apply htable hs hmoves]

/-- A letter stays what it is in lower case. -/
theorem sameClass_toLower (c : Char) : SameClass c (toLower c) where
  whitespace := (covers_toLower (by simp [cutting]) c).symm
  numeric := (covers_toLower (by simp [cutting]) c).symm
  alphabetic := (covers_toLower (by simp [cutting]) c).symm

end TermLexer.Unicode
