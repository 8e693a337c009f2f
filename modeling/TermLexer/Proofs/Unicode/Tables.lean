import TermLexer.Unicode.Alphanumeric
import TermLexer.Unicode.Cased
import TermLexer.Unicode.Ignorable
import TermLexer.Unicode.Lowercase
import TermLexer.Unicode.Whitespace

/-! # What the tables have to do with each other

A separator has none of the properties by which a run goes on or a sigma is read, and no shift moves
it: their tables are compared range by range. Lower case is final: what a shift gives is nothing
that a shift moves, and never the dotted capital i. There the two sets of code points are too
interleaved for ranges and are compared as bit sets, in one step. -/

namespace TermLexer.Unicode

/-! ## Ranges -/

/-- No range of one table meets a range of the other. -/
def Ranges.apart (a b : Ranges) : Bool :=
  a.all fun r => b.all fun s => Nat.blt r.2 s.1 || Nat.blt s.2 r.1

theorem Ranges.covers_eq_false_of_apart {a b : Ranges} (h : a.apart b = true) {c : Char}
    (hc : a.covers c = true) : b.covers c = false := by
  obtain ⟨r, hr, hfirst, hlast⟩ := Ranges.covers_iff.mp hc
  rw [Bool.eq_false_iff, Ne, Ranges.covers_iff]
  rintro ⟨s, hs, hfirst', hlast'⟩
  have hrs := List.all_eq_true.mp (List.all_eq_true.mp h r hr) s hs
  rw [Bool.or_eq_true, Nat.blt_eq, Nat.blt_eq] at hrs
  omega

/-- The code points from the first to the last that a shift moves. -/
def Shift.range (s : Shift) : Nat × Nat := (s.first, s.last)

/-- The tables that no separator is in. -/
def solid : List Ranges := [alphabetic, numeric, cased, ignorable, lowercase.map Shift.range]

theorem whitespace_apart : ∀ table ∈ solid, whitespace.apart table = true := by
  decide +kernel

section

variable {c : Char} (h : isWhitespace c = true)

include h

theorem covers_eq_false {table : Ranges} (htable : table ∈ solid) : table.covers c = false :=
  Ranges.covers_eq_false_of_apart (whitespace_apart table htable) h

theorem isNumeric_eq_false : isNumeric c = false := covers_eq_false h (by simp [solid])

theorem isAlphanumeric_eq_false : isAlphanumeric c = false := by
  have halphabetic : isAlphabetic c = false := covers_eq_false h (by simp [solid])
  rw [isAlphanumeric, halphabetic, isNumeric_eq_false h, Bool.or_false]

theorem isCased_eq_false : isCased c = false := covers_eq_false h (by simp [solid])

theorem isIgnorable_eq_false : isIgnorable c = false := covers_eq_false h (by simp [solid])

end

/-! ## Bit sets -/

/-- The number whose bits at the given places are set. -/
def bits (places : List Nat) : Nat := places.foldr (fun n m => 1 <<< n ||| m) 0

theorem testBit_bits {places : List Nat} {n : Nat} :
    (bits places).testBit n = true ↔ n ∈ places := by
  induction places with
  | nil => simp [bits]
  | cons m ms ih =>
    have hcons : bits (m :: ms) = 1 <<< m ||| bits ms := rfl
    rw [hcons, Nat.testBit_or, Nat.one_shiftLeft, Nat.testBit_two_pow, Bool.or_eq_true, ih,
      decide_eq_true_eq, List.mem_cons, eq_comm]

theorem notMem_of_bits_and {a b : List Nat} (h : bits a &&& bits b = 0) {n : Nat} (ha : n ∈ a) :
    n ∉ b := by
  intro hb
  have hboth := Nat.testBit_and (bits a) (bits b) n
  rw [h, testBit_bits.mpr ha, testBit_bits.mpr hb, Nat.zero_testBit] at hboth
  cases hboth

/-! ## Shifts -/

namespace Shift

/-- The code points that a shift moves. -/
def points (s : Shift) : List Nat :=
  List.range' s.first ((s.last - s.first) / s.stride + 1) s.stride

/-- Where a shift moves a code point. -/
def image (s : Shift) (n : Nat) : Nat := (n + s.delta).toNat

variable {s : Shift} {c : Char}

theorem moves_iff : s.moves c = true ↔
    s.first ≤ c.toNat ∧ c.toNat ≤ s.last ∧ (c.toNat - s.first) % s.stride = 0 := by
  simp [moves, and_assoc]

theorem mem_points (h : s.moves c = true) : c.toNat ∈ s.points := by
  obtain ⟨hfirst, hlast, hstep⟩ := moves_iff.mp h
  refine List.mem_range'.mpr ⟨(c.toNat - s.first) / s.stride, ?_, ?_⟩
  · exact Nat.lt_succ_of_le (Nat.div_le_div_right (Nat.sub_le_sub_right hlast _))
  · rw [Nat.mul_div_cancel' (Nat.dvd_of_mod_eq_zero hstep), Nat.add_sub_cancel' hfirst]

/-- An image that is no code point would be replaced by the null character. -/
theorem toNat_apply (s : Shift) (c : Char) :
    (s.apply c).toNat = s.image c.toNat ∨ (s.apply c).toNat = 0 := by
  by_cases hvalid : (s.image c.toNat).isValidChar
  · refine .inl ?_
    show (Char.ofNat (s.image c.toNat)).toNat = _
    rw [Char.ofNat, dif_pos hvalid]
    rfl
  · refine .inr ?_
    show (Char.ofNat (s.image c.toNat)).toNat = _
    rw [Char.ofNat, dif_neg hvalid]
    rfl

end Shift

/-! ## Lower case -/

theorem toLower_of_forall {c : Char} (h : ∀ s ∈ lowercase, s.moves c = false) : toLower c = c := by
  have hnone : lowercase.find? (Shift.moves · c) = none := by
    rw [List.find?_eq_none]
    intro s hs
    rw [h s hs]
    exact Bool.false_ne_true
  rw [toLower, hnone]

theorem toLower_cases (c : Char) :
    toLower c = c ∨ ∃ s ∈ lowercase, s.moves c = true ∧ toLower c = s.apply c := by
  cases hfind : lowercase.find? (Shift.moves · c) with
  | none => exact .inl (by rw [toLower, hfind])
  | some s =>
    have hmoves := List.find?_some (p := (Shift.moves · c)) hfind
    exact .inr ⟨s, List.mem_of_find?_eq_some hfind, hmoves, by rw [toLower, hfind]⟩

/-- The code points with a lower case of their own. -/
def moved : List Nat := lowercase.flatMap Shift.points

/-- The code points that are the lower case of others. -/
def given : List Nat := lowercase.flatMap fun s => s.points.map s.image

theorem moved_and_given : bits ('İ'.toNat :: moved) &&& bits (0 :: given) = 0 := by
  decide +kernel

theorem toNat_apply_notMem {c : Char} {s : Shift} (hs : s ∈ lowercase) (hmoves : s.moves c = true) :
    (s.apply c).toNat ∉ 'İ'.toNat :: moved := by
  intro hmoved
  refine notMem_of_bits_and moved_and_given hmoved ?_
  rcases s.toNat_apply c with himage | hnull
  · rw [himage]
    exact List.mem_cons_of_mem _
      (List.mem_flatMap.mpr ⟨s, hs, List.mem_map_of_mem (Shift.mem_points hmoves)⟩)
  · rw [hnull]
    exact List.mem_cons_self

/-- Lower case is final. -/
theorem toLower_toLower (c : Char) : toLower (toLower c) = toLower c := by
  rcases toLower_cases c with hself | ⟨s, hs, hmoves, happly⟩
  · rw [hself, hself]
  · rw [happly]
    refine toLower_of_forall fun t ht => ?_
    rw [Bool.eq_false_iff]
    intro hagain
    have hmoved : (s.apply c).toNat ∈ moved :=
      List.mem_flatMap.mpr ⟨t, ht, Shift.mem_points hagain⟩
    exact toNat_apply_notMem hs hmoves (List.mem_cons_of_mem _ hmoved)

theorem toLower_ne_dotted {c : Char} (hc : c ≠ 'İ') : toLower c ≠ 'İ' := by
  intro hdotted
  rcases toLower_cases c with hself | ⟨s, hs, hmoves, happly⟩
  · exact hc (hself.symm.trans hdotted)
  · have hno := toNat_apply_notMem hs hmoves
    rw [← happly, hdotted] at hno
    exact hno List.mem_cons_self

theorem toLower_of_isWhitespace {c : Char} (h : isWhitespace c = true) : toLower c = c := by
  refine toLower_of_forall fun s hs => ?_
  have hranges : Ranges.covers (lowercase.map Shift.range) c = false :=
    covers_eq_false h (by simp [solid])
  rw [Bool.eq_false_iff] at hranges ⊢
  intro hmoves
  obtain ⟨hfirst, hlast, _⟩ := Shift.moves_iff.mp hmoves
  exact hranges (Ranges.covers_iff.mpr ⟨s.range, List.mem_map_of_mem hs, hfirst, hlast⟩)

end TermLexer.Unicode
