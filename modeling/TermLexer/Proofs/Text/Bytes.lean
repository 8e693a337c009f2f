import Mathlib.Algebra.Group.Nat.Defs
import Mathlib.Logic.Function.Defs
import Mathlib.Tactic.SplitIfs
import TermLexer.Text.Boundary

/-! # The bytes of a text

A code point is written as a first byte and up to three bytes behind it, and no first byte is also
one of those. So the bytes of a text tell its code points, and the text can be cut exactly where its
bytes end or a first byte stands.

Bytes also order texts as code points do. A first byte tells how many bytes follow, and more for a
greater code point; the bits of the number stand in the bytes in the order of their weight. Hence the
first byte in which two code points differ decides between them, whatever comes behind, and a text
need not be decoded to be compared. -/

namespace TermLexer.Text

/-- The bytes of a text tell its code points. -/
theorem utf8_injective : Function.Injective utf8 := by
  intro a b h
  have hbytes : a.utf8Encode = b.utf8Encode := congrArg List.toByteArray h
  rw [← String.toByteArray_ofList, ← String.toByteArray_ofList] at hbytes
  exact String.ofList_injective (String.toByteArray_inj.mp hbytes)

theorem utf8_cons (c : Char) (cs : Text) : utf8 (c :: cs) = String.utf8EncodeChar c ++ utf8 cs :=
  List.flatMap_cons

/-! ## First bytes -/

/-- A text can be cut at its end and in front of every first byte of a code point. -/
theorem isBoundary_iff_firstByte {s : Text} {n : Nat} : IsBoundary s n ↔
    n = byteSize s ∨ ∃ b, (utf8 s)[n]? = some b ∧ b.IsUTF8FirstByte := by
  induction s generalizing n with
  | nil =>
    have hno : ¬∃ b, (utf8 [])[n]? = some b ∧ b.IsUTF8FirstByte := nofun
    rw [or_iff_left hno, byteSize_nil]
    refine ⟨fun h => Nat.le_zero.mp h.le_byteSize, ?_⟩
    rintro rfl
    exact isBoundary_zero []
  | cons c cs ih =>
    have hpos := c.utf8Size_pos
    have hlength := String.length_utf8EncodeChar c
    rw [isBoundary_cons_iff, utf8_cons, byteSize_cons]
    by_cases hn : n < c.utf8Size
    · -- of the bytes of one code point only the one in front is a first byte
      have hbytes : n < (String.utf8EncodeChar c).length := by rwa [hlength]
      have hleft : ¬∃ m, IsBoundary cs m ∧ n = c.utf8Size + m := by
        rintro ⟨m, _, rfl⟩
        omega
      have hright : n ≠ c.utf8Size + byteSize cs := by omega
      rw [or_iff_left hleft, or_iff_right hright, List.getElem?_append_left hbytes,
        List.getElem?_eq_getElem hbytes]
      simp only [Option.some.injEq, exists_eq_left', UInt8.isUTF8FirstByte_getElem_utf8EncodeChar]
    · obtain ⟨m, rfl⟩ := Nat.exists_eq_add_of_le (Nat.le_of_not_lt hn)
      have hzero : c.utf8Size + m ≠ 0 := by omega
      rw [or_iff_right hzero, ← hlength, List.getElem?_append_right (Nat.le_add_right _ _),
        Nat.add_sub_cancel_left, Nat.add_right_inj, ← ih]
      simp

/-! ## The bytes of one code point -/

/-- How many bytes follow the first byte of a code point. -/
def followers (v : Nat) : Nat :=
  if v ≤ 0x7f then 0 else if v ≤ 0x7ff then 1 else if v ≤ 0xffff then 2 else 3

/-- What a first byte holds besides bits of the number, to tell how many bytes follow it. -/
def mark : Nat → Nat
  | 0 => 0
  | 1 => 0xc0
  | 2 => 0xe0
  | _ => 0xf0

/-- The first byte of a code point. -/
def lead (v : Nat) : Nat := mark (followers v) + v / 64 ^ followers v

/-- The last bytes of a code point, each with six bits of the number. -/
def continuation (v : Nat) : Nat → List UInt8
  | 0 => []
  | n + 1 => .ofNat (0x80 + v / 64 ^ n % 64) :: continuation v n

theorem toNat_lt (c : Char) : c.toNat < 0x110000 := by
  have h : c.toNat.isValidChar := c.valid
  unfold Nat.isValidChar at h
  omega

theorem utf8EncodeChar_eq (c : Char) : String.utf8EncodeChar c =
    .ofNat (lead c.toNat) :: continuation c.toNat (followers c.toNat) := by
  have hc := toNat_lt c
  simp only [String.utf8EncodeChar, Char.toNat_val, lead, followers]
  split
  · simp [mark, continuation]
  split
  · have hhigh : c.toNat / 64 % 32 = c.toNat / 64 := by omega
    simp [mark, continuation, hhigh, Nat.add_comm]
  split
  · have hhigh : c.toNat / 4096 % 16 = c.toNat / 4096 := by omega
    simp [mark, continuation, hhigh, Nat.add_comm]
  · have hhigh : c.toNat / 262144 % 8 = c.toNat / 262144 := by omega
    simp [mark, continuation, hhigh, Nat.add_comm]

theorem lead_lt {v : Nat} (hv : v < 0x110000) : lead v < UInt8.size := by
  unfold lead followers UInt8.size
  split_ifs <;> simp only [mark] <;> omega

/-- A greater code point has a greater first byte, or the same one and as many bytes behind it. -/
theorem lead_lt_or_eq {v w : Nat} (h : v < w) (hw : w < 0x110000) :
    lead v < lead w ∨ lead v = lead w ∧ followers v = followers w := by
  unfold lead followers
  split_ifs <;> simp only [mark, and_true] <;> omega

theorem continuation_lt (v n : Nat) : 0x80 + v / 64 ^ n % 64 < UInt8.size := by
  unfold UInt8.size
  omega

/-- The bits of the number stand in the order of their weight. -/
theorem continuation_append_lt {v w n : Nat} (h : v % 64 ^ n < w % 64 ^ n) (x y : List UInt8) :
    continuation v n ++ x < continuation w n ++ y := by
  induction n with
  | zero => simp [Nat.mod_one] at h
  | succ n ih =>
    rw [continuation, continuation, List.cons_append, List.cons_append, List.cons_lt_cons_iff,
      UInt8.ofNat_lt_iff_lt (continuation_lt v n) (continuation_lt w n)]
    have hvlow := Nat.mod_lt v (Nat.pow_pos (n := n) (by decide : 0 < 64))
    have hwlow := Nat.mod_lt w (Nat.pow_pos (n := n) (by decide : 0 < 64))
    rw [Nat.mod_pow_succ, Nat.mod_pow_succ] at h
    rcases Nat.lt_trichotomy (v / 64 ^ n % 64) (w / 64 ^ n % 64) with hless | hsame | hgreater
    · exact .inl (Nat.add_lt_add_left hless _)
    · rw [hsame] at h ⊢
      exact .inr ⟨rfl, ih (Nat.lt_of_add_lt_add_right h)⟩
    · -- the lower bits cannot make up for a bit that weighs more than all of them
      have hmul := Nat.mul_le_mul_left (64 ^ n) (Nat.succ_le_of_lt hgreater)
      rw [Nat.mul_succ] at hmul
      omega

/-- The bytes of a code point are less than those of a greater one, whatever follows them. -/
theorem utf8EncodeChar_append_lt {c d : Char} (h : c.toNat < d.toNat) (x y : List UInt8) :
    String.utf8EncodeChar c ++ x < String.utf8EncodeChar d ++ y := by
  rw [utf8EncodeChar_eq, utf8EncodeChar_eq, List.cons_append, List.cons_append,
    List.cons_lt_cons_iff, UInt8.ofNat_lt_iff_lt (lead_lt (toNat_lt c)) (lead_lt (toNat_lt d))]
  rcases lead_lt_or_eq h (toNat_lt d) with hless | ⟨hlead, hfollowers⟩
  · exact .inl hless
  · refine .inr ⟨congrArg UInt8.ofNat hlead, ?_⟩
    -- the first bytes hold the same bits, so the others hold those that tell the two apart
    rw [lead, lead, hfollowers] at hlead
    have hhigh := Nat.add_left_cancel hlead
    have hc := Nat.div_add_mod c.toNat (64 ^ followers d.toNat)
    have hd := Nat.div_add_mod d.toNat (64 ^ followers d.toNat)
    rw [hhigh] at hc
    rw [hfollowers]
    exact continuation_append_lt (by omega) x y

/-! ## The order of texts -/

theorem compare_bytes_eq_lt_iff {a b : List UInt8} : compare a b = .lt ↔ a < b := by
  induction a generalizing b with
  | nil => cases b <;> simp
  | cons x xs ih =>
    cases b with
    | nil => simp
    | cons y ys =>
      rw [List.compare_cons_cons, Ordering.then_eq_lt, Std.compare_eq_lt, ih,
        Std.LawfulEqOrd.compare_eq_iff_eq, List.cons_lt_cons_iff]

theorem compare_append_left (front a b : List UInt8) :
    compare (front ++ a) (front ++ b) = compare a b := by
  induction front with
  | nil => rfl
  | cons x xs ih =>
    rw [List.cons_append, List.cons_append, List.compare_cons_cons, Std.ReflOrd.compare_self, ih,
      Ordering.eq_then]

/-- Texts compare alike by their bytes and by their code points. -/
theorem compare_utf8 (a b : Text) :
    compare (utf8 a) (utf8 b) = compare (a.map Char.toNat) (b.map Char.toNat) := by
  induction a generalizing b with
  | nil =>
    cases b with
    | nil => rfl
    | cons d ds => rw [utf8_cons, utf8EncodeChar_eq]; rfl
  | cons c cs ih =>
    cases b with
    | nil => rw [utf8_cons, utf8EncodeChar_eq]; rfl
    | cons d ds =>
      rw [utf8_cons, utf8_cons, List.map_cons, List.map_cons, List.compare_cons_cons]
      rcases Nat.lt_trichotomy c.toNat d.toNat with hless | hsame | hgreater
      · rw [Nat.compare_eq_lt.mpr hless, Ordering.lt_then]
        exact compare_bytes_eq_lt_iff.mpr (utf8EncodeChar_append_lt hless _ _)
      · obtain rfl := Char.toNat_inj.mp hsame
        rw [compare_append_left, ih, Std.ReflOrd.compare_self, Ordering.eq_then]
      · rw [Nat.compare_eq_gt.mpr hgreater, Ordering.gt_then, Std.OrientedCmp.gt_iff_lt]
        exact compare_bytes_eq_lt_iff.mpr (utf8EncodeChar_append_lt hgreater _ _)

end TermLexer.Text
