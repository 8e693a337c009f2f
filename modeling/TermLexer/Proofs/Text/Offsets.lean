import Mathlib.Order.Bounds.Basic
import TermLexer.Text.Boundary

/-! # Offsets of code points

The boundaries of a text are the offsets its code points begin at, and its end. A code point has no
more than four bytes, so from any offset up to the end the next boundary is met within three single
bytes. The sizes of the parts that are cut off by number or by a test are such offsets too: that of
the code point with the number, or of the first one that fails the test. -/

namespace TermLexer.Text

/-! ## The next boundary -/

theorem isLeast_ceilBoundary (s : Text) (n : Nat) :
    IsLeast {p | IsBoundary s p ∧ min n (byteSize s) ≤ p} (ceilBoundary s n) :=
  ⟨⟨isBoundary_ceilBoundary s n, le_ceilBoundary s n⟩, fun _ hp => ceilBoundary_le hp.1 hp.2⟩

theorem monotone_ceilBoundary (s : Text) : Monotone (ceilBoundary s) := by
  intro n m hnm
  refine ceilBoundary_le (isBoundary_ceilBoundary s m) ?_
  have hm := le_ceilBoundary s m
  omega

/-- Going on by single bytes from an offset leads to a boundary after some number of steps, and to
none before. -/
inductive Rounds (s : Text) : Nat → Nat → Nat → Prop
  | stop {pos : Nat} : IsBoundary s pos → Rounds s pos 0 pos
  | step {pos steps stop : Nat} : ¬IsBoundary s pos → Rounds s (pos + 1) steps stop →
      Rounds s pos (steps + 1) stop

theorem rounds_iff {s : Text} {pos steps stop : Nat} :
    Rounds s pos steps stop ↔
      pos + steps = stop ∧ IsLeast {p | IsBoundary s p ∧ pos ≤ p} stop := by
  constructor
  · intro h
    induction h with
    | @stop pos hpos => exact ⟨rfl, ⟨hpos, Nat.le_refl pos⟩, fun p hp => hp.2⟩
    | @step pos steps stop hpos _ ih =>
      obtain ⟨hsum, ⟨hstop, hle⟩, hleast⟩ := ih
      refine ⟨by omega, ⟨hstop, by omega⟩, ?_⟩
      rintro p ⟨hp, hposp⟩
      have hne : pos ≠ p := by
        rintro rfl
        exact hpos hp
      exact hleast ⟨hp, by omega⟩
  · rintro ⟨rfl, h⟩
    induction steps generalizing pos with
    | zero => exact .stop h.1.1
    | succ steps ih =>
      have hsum : pos + (steps + 1) = pos + 1 + steps := by omega
      rw [hsum] at h ⊢
      refine .step ?_ (ih ⟨⟨h.1.1, by omega⟩, ?_⟩)
      · intro hpos
        have hle := h.2 ⟨hpos, Nat.le_refl pos⟩
        omega
      · exact fun p hp => h.2 ⟨hp.1, Nat.le_of_succ_le hp.2⟩

/-- From no offset up to the end does it take more than three steps. -/
theorem exists_rounds (s : Text) (n : Nat) :
    ∃ steps ≤ 3, Rounds s (min n (byteSize s)) steps (ceilBoundary s n) := by
  have hlow := le_ceilBoundary s n
  have hhigh := ceilBoundary_le_add_three s n
  exact ⟨ceilBoundary s n - min n (byteSize s), by omega,
    rounds_iff.mpr ⟨by omega, isLeast_ceilBoundary s n⟩⟩

/-! ## Parts that are cut off in front -/

/-- The code points of a text that begins at an offset, each with the offset it begins at. -/
def offsetsFrom (start : Nat) : Text → List (Nat × Char)
  | [] => []
  | c :: cs => (start, c) :: offsetsFrom (start + c.utf8Size) cs

theorem offset_take (start : Nat) (s : Text) (n : Nat) :
    (offsetsFrom start s)[n]?.elim (start + byteSize s) Prod.fst =
      start + byteSize (s.take n) := by
  induction s generalizing start n with
  | nil => rw [List.take_nil]; rfl
  | cons c cs ih =>
    cases n with
    | zero => rfl
    | succ n =>
      rw [offsetsFrom, List.getElem?_cons_succ, List.take_succ_cons, byteSize_cons, byteSize_cons,
        ← Nat.add_assoc, ← Nat.add_assoc, ih]

theorem offset_takeWhile (start : Nat) (s : Text) (p : Char → Bool) :
    ((offsetsFrom start s).find? fun entry => !p entry.2).elim (start + byteSize s) Prod.fst =
      start + byteSize (s.takeWhile p) := by
  induction s generalizing start with
  | nil => rfl
  | cons c cs ih =>
    rw [offsetsFrom, List.find?_cons, List.takeWhile_cons, byteSize_cons]
    cases p c with
    | true =>
      simp only [Bool.not_true, if_true]
      rw [byteSize_cons, ← Nat.add_assoc, ← Nat.add_assoc, ih]
    | false => rfl

end TermLexer.Text
