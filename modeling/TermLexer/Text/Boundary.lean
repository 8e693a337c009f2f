import TermLexer.Text.Basic

/-!
# Boundaries

A byte offset is a boundary of a text if the text can be cut there without splitting a code point.
`takeBytes` and `dropBytes` give the two parts of the cut, and `ceilBoundary` finds the first
boundary at or after an offset.
-/

namespace TermLexer.Text

/-- The text can be cut after its first `n` bytes. -/
def IsBoundary (s : Text) (n : Nat) : Prop := ∃ a b, s = a ++ b ∧ byteSize a = n

/-- The first `n` bytes of a text, if they end at a boundary. -/
def takeBytes : Text → Nat → Option Text
  | [], n => if n = 0 then some [] else none
  | c :: cs, n =>
    if n = 0 then some []
    else if c.utf8Size ≤ n then (takeBytes cs (n - c.utf8Size)).map (c :: ·)
    else none

/-- What follows the first `n` bytes of a text, if they end at a boundary. -/
def dropBytes : Text → Nat → Option Text
  | [], n => if n = 0 then some [] else none
  | c :: cs, n =>
    if n = 0 then some (c :: cs)
    else if c.utf8Size ≤ n then dropBytes cs (n - c.utf8Size)
    else none

/-- The least boundary that is not below `n`, or the end of the text if `n` is beyond it. -/
def ceilBoundary : Text → Nat → Nat
  | [], _ => 0
  | c :: cs, n => if n = 0 then 0 else c.utf8Size + ceilBoundary cs (n - c.utf8Size)

/-! ## Cutting -/

@[simp] theorem takeBytes_append (a b : Text) : takeBytes (a ++ b) (byteSize a) = some a := by
  induction a with
  | nil => cases b <;> simp [takeBytes]
  | cons c cs ih =>
    have hc : c.utf8Size ≠ 0 := Nat.pos_iff_ne_zero.1 c.utf8Size_pos
    simp [takeBytes, hc, ih]

@[simp] theorem dropBytes_append (a b : Text) : dropBytes (a ++ b) (byteSize a) = some b := by
  induction a with
  | nil => cases b <;> simp [dropBytes]
  | cons c cs ih =>
    have hc : c.utf8Size ≠ 0 := Nat.pos_iff_ne_zero.1 c.utf8Size_pos
    simp [dropBytes, hc, ih]

/-- The first `n` bytes are the part of size `n` that the text begins with. -/
theorem takeBytes_eq_some_iff {s a : Text} {n : Nat} :
    takeBytes s n = some a ↔ ∃ b, s = a ++ b ∧ byteSize a = n := by
  constructor
  · intro h
    induction s generalizing n a with
    | nil =>
      simp only [takeBytes] at h
      split at h <;> simp_all
    | cons c cs ih =>
      simp only [takeBytes] at h
      split at h
      · exact ⟨c :: cs, by simp_all⟩
      · split at h
        · obtain ⟨u, hu, rfl⟩ := Option.map_eq_some_iff.1 h
          obtain ⟨b, hs, hn⟩ := ih hu
          exact ⟨b, by rw [hs, List.cons_append], by rw [byteSize_cons]; omega⟩
        · simp at h
  · rintro ⟨b, rfl, rfl⟩
    exact takeBytes_append a b

/-- What follows the first `n` bytes is what follows a part of size `n`. -/
theorem dropBytes_eq_some_iff {s b : Text} {n : Nat} :
    dropBytes s n = some b ↔ ∃ a, s = a ++ b ∧ byteSize a = n := by
  constructor
  · intro h
    induction s generalizing n with
    | nil =>
      simp only [dropBytes] at h
      split at h <;> simp_all
    | cons c cs ih =>
      simp only [dropBytes] at h
      split at h
      · exact ⟨[], by simp_all⟩
      · split at h
        · obtain ⟨a, hs, hn⟩ := ih h
          exact ⟨c :: a, by rw [hs, List.cons_append], by rw [byteSize_cons]; omega⟩
        · simp at h
  · rintro ⟨a, rfl, rfl⟩
    exact dropBytes_append a b

/-- A text has one cut of each size. -/
theorem append_inj_of_byteSize {a b c d : Text} (h : a ++ b = c ++ d)
    (hsize : byteSize a = byteSize c) : a = c ∧ b = d := by
  have htake := takeBytes_append a b
  have hdrop := dropBytes_append a b
  rw [h, hsize] at htake hdrop
  rw [takeBytes_append] at htake
  rw [dropBytes_append] at hdrop
  exact ⟨(Option.some.inj htake).symm, (Option.some.inj hdrop).symm⟩

/-- Of two cuts of a text the later one cuts what follows the earlier one. -/
theorem exists_append_of_byteSize_le {a b c d : Text} (h : a ++ b = c ++ d)
    (hle : byteSize a ≤ byteSize c) : ∃ m, c = a ++ m ∧ b = m ++ d := by
  rcases List.append_eq_append_iff.mp h with ⟨m, hc, hb⟩ | ⟨m, ha, hd⟩
  · exact ⟨m, hc, hb⟩
  · have hm : m = [] := by
      rw [ha, byteSize_append] at hle
      exact byteSize_eq_zero.mp (by omega)
    subst hm
    exact ⟨[], by simp [ha], by simp [hd]⟩

theorem eq_of_prefix_of_byteSize {a b s : Text} (ha : a <+: s) (hb : b <+: s)
    (hsize : byteSize a = byteSize b) : a = b := by
  obtain ⟨u, rfl⟩ := ha
  obtain ⟨v, hv⟩ := hb
  exact (append_inj_of_byteSize hv.symm hsize).1

/-! ## Boundaries -/

/-- A text can be cut exactly at its boundaries. -/
theorem isSome_dropBytes_iff {s : Text} {n : Nat} : (dropBytes s n).isSome ↔ IsBoundary s n := by
  rw [Option.isSome_iff_exists]
  constructor
  · rintro ⟨b, h⟩
    obtain ⟨a, ha⟩ := dropBytes_eq_some_iff.1 h
    exact ⟨a, b, ha⟩
  · rintro ⟨a, b, h⟩
    exact ⟨b, dropBytes_eq_some_iff.2 ⟨a, h⟩⟩

instance (s : Text) (n : Nat) : Decidable (IsBoundary s n) :=
  decidable_of_iff _ isSome_dropBytes_iff

theorem isBoundary_zero (s : Text) : IsBoundary s 0 := ⟨[], s, rfl, rfl⟩

theorem isBoundary_byteSize (s : Text) : IsBoundary s (byteSize s) :=
  ⟨s, [], (List.append_nil s).symm, rfl⟩

@[simp] theorem ceilBoundary_zero (s : Text) : ceilBoundary s 0 = 0 := by
  cases s <;> simp [ceilBoundary]

@[simp] theorem ceilBoundary_one (s : Text) : ceilBoundary s 1 = byteSize (s.take 1) := by
  cases s with
  | nil => rfl
  | cons c cs => simp [ceilBoundary, Nat.sub_eq_zero_of_le c.utf8Size_pos]

/-- Behind a part of the text the next boundary is one of what follows the part. -/
theorem ceilBoundary_append_add (a b : Text) (n : Nat) :
    ceilBoundary (a ++ b) (byteSize a + n) = byteSize a + ceilBoundary b n := by
  induction a with
  | nil => simp
  | cons c cs ih =>
    have hc : c.utf8Size ≠ 0 := Nat.pos_iff_ne_zero.1 c.utf8Size_pos
    simp [ceilBoundary, hc, ih, Nat.add_assoc]

@[simp] theorem ceilBoundary_append (a b : Text) :
    ceilBoundary (a ++ b) (byteSize a) = byteSize a := by
  have h := ceilBoundary_append_add a b 0
  rwa [ceilBoundary_zero] at h

theorem IsBoundary.le_byteSize {s : Text} {n : Nat} (h : IsBoundary s n) : n ≤ byteSize s := by
  obtain ⟨a, b, rfl, rfl⟩ := h
  rw [byteSize_append]
  omega

theorem isBoundary_ceilBoundary (s : Text) (n : Nat) : IsBoundary s (ceilBoundary s n) := by
  induction s generalizing n with
  | nil => exact isBoundary_zero []
  | cons c cs ih =>
    rw [ceilBoundary]
    split
    · exact isBoundary_zero (c :: cs)
    · obtain ⟨a, b, hcut, hsize⟩ := ih (n - c.utf8Size)
      exact ⟨c :: a, b, by rw [hcut, List.cons_append], by rw [byteSize_cons, hsize]⟩

theorem le_ceilBoundary (s : Text) (n : Nat) : min n (byteSize s) ≤ ceilBoundary s n := by
  induction s generalizing n with
  | nil => exact Nat.min_le_right n 0
  | cons c cs ih =>
    have htail := ih (n - c.utf8Size)
    rw [ceilBoundary, byteSize_cons]
    split
    · omega
    · omega

theorem isBoundary_cons_iff {c : Char} {cs : Text} {n : Nat} :
    IsBoundary (c :: cs) n ↔ n = 0 ∨ ∃ m, IsBoundary cs m ∧ n = c.utf8Size + m := by
  constructor
  · rintro ⟨a, b, hcut, rfl⟩
    cases a with
    | nil => exact .inl rfl
    | cons d ds =>
      rw [List.cons_append, List.cons.injEq] at hcut
      obtain ⟨rfl, rfl⟩ := hcut
      exact .inr ⟨byteSize ds, ⟨ds, b, rfl, rfl⟩, rfl⟩
  · rintro (rfl | ⟨_, ⟨a, b, rfl, rfl⟩, rfl⟩)
    · exact isBoundary_zero (c :: cs)
    · exact ⟨c :: a, b, rfl, rfl⟩

/-- No boundary is passed over. -/
theorem ceilBoundary_le {s : Text} {n p : Nat} (h : IsBoundary s p)
    (hle : min n (byteSize s) ≤ p) : ceilBoundary s n ≤ p := by
  induction s generalizing n p with
  | nil => exact Nat.zero_le p
  | cons c cs ih =>
    have hpos := c.utf8Size_pos
    rw [byteSize_cons] at hle
    rw [ceilBoundary]
    split
    · exact Nat.zero_le p
    · rcases isBoundary_cons_iff.mp h with rfl | ⟨m, hm, rfl⟩
      · omega
      · exact Nat.add_le_add_left (ih hm (by omega)) c.utf8Size

/-- A code point has at most four bytes, so three more lead out of it. -/
theorem ceilBoundary_le_add_three (s : Text) (n : Nat) :
    ceilBoundary s n ≤ min n (byteSize s) + 3 := by
  induction s generalizing n with
  | nil => exact Nat.zero_le _
  | cons c cs ih =>
    have hfour := c.utf8Size_le_four
    have htail := ih (n - c.utf8Size)
    rw [ceilBoundary, byteSize_cons]
    split
    · exact Nat.zero_le _
    · by_cases hn : n ≤ c.utf8Size
      · rw [Nat.sub_eq_zero_of_le hn, ceilBoundary_zero]
        omega
      · omega

/-- Beyond the end there is no boundary, so an offset may as well be cut down to the size. -/
theorem ceilBoundary_min (s : Text) (n : Nat) :
    ceilBoundary s (min n (byteSize s)) = ceilBoundary s n := by
  induction s generalizing n with
  | nil => rfl
  | cons c cs ih =>
    have hpos := c.utf8Size_pos
    have htail := ih (n - c.utf8Size)
    have hcut : min n (c.utf8Size + byteSize cs) - c.utf8Size =
        min (n - c.utf8Size) (byteSize cs) := by omega
    rw [ceilBoundary, ceilBoundary, byteSize_cons, hcut, htail]
    by_cases hn : n = 0
    · rw [if_pos hn, if_pos (by omega)]
    · rw [if_neg hn, if_neg (by omega)]

end TermLexer.Text
