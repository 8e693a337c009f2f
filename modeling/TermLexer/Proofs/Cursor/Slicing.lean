import TermLexer.Proofs.Cursor.Session
import TermLexer.Proofs.Text.Bytes

/-! # Cutting out parts of a text

A range of offsets has a text exactly if it does not end before it starts and both its ends are
boundaries, for then they cut the whole into three parts and the text is the middle one. A cursor
looks at the order of the ends first and reports a wrong one with a text of its own; where the order is
right it refuses what the text refuses. It makes no difference where the cursor stands. -/

namespace TermLexer

open TermLexer.Text

namespace Text

/-! ## Parts between two boundaries -/

section

variable {s : Text}

/-- Two boundaries in their order cut a text into three parts. -/
theorem IsBoundary.exists_parts {i j : Nat} (hi : IsBoundary s i) (hj : IsBoundary s j)
    (hle : i ≤ j) : ∃ a b c, s = a ++ (b ++ c) ∧ byteSize a = i ∧ byteSize a + byteSize b = j := by
  obtain ⟨a, rest, rfl, rfl⟩ := hi
  obtain ⟨front, c, hcut, rfl⟩ := hj
  obtain ⟨b, rfl, rfl⟩ := exists_append_of_byteSize_le hcut hle
  exact ⟨a, b, c, rfl, rfl, (byteSize_append a b).symm⟩

theorem slice_eq_ok_iff {span : Span} {part : Text} :
    slice s span = .ok part ↔ slice? s span = some part := by
  unfold slice
  cases slice? s span <;> simp

theorem slice?_isSome_iff {start stop : Nat} : (slice? s ⟨start, stop⟩).isSome ↔
    start ≤ stop ∧ IsBoundary s start ∧ IsBoundary s stop := by
  rw [Option.isSome_iff_exists]
  constructor
  · rintro ⟨b, hb⟩
    obtain ⟨a, c, rfl, rfl, rfl⟩ := slice?_eq_some_iff.mp hb
    refine ⟨Nat.le_add_right _ _, ⟨a, b ++ c, rfl, rfl⟩, a ++ b, c, ?_, byteSize_append a b⟩
    exact (List.append_assoc a b c).symm
  · rintro ⟨hle, hstart, hstop⟩
    obtain ⟨a, b, c, rfl, rfl, rfl⟩ := hstart.exists_parts hstop hle
    exact ⟨b, slice?_append a b c⟩

/-- The bytes of what is cut out are the bytes between the two offsets. -/
theorem utf8_of_slice? {start stop : Nat} {part : Text} (h : slice? s ⟨start, stop⟩ = some part) :
    utf8 part = (utf8 s).extract start stop := by
  obtain ⟨a, c, rfl, rfl, rfl⟩ := slice?_eq_some_iff.mp h
  rw [utf8_append, utf8_append, ← length_utf8, ← length_utf8, List.extract_eq_take_drop,
    Nat.add_sub_cancel_left, List.drop_left, List.take_left]

/-- What is cut out of two adjoining ranges is cut out of both together. -/
theorem slice_adjoining {i j k : Nat} (hi : IsBoundary s i) (hj : IsBoundary s j)
    (hk : IsBoundary s k) (hij : i ≤ j) (hjk : j ≤ k) : ∃ u v,
      slice s ⟨i, j⟩ = .ok u ∧ slice s ⟨j, k⟩ = .ok v ∧ slice s ⟨i, k⟩ = .ok (u ++ v) := by
  obtain ⟨front, v, c, rfl, rfl, rfl⟩ := hj.exists_parts hk hjk
  obtain ⟨a, u, rest, hcut, rfl, hsize⟩ := hi.exists_parts hj hij
  obtain ⟨rfl, rfl⟩ := append_inj_of_byteSize ((List.append_assoc a u rest).trans hcut.symm)
    ((byteSize_append a u).trans hsize)
  refine ⟨u, v, ?_, slice_append (a ++ u) v c, ?_⟩
  · rw [List.append_assoc, byteSize_append]
    exact slice_append a u (v ++ c)
  · rw [List.append_assoc, ← List.append_assoc u, ← byteSize_append, List.append_assoc a,
      byteSize_append]
    exact slice_append a (u ++ v) c

end

end Text

namespace Cursor

/-! ## What a cursor answers -/

/-- How the text between two offsets is cut out of a text. -/
structure Cuts (text : Text) (start stop : Nat) (answer : Except Fault Text) : Prop where
  /-- Ends in the wrong order are reported, whatever else there is to refuse. -/
  reversed : (∃ fault, answer = .error fault ∧ fault.message? =
      some ("slice start " ++ toString start ++ " exceeds end " ++ toString stop)) ↔ stop < start
  unreported : (∃ fault, answer = .error fault ∧ fault.message? = none) ↔
    start ≤ stop ∧ (byteSize text < stop ∨ ¬IsBoundary text start ∨ ¬IsBoundary text stop)
  answered : (∃ part, answer = .ok part) ↔
    start ≤ stop ∧ stop ≤ byteSize text ∧ IsBoundary text start ∧ IsBoundary text stop
  bytes : ∀ part, answer = .ok part → utf8 part = (utf8 text).extract start stop

/-- The three ways in which cutting out a text can end. -/
inductive Outcome (text : Text) (start stop : Nat) : Except Fault Text → Prop
  | reversed : stop < start → Outcome text start stop (.error (.reversed start stop))
  | outside : start ≤ stop → ¬(IsBoundary text start ∧ IsBoundary text stop) →
      Outcome text start stop (.error (.outside start stop))
  | part {part : Text} : start ≤ stop → IsBoundary text start → IsBoundary text stop →
      utf8 part = (utf8 text).extract start stop → Outcome text start stop (.ok part)

theorem outcome_slice (c : Cursor) (start stop : Nat) :
    Outcome c.text start stop (c.slice start stop) := by
  rw [slice]
  split
  · exact .reversed ‹_›
  · rename_i hle
    have hle := Nat.le_of_not_lt hle
    cases hslice : slice? c.text ⟨start, stop⟩ with
    | none =>
      rw [Text.slice, hslice]
      have hno := mt slice?_isSome_iff.mpr (by rw [hslice]; exact Bool.false_ne_true)
      exact .outside hle fun h => hno ⟨hle, h⟩
    | some part =>
      obtain ⟨_, hstart, hstop⟩ := slice?_isSome_iff.mp (Option.isSome_of_eq_some hslice)
      rw [slice_eq_ok_iff.mpr hslice]
      exact .part hle hstart hstop (utf8_of_slice? hslice)

theorem Outcome.cuts {text : Text} {start stop : Nat} {answer : Except Fault Text}
    (h : Outcome text start stop answer) : Cuts text start stop answer := by
  cases h with
  | reversed hlt =>
    have hnot : ¬start ≤ stop := Nat.not_le_of_lt hlt
    refine ⟨?_, ?_, ?_, nofun⟩
    · simp [Fault.message?, hlt]
    · simp [Fault.message?, hnot]
    · simp [hnot]
  | outside hle hno =>
    have hnot : ¬stop < start := Nat.not_lt_of_le hle
    refine ⟨?_, ?_, ?_, nofun⟩
    · simp [Fault.message?, hnot]
    · have hwhere := Classical.not_and_iff_not_or_not.mp hno
      simp [Fault.message?, hle, hwhere]
    · simp only [reduceCtorEq, exists_false, false_iff]
      exact fun h => hno h.2.2
  | part hle hstart hstop hbytes =>
    have hnot : ¬stop < start := Nat.not_lt_of_le hle
    have hinside := hstop.le_byteSize
    refine ⟨?_, ?_, ?_, ?_⟩
    · simp [hnot]
    · simp [hstart, hstop, hinside]
    · simp [hle, hstart, hstop, hinside]
    · rintro _ ⟨⟩
      exact hbytes

/-- A cursor cuts out what its text cuts out. -/
theorem slice_eq_ok_iff {c : Cursor} {start stop : Nat} {part : Text} :
    c.slice start stop = .ok part ↔ Text.slice c.text ⟨start, stop⟩ = .ok part := by
  rw [slice]
  split
  · rename_i hlt
    constructor
    · intro h
      cases h
    · intro h
      have hsome := Option.isSome_of_eq_some (Text.slice_eq_ok_iff.mp h)
      exact absurd (slice?_isSome_iff.mp hsome).1 (Nat.not_le_of_lt hlt)
  · exact Iff.rfl

/-- **A text is cut out between two offsets exactly if they are boundaries in their order**, wherever
the cursor stands, and its bytes are those between the offsets. The order is checked first and is
the only thing that is reported with a text. The text itself gives the same part to the same range,
up to the cursor everything from a boundary before it can be cut out, and what is cut out of
adjoining ranges adds up. -/
theorem slice_reached {text : Text} {c : Cursor} (h : Reached (fold text) c) :
    (∀ start stop, Cuts (fold text) start stop (c.slice start stop)) ∧
      (∀ start stop part, Text.slice (fold text) ⟨start, stop⟩ = .ok part ↔
        c.slice start stop = .ok part) ∧
      (∀ start, c.sliceFrom start = c.slice start c.pos ∧
        ((∃ part, c.sliceFrom start = .ok part) ↔
          start ≤ c.pos ∧ IsBoundary (fold text) start)) ∧
      (∀ i j k, i ≤ j → j ≤ k → IsBoundary (fold text) i → IsBoundary (fold text) j →
        IsBoundary (fold text) k → ∃ u v, c.slice i j = .ok u ∧ c.slice j k = .ok v ∧
          c.slice i k = .ok (u ++ v)) ∧
      ∀ n, IsBoundary (fold text) n ↔ n = byteSize (fold text) ∨
        ∃ b, (utf8 (fold text))[n]? = some b ∧ b.IsUTF8FirstByte := by
  have hsound := h.sound
  have htext := hsound.text_eq
  have hcuts : ∀ start stop, Cuts (fold text) start stop (c.slice start stop) :=
    fun start stop => htext ▸ (outcome_slice c start stop).cuts
  refine ⟨hcuts, ?_, fun start => ⟨rfl, ?_⟩, ?_, fun _ => isBoundary_iff_firstByte⟩
  · intro start stop part
    rw [slice_eq_ok_iff, htext]
  · refine (hcuts start c.pos).answered.trans ⟨fun h => ⟨h.1, h.2.2.1⟩, fun h => ?_⟩
    exact ⟨h.1, hsound.inside, h.2, hsound.boundary⟩
  · intro i j k hij hjk hi hj hk
    obtain ⟨u, v, hu, hv, huv⟩ := slice_adjoining hi hj hk hij hjk
    rw [← htext] at hu hv huv
    exact ⟨u, v, slice_eq_ok_iff.mpr hu, slice_eq_ok_iff.mpr hv, slice_eq_ok_iff.mpr huv⟩

/-- The theorem at code points of one, two and four bytes: ends in the wrong order, an end within a
code point, and two adjoining ranges of which the second passes the cursor. -/
theorem slice_reached_multibyte :
    Reached (fold ['É', ' ', '𝄞']) ⟨['é', ' ', '𝄞'], 3⟩ ∧
      (∃ fault, slice ⟨['é', ' ', '𝄞'], 3⟩ 9 1 = .error fault ∧ fault.message? =
        some ("slice start " ++ toString 9 ++ " exceeds end " ++ toString 1)) ∧
      (∃ fault, slice ⟨['é', ' ', '𝄞'], 3⟩ 1 3 = .error fault ∧ fault.message? = none) ∧
      (∃ part, sliceFrom ⟨['é', ' ', '𝄞'], 3⟩ 2 = .ok part) ∧
      ∃ u v, slice ⟨['é', ' ', '𝄞'], 3⟩ 0 2 = .ok u ∧ slice ⟨['é', ' ', '𝄞'], 3⟩ 2 7 = .ok v ∧
        slice ⟨['é', ' ', '𝄞'], 3⟩ 0 7 = .ok (u ++ v) := by
  have h : Reached (fold ['É', ' ', '𝄞']) ⟨['é', ' ', '𝄞'], 3⟩ :=
    .of_command (.take 2) (by decide +kernel)
  obtain ⟨hcuts, _, hfrom, hadjoin, _⟩ := slice_reached h
  refine ⟨h, (hcuts 9 1).reversed.mpr (by decide), ?_, ?_, ?_⟩
  · exact (hcuts 1 3).unreported.mpr ⟨by decide, .inr (.inl (by decide +kernel))⟩
  · exact (hfrom 2).2.mpr ⟨by decide, by decide +kernel⟩
  · exact hadjoin 0 2 7 (by decide) (by decide) (by decide +kernel) (by decide +kernel)
      (by decide +kernel)

end Cursor

end TermLexer
