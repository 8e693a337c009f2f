import TermLexer.Span.Basic
import TermLexer.Text.Boundary

/-!
# Cutting out a span

The text of a span is found by two cuts. A span that ends before it starts has no text, and neither
has one of which an end is no boundary.
-/

namespace TermLexer.Text

/-- The part of a text that a span covers, if both its ends are boundaries in their order. -/
def slice? (s : Text) (span : Span) : Option Text :=
  if span.start ≤ span.stop then
    (dropBytes s span.start).bind (takeBytes · (span.stop - span.start))
  else none

def slice (s : Text) (span : Span) : Except Fault Text :=
  match s.slice? span with
  | some covered => .ok covered
  | none => .error (.outside span.start span.stop)

/-- The middle of three parts is the text of the span between the two cuts. -/
theorem slice?_append (a b c : Text) :
    slice? (a ++ (b ++ c)) ⟨byteSize a, byteSize a + byteSize b⟩ = some b := by
  have hle : byteSize a ≤ byteSize a + byteSize b := by omega
  simp [slice?, hle]

theorem slice_append (a b c : Text) :
    slice (a ++ (b ++ c)) ⟨byteSize a, byteSize a + byteSize b⟩ = .ok b := by
  simp [slice, slice?_append]

/-- A span has a text exactly if the text falls into three parts of which it is the middle. -/
theorem slice?_eq_some_iff {s b : Text} {span : Span} :
    slice? s span = some b ↔
      ∃ a c, s = a ++ (b ++ c) ∧ byteSize a = span.start ∧ byteSize a + byteSize b = span.stop := by
  obtain ⟨start, stop⟩ := span
  constructor
  · intro h
    simp only [slice?] at h
    split at h
    · rename_i hle
      obtain ⟨t, ht, hb⟩ := Option.bind_eq_some_iff.1 h
      obtain ⟨a, rfl, ha⟩ := dropBytes_eq_some_iff.1 ht
      obtain ⟨c, rfl, hsize⟩ := takeBytes_eq_some_iff.1 hb
      exact ⟨a, c, rfl, ha, by simp only at hle hsize ha ⊢; omega⟩
    · simp at h
  · rintro ⟨a, c, rfl, rfl, rfl⟩
    exact slice?_append a b c

end TermLexer.Text
