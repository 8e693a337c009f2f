import TermLexer.Span.Basic
import TermLexer.Value

/-!
# Spans as structured values

A span is written as a record of its two ends. It is read from such a record, whatever other fields
that has, and also from a list of the two ends.
-/

namespace TermLexer.Span

def toValue (s : Span) : Value :=
  .record [("start", .integer s.start), ("end", .integer s.stop)]

def ofValue? : Value → Option Span
  | .record fields => do
    let start ← (fields.lookup "start").bind Value.offset?
    let stop ← (fields.lookup "end").bind Value.offset?
    return ⟨start, stop⟩
  | .list [first, second] => do
    let start ← first.offset?
    let stop ← second.offset?
    return ⟨start, stop⟩
  | _ => none

/-- A span whose ends are offsets is read back from its stored form. -/
theorem ofValue?_toValue {s : Span} (hstart : s.start < Value.offsetLimit)
    (hstop : s.stop < Value.offsetLimit) : ofValue? s.toValue = some s := by
  have h₁ := Value.offset?_integer hstart
  have h₂ := Value.offset?_integer hstop
  simp [toValue, ofValue?, List.lookup_cons, h₁, h₂]

end TermLexer.Span
