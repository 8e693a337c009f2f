import TermLexer.Fault

/-!
# Spans

A span is a half-open range of byte offsets. Its two ends are free: a span that ends before it
starts can be held, compared and shown, and is refused where its length or its text is asked for.
-/

namespace TermLexer

/-- The byte offsets from `start` up to and without `stop`. -/
structure Span where
  start : Nat := 0
  stop : Nat := 0
  deriving DecidableEq, Repr, Inhabited

namespace Span

/-- The number of bytes covered. -/
def length (s : Span) : Except Fault Nat := distance s.start s.stop

def isEmpty (s : Span) : Bool := s.start == s.stop

def contains (s : Span) (offset : Nat) : Bool := s.start ≤ offset && offset < s.stop

/-- The written form of a span, its two ends with two points between. -/
def render (s : Span) : String := toString s.start ++ ".." ++ toString s.stop

@[simp] theorem contains_eq_true {s : Span} {offset : Nat} :
    s.contains offset = true ↔ s.start ≤ offset ∧ offset < s.stop := by
  simp [contains]

end Span

end TermLexer
