import TermLexer.Text.Basic
import TermLexer.Unicode.Cased
import TermLexer.Unicode.Ignorable
import TermLexer.Unicode.Lowercase

/-!
# Case folding

Folding writes every code point in lower case. Two code points need more than the simple mapping:
the dotted capital i becomes two code points, and the capital sigma becomes the final small sigma
where it ends a word. Whether it does is read off the text before folding, on both sides and past
any ignorable code points.
-/

namespace TermLexer.Text

open TermLexer.Unicode

/-- The nearest code point of a side that is not ignorable is cased. -/
def meetsCased (side : Text) : Bool :=
  match side.dropWhile isIgnorable with
  | [] => false
  | c :: _ => isCased c

/-- A sigma between the two sides ends a word. The side before it is listed from the sigma
outwards. -/
def endsWord (before after : Text) : Bool := meetsCased before && !meetsCased after

/-- The folded form of a code point between the two sides. -/
def foldChar (before : Text) (c : Char) (after : Text) : Text :=
  if c = 'Σ' then [if endsWord before after then 'ς' else 'σ']
  else if c = 'İ' then ['i', '\u0307']
  else [toLower c]

/-- Folds a text that has `before`, listed backwards, in front of it. -/
def foldAfter (before : Text) : Text → Text
  | [] => []
  | c :: after => foldChar before c after ++ foldAfter (c :: before) after

def fold (s : Text) : Text := foldAfter [] s

@[simp] theorem fold_nil : fold [] = [] := rfl

theorem foldChar_ne_nil (before : Text) (c : Char) (after : Text) :
    foldChar before c after ≠ [] := by
  unfold foldChar
  split
  · simp
  · split <;> simp

/-- Folding loses no code point, so only the empty text folds to the empty text. -/
theorem fold_eq_nil {s : Text} : fold s = [] ↔ s = [] := by
  cases s with
  | nil => simp
  | cons c cs => simp [fold, foldAfter, foldChar_ne_nil]

end TermLexer.Text
