import TermLexer.Term.Set
import TermLexer.Token
import TermLexer.Unicode.Alphanumeric
import TermLexer.Unicode.Whitespace

/-!
# Pieces

The pieces of a text are its separators and its tokens in order, with nothing left out. The rules
for the token at a code point are tried in turn: the longest special term, a run of numeric code
points, an alphabetic code point with the alphanumeric ones after it, and else the code point
alone.

The tokens of a text are its pieces without the separators, placed at their byte offsets. The lexer
of `TermLexer.Lexer` finds the same tokens one at a time.
-/

namespace TermLexer

open TermLexer.Unicode

/-- A separator or a token. -/
inductive Piece where
  | blank (c : Char)
  | token (kind : Token.Kind) (text : Text)
  deriving DecidableEq, Repr

namespace Piece

def text : Piece → Text
  | blank c => [c]
  | token _ t => t

/-- The tokens of pieces of which the first stands at `pos`. -/
def placeFrom (pos : Nat) : List Piece → List Token
  | [] => []
  | blank c :: rest => placeFrom (pos + c.utf8Size) rest
  | token kind t :: rest =>
    ⟨kind, ⟨pos, pos + Text.byteSize t⟩, t⟩ :: placeFrom (pos + Text.byteSize t) rest

end Piece

/-- The longest special term that the text begins with. Without a set there is none. -/
def matchTerm (terms : Option TermSet) (text : Text) : Option Text :=
  terms.bind (·.longestPrefix? text)

/-- The kind of the token that begins with `c` before `cs`, and how many code points of `cs` belong
to it. -/
def munch (terms : Option TermSet) (c : Char) (cs : Text) : Token.Kind × Nat :=
  match matchTerm terms (c :: cs) with
  | some term => (.special, term.length - 1)
  | none =>
    if isNumeric c then (.number, (cs.takeWhile isNumeric).length)
    else if isAlphabetic c then (.word, (cs.takeWhile isAlphanumeric).length)
    else (.symbol, 0)

/-- The pieces of a text that is folded already. -/
def pieces (terms : Option TermSet) : Text → List Piece
  | [] => []
  | c :: cs =>
    if isWhitespace c then .blank c :: pieces terms cs
    else
      .token (munch terms c cs).1 (c :: cs.take (munch terms c cs).2) ::
        pieces terms (cs.drop (munch terms c cs).2)
termination_by text => text.length
decreasing_by
  · simp
  · simp only [List.length_cons, List.length_drop]
    omega

/-- The tokens of a text that is folded already. -/
def tokens (terms : Option TermSet) (text : Text) : List Token :=
  Piece.placeFrom 0 (pieces terms text)

/-- The texts of the tokens of a text, which is folded first. -/
def tokenize (text : Text) (terms : Option TermSet) : List Text :=
  (tokens terms (Text.fold text)).map Token.text

theorem flatMap_text_pieces (terms : Option TermSet) (text : Text) :
    (pieces terms text).flatMap Piece.text = text := by
  fun_induction pieces terms text with
  | case1 => rfl
  | case2 c cs _ ih => simp [Piece.text, ih]
  | case3 c cs _ ih => simp [Piece.text, ih]

end TermLexer
