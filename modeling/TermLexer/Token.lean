import TermLexer.Span.Basic
import TermLexer.Text.Basic

/-!
# Tokens

A token is a stretch of a text with the rule by which it was recognised.
-/

namespace TermLexer

namespace Token

/-- The rule by which a token was recognised. -/
inductive Kind where
  | special
  | number
  | word
  | symbol
  deriving DecidableEq, Repr

/-- The name of a kind in a log. -/
def Kind.name : Kind → String
  | .special => "Special"
  | .number => "Number"
  | .word => "Word"
  | .symbol => "Symbol"

end Token

/-- A recognised stretch of a text. -/
structure Token where
  kind : Token.Kind
  span : Span
  text : Text
  deriving DecidableEq, Repr

end TermLexer
