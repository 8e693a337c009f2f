import TermLexer.Unicode.Alphabetic
import TermLexer.Unicode.Numeric

/-!
# Alphanumeric code points
-/

namespace TermLexer.Unicode

/-- The code points of which a word goes on. -/
def isAlphanumeric (c : Char) : Bool := isAlphabetic c || isNumeric c

end TermLexer.Unicode
