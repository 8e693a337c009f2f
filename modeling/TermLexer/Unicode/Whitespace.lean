import TermLexer.Unicode.Ranges

/-!
# White space

The code points with the property White_Space. They separate tokens and are never part of a run.
-/

namespace TermLexer.Unicode

def whitespace : Ranges := [
  (0x9, 0xD), (0x20, 0x20), (0x85, 0x85), (0xA0, 0xA0), (0x1680, 0x1680), (0x2000, 0x200A),
  (0x2028, 0x2029), (0x202F, 0x202F), (0x205F, 0x205F), (0x3000, 0x3000)]

/-- The code points that separate tokens. -/
def isWhitespace (c : Char) : Bool := whitespace.covers c

end TermLexer.Unicode
