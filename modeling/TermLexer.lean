import TermLexer.Cursor.Session
import TermLexer.Lexer.Log
import TermLexer.Lexer.Stream
import TermLexer.Proofs.Lexer.Findable
import TermLexer.Proofs.Lexer.Interleave
import TermLexer.Proofs.Lexer.Safety
import TermLexer.Proofs.Lexer.Split
import TermLexer.Proofs.Term.Canonical
import TermLexer.Proofs.Term.Leading
import TermLexer.Proofs.Token.Folding
import TermLexer.Proofs.Token.Rebuild
import TermLexer.Proofs.Token.Separator
import TermLexer.Span.Value
import TermLexer.Term.Value
import TermLexer.Proofs.Cursor.Session
import TermLexer.Proofs.Lexer.Progress
import TermLexer.Proofs.Term.Lookup
import TermLexer.Proofs.Text.Append
import TermLexer.Proofs.Term.Membership
import TermLexer.Proofs.Text.Offsets
import TermLexer.Proofs.Cursor.Movement
import TermLexer.Proofs.Term.Buckets
import TermLexer.Proofs.Cursor.Slicing
