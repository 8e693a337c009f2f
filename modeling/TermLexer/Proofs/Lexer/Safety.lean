import Mathlib.Algebra.Group.Nat.Defs
import TermLexer.Proofs.Lexer.Script
import TermLexer.Value

/-! # No request fails

A stream never meets a fault. The offset of its lexer is a boundary after every request, so a cursor
can be resumed there; skipping and scanning go from boundary to boundary, every text that is cut
out lies between two of them, and no offset on the way is too large to be stored as long as the size
of the text is not. -/

namespace TermLexer

open TermLexer.Text TermLexer.Unicode

/-- What holds of the cursor in front of a token. -/
structure Lexer.SafeAt (l : Lexer) (c : Cursor) : Prop where
  text_eq : c.text = l.text
  boundary : IsBoundary l.text c.pos
  small : c.pos < Value.offsetLimit
  ahead : ∃ rest, c.rest = .ok rest
  /-- Scanning finds a token that can be cut out. -/
  scanned : c.isEnd = false → ∃ kind after token, Lexer.scan l.terms c = .ok (kind, after) ∧
    slice l.text ⟨c.pos, after.pos⟩ = .ok token ∧ c.pos < after.pos ∧
    IsBoundary l.text after.pos ∧ after.pos < Value.offsetLimit

/-- What holds of a lexer between two requests. -/
structure Lexer.Safe (l : Lexer) : Prop where
  inside : l.pos ≤ byteSize l.text
  boundary : IsBoundary l.text l.pos
  resumed : Cursor.resume l.text l.pos = .ok ⟨l.text, l.pos⟩
  counted : l.remaining = .ok (byteSize l.text - l.pos)
  /-- The index of the terms has only places of their list. -/
  listed : ∀ set ∈ l.terms, ∀ c, ∀ place ∈ set.index.bucket c, place < set.terms.length
  skipped : ∃ blanks c, Cursor.eatWhitespace ⟨l.text, l.pos⟩ = .ok (blanks, c) ∧ l.SafeAt c

/-- The lexer of a stream that is not spent. -/
def Stream.lexer? : Stream → Option Lexer
  | plain l | spanned l => some l
  | spent => none

namespace Lexer

theorem safeAt_append (terms : Option TermSet) (pos : Nat) (done rest : Text)
    (hrest : ∀ c ∈ rest.head?, isWhitespace c = false)
    (hsize : byteSize (done ++ rest) < Value.offsetLimit) :
    SafeAt ⟨done ++ rest, pos, terms⟩ ⟨done ++ rest, byteSize done⟩ := by
  have hboundary : IsBoundary (done ++ rest) (byteSize done) := ⟨done, rest, rfl, rfl⟩
  refine ⟨rfl, hboundary, Nat.lt_of_le_of_lt hboundary.le_byteSize hsize,
    ⟨rest, Cursor.rest_append done rest⟩, ?_⟩
  intro hend
  cases rest with
  | nil => simp [Cursor.isEnd] at hend
  | cons c cs =>
    have hrule := Rule.of_munch terms c cs
    have hsplit := hrule.append_eq
    have hafter : IsBoundary (done ++ c :: cs)
        (byteSize done + byteSize (c :: cs.take (munch terms c cs).2)) := by
      rw [← hsplit, ← byteSize_append]
      exact ⟨_, _, (List.append_assoc ..).symm, rfl⟩
    have hslice := slice_append done (c :: cs.take (munch terms c cs).2)
      (cs.drop (munch terms c cs).2)
    rw [hsplit] at hslice
    have hpos := c.utf8Size_pos
    refine ⟨_, _, _, scan_of_rule hrule done, hslice, ?_, hafter,
      Nat.lt_of_le_of_lt hafter.le_byteSize hsize⟩
    simp only [byteSize_cons]
    omega

/-- A lexer that awaits tokens is safe. -/
theorem Awaits.safe {l : Lexer} {ts : List Token} (h : l.Awaits ts)
    (hsize : byteSize l.text < Value.offsetLimit) : l.Safe := by
  obtain ⟨text, pos, terms⟩ := l
  have hremaining := h.remaining_eq.1
  obtain ⟨done, s, htext, hpos, _⟩ := h
  obtain ⟨blanks, rest, rfl, hblanks, hrest⟩ := exists_blanks s
  simp only at htext hpos hsize hremaining
  subst htext hpos
  have hboundary : IsBoundary (done ++ (blanks ++ rest)) (byteSize done) := ⟨_, _, rfl, rfl⟩
  refine ⟨hboundary.le_byteSize, hboundary, Cursor.resume_append done _, hremaining, ?_,
    blanks, _, Cursor.eatWhitespace_append done blanks rest hblanks hrest, ?_⟩
  · intro set _ c place hplace
    exact TermSet.place_lt_length hplace
  · rw [← List.append_assoc] at hsize ⊢
    exact safeAt_append terms _ (done ++ blanks) rest hrest hsize

end Lexer

namespace Script

theorem length_run (s : Script) (stage : Stage) (requests : List Stream.Request) :
    (s.run stage requests).length = requests.length := by
  induction requests generalizing stage with
  | nil => rfl
  | cons request requests ih => exact congrArg (· + 1) (ih _)

theorem safe_of_stream {s : Script} (h : (s.lexer 0).Awaits s.tokens)
    (hsize : byteSize s.text < Value.offsetLimit) (stage : Stage) :
    ∀ l ∈ (s.stream stage).lexer?, l.text = s.text ∧ l.terms = s.terms ∧ l.Safe := by
  intro l hl
  cases stage with
  | plain k | spanned k =>
    cases hl
    exact ⟨rfl, rfl, (awaits_lexer h k).safe hsize⟩
  | spent => cases hl

end Script

/-- **Every request to a stream over a text of storable size is answered**, and between any two
requests its lexer is safe. -/
theorem run_answers_safely (text : Text) (terms : Option TermSet)
    (hsize : byteSize (fold text) ≤ 2 ^ 63 - 1) (requests : List Stream.Request) :
    ∃ answers, (Stream.ofText text terms).run requests = .ok answers ∧
      answers.length = requests.length ∧
      ∀ s ∈ Stream.ofText text terms :: answers.map Prod.snd, ∀ l ∈ s.lexer?,
        l.text = fold text ∧ l.terms = terms ∧ l.Safe := by
  have hlimit : byteSize (fold text) < Value.offsetLimit := by
    rw [Value.offsetLimit, UInt64.size]
    omega
  have hsafe := Script.safe_of_stream (Script.awaits_ofText text terms) hlimit
  exact ⟨_, Script.run_ofText text terms requests, Script.length_run ..,
    Script.forall_mem_run (s := Script.ofText text terms) hsafe (.plain 0) requests⟩

/-- The theorem at a text that is folded to another size, with a term that has a separator in it. -/
theorem run_answers_safely_kelvin :
    byteSize (fold ['\u212a', ' ', '1']) ≤ 2 ^ 63 - 1 ∧
      ∃ answers, (Stream.ofText ['\u212a', ' ', '1'] (some (.ofList [['K', ' ']]))).run
          [.nextSpan, .sizeHint, .intoSpanned, .next, .next, .collect] = .ok answers ∧
        answers.length = 6 ∧
        ∀ s ∈ Stream.ofText ['\u212a', ' ', '1'] (some (.ofList [['K', ' ']])) ::
            answers.map Prod.snd, ∀ l ∈ s.lexer?,
          l.text = fold ['\u212a', ' ', '1'] ∧ l.terms = some (.ofList [['K', ' ']]) ∧ l.Safe :=
  ⟨by decide +kernel, run_answers_safely ['\u212a', ' ', '1'] (some (.ofList [['K', ' ']]))
    (by decide +kernel) [.nextSpan, .sizeHint, .intoSpanned, .next, .next, .collect]⟩

end TermLexer
