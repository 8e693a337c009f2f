import Mathlib.Data.List.Forall2
import TermLexer.Proofs.Text.Fold
import TermLexer.Proofs.Token.Grammar
import TermLexer.Proofs.Unicode.Classes

/-! # What folding does to tokens

A folded text folds to itself, so folding it before it is tokenized changes nothing. Folding a text
for the first time changes its bytes, but not where its tokens begin and end as one counts code
points: every code point keeps its class, and the rules without special terms look at nothing else.
The one exception is the dotted capital i, a letter that becomes a letter and a mark. -/

namespace TermLexer

open TermLexer.Text TermLexer.Unicode

/-! ## Folding twice -/

/-- **A part of a folded text is folded**, and so is the whole of it: a stream over the folded text
is the stream over the text. -/
theorem fold_stable (text : Text) :
    (∀ part, part <:+: fold text → fold part = part) ∧ fold (fold text) = fold text ∧
      ∀ terms, tokenize (fold text) terms = tokenize text terms ∧
        Stream.ofText (fold text) terms = Stream.ofText text terms := by
  have htwice : fold (fold text) = fold text := fold_of_infix (List.infix_refl _)
  refine ⟨fun _ => fold_of_infix, htwice, fun terms => ⟨?_, ?_⟩⟩
  · rw [tokenize, htwice, tokenize]
  · rw [Stream.ofText, Lexer.ofText, htwice, Stream.ofText, Lexer.ofText]

/-- The theorem at a part that is cut out behind a letter, with both code points of special form. -/
theorem fold_stable_sigma : ['\u0307', 'ς'] <:+: fold ['A', 'İ', 'Σ', '.'] ∧
    fold ['\u0307', 'ς'] = ['\u0307', 'ς'] := by
  have hpart : ['\u0307', 'ς'] <:+: fold ['A', 'İ', 'Σ', '.'] := ⟨['a', 'i'], ['.'], by decide +kernel⟩
  exact ⟨hpart, (fold_stable ['A', 'İ', 'Σ', '.']).1 _ hpart⟩

/-! ## Classes in a folded text -/

theorem sameClass_foldChar {c : Char} (hdotted : c ≠ 'İ') (before after : Text) :
    ∃ d, foldChar before c after = [d] ∧ SameClass c d := by
  by_cases hsigma : c = 'Σ'
  · subst hsigma
    cases hends : endsWord before after with
    | true => exact ⟨'ς', by simp [foldChar, hends], by decide, by decide, by decide⟩
    | false => exact ⟨'σ', by simp [foldChar, hends], by decide, by decide, by decide⟩
  · rw [foldChar, if_neg hsigma, if_neg hdotted]
    exact ⟨toLower c, rfl, sameClass_toLower c⟩

theorem sameClass_foldAfter {s : Text} (hdotted : 'İ' ∉ s) (before : Text) :
    List.Forall₂ SameClass s (foldAfter before s) := by
  induction s generalizing before with
  | nil => exact .nil
  | cons c cs ih =>
    obtain ⟨hc, hcs⟩ := List.ne_and_not_mem_of_not_mem_cons hdotted
    obtain ⟨d, hfold, hclass⟩ := sameClass_foldChar hc.symm before cs
    rw [foldAfter, hfold]
    exact .cons hclass (ih hcs (c :: before))

/-! ## Tokens by code points -/

/-- The event of a token with its span counted in code points. -/
def Token.counted? (s : Text) (t : Token) : Option Event := do
  let before ← takeBytes s t.span.start
  let upto ← takeBytes s t.span.stop
  return (⟨before.length, upto.length⟩, t.kind)

/-- The events of pieces of which the first stands behind `n` code points. -/
def Piece.countFrom (n : Nat) : List Piece → List Event
  | [] => []
  | blank _ :: rest => countFrom (n + 1) rest
  | token kind t :: rest => (⟨n, n + t.length⟩, kind) :: countFrom (n + t.length) rest

/-- Counted by code points, the tokens among pieces stand where the pieces do. -/
theorem Piece.mapM_counted? (done : Text) (ps : List Piece) :
    (placeFrom (byteSize done) ps).mapM (Token.counted? (done ++ ps.flatMap text)) =
      some (countFrom done.length ps) := by
  induction ps generalizing done with
  | nil => rfl
  | cons p ps ih =>
    have hrest := ih (done ++ p.text)
    rw [byteSize_append, List.append_assoc, List.length_append] at hrest
    cases p with
    | blank c => exact hrest
    | token kind t =>
      have hstart := takeBytes_append done (t ++ ps.flatMap text)
      have hstop := takeBytes_append (done ++ t) (ps.flatMap text)
      rw [byteSize_append, List.append_assoc] at hstop
      have hfirst : Token.counted? (done ++ (t ++ ps.flatMap text))
          ⟨kind, ⟨byteSize done, byteSize done + byteSize t⟩, t⟩ =
          some (⟨done.length, done.length + t.length⟩, kind) := by
        simp only [Token.counted?, hstart, hstop, Option.bind_eq_bind, Option.bind_some,
          List.length_append]
        rfl
      rw [placeFrom, List.flatMap_cons, text, List.mapM_cons, hfirst]
      rw [text] at hrest
      rw [hrest]
      rfl

/-! ## Texts of the same classes -/

theorem length_takeWhile_of_sameClass {p : Char → Bool} (hp : ∀ c d, SameClass c d → p c = p d)
    {s t : Text} (h : List.Forall₂ SameClass s t) :
    (s.takeWhile p).length = (t.takeWhile p).length := by
  induction h with
  | nil => rfl
  | cons hclass _ ih =>
    rw [List.takeWhile_cons, List.takeWhile_cons, hp _ _ hclass]
    split
    · rw [List.length_cons, List.length_cons, ih]
    · rfl

theorem munch_of_sameClass {c d : Char} {cs ds : Text} (hclass : SameClass c d)
    (h : List.Forall₂ SameClass cs ds) : munch none c cs = munch none d ds := by
  have hdigits : (cs.takeWhile isNumeric).length = (ds.takeWhile isNumeric).length :=
    length_takeWhile_of_sameClass (fun _ _ hcd => hcd.numeric) h
  have hletters : (cs.takeWhile isAlphanumeric).length = (ds.takeWhile isAlphanumeric).length :=
    length_takeWhile_of_sameClass (fun _ _ hcd => hcd.alphanumeric) h
  show (if isNumeric c then _ else _) = (if isNumeric d then _ else _)
  rw [hclass.numeric, hclass.alphabetic, hdigits, hletters]

theorem countFrom_of_sameClass {s t : Text} (h : List.Forall₂ SameClass s t) (n : Nat) :
    Piece.countFrom n (pieces none s) = Piece.countFrom n (pieces none t) := by
  fun_induction pieces none s generalizing t n with
  | case1 =>
    cases h with
    | nil => rw [pieces]
  | case2 c cs hc ih =>
    cases h with
    | cons hclass htail =>
      rw [hclass.whitespace] at hc
      rw [pieces_cons_blank none _ hc]
      exact ih htail (n + 1)
  | case3 c cs hc ih =>
    cases h with
    | @cons _ d _ ds hclass htail =>
      -- both tokens take as many code points, and what follows them is of the same classes again
      have hmunch := munch_of_sameClass hclass htail
      have hlength : (c :: cs.take (munch none c cs).2).length =
          (d :: ds.take (munch none c cs).2).length := by
        rw [List.length_cons, List.length_cons, List.length_take, List.length_take, htail.length_eq]
      have hrest := ih (List.forall₂_drop _ htail)
      rw [hclass.whitespace] at hc
      rw [pieces, if_neg hc, Piece.countFrom, Piece.countFrom, ← hmunch, hlength, hrest]

theorem mapM_counted?_tokens (terms : Option TermSet) (s : Text) :
    (tokens terms s).mapM (Token.counted? s) = some (Piece.countFrom 0 (pieces terms s)) := by
  have hcount := Piece.mapM_counted? [] (pieces terms s)
  rw [flatMap_text_pieces] at hcount
  exact hcount

/-- A lexer may as well start at the front of a text that is not folded. -/
theorem Lexer.drain_unfolded (text : Text) (terms : Option TermSet) :
    drain ⟨text, 0, terms⟩ = .ok (tokens terms text) :=
  Awaits.drain_eq ⟨[], text, rfl, rfl, rfl⟩

/-- **Folding moves no token** of a text without the dotted capital i, as one counts code points:
the text has as many of them as its folded form, each in the class that it keeps, and a lexer that
goes over the text as it is finds the same ranges and kinds. -/
theorem fold_moves_no_token {text : Text} (hdotted : 'İ' ∉ text) :
    (fold text).length = text.length ∧ List.Forall₂ SameClass text (fold text) ∧
      ∃ folded plain events, (Lexer.ofText text none).drain = .ok folded ∧
        tokenize text none = folded.map Token.text ∧
        Lexer.drain ⟨text, 0, none⟩ = .ok plain ∧
        (∀ es, Segments none text es ↔ es = plain.map Token.event) ∧
        folded.mapM (Token.counted? (fold text)) = some events ∧
        plain.mapM (Token.counted? text) = some events := by
  have hclass : List.Forall₂ SameClass text (fold text) := sameClass_foldAfter hdotted []
  refine ⟨hclass.length_eq.symm, hclass, tokens none (fold text), tokens none text,
    Piece.countFrom 0 (pieces none text), Lexer.drain_ofText text none, rfl,
    Lexer.drain_unfolded text none, ?_, ?_, mapM_counted?_tokens none text⟩
  · intro es
    constructor
    · exact SegmentsFrom.eq_tokens [] text es
    · rintro rfl
      exact segments_tokens none text
  · rw [mapM_counted?_tokens, countFrom_of_sameClass hclass]

/-- The theorem at code points that are folded to more and to fewer bytes, a letter number and a
final sigma. -/
theorem fold_moves_no_token_sigma :
    'İ' ∉ (['\u023a', 'Σ', ' ', '\u212a', '\u2160', '!'] : Text) ∧
      ∃ folded, (Lexer.ofText ['\u023a', 'Σ', ' ', '\u212a', '\u2160', '!'] none).drain =
          .ok folded ∧
        folded.mapM (Token.counted? (fold ['\u023a', 'Σ', ' ', '\u212a', '\u2160', '!'])) =
          some [(⟨0, 2⟩, .word), (⟨3, 5⟩, .word), (⟨5, 6⟩, .symbol)] := by
  have hdotted : 'İ' ∉ (['\u023a', 'Σ', ' ', '\u212a', '\u2160', '!'] : Text) := by decide
  obtain ⟨_, _, folded, plain, events, hfolded, _, hplain, _, hevents, hevents'⟩ :=
    fold_moves_no_token hdotted
  obtain rfl := Except.ok.inj (hplain.symm.trans (Lexer.drain_unfolded _ none))
  have hcount : (tokens none ['\u023a', 'Σ', ' ', '\u212a', '\u2160', '!']).mapM
      (Token.counted? ['\u023a', 'Σ', ' ', '\u212a', '\u2160', '!']) =
      some [(⟨0, 2⟩, .word), (⟨3, 5⟩, .word), (⟨5, 6⟩, .symbol)] := by
    decide +kernel
  exact ⟨hdotted, folded, hfolded, hevents.trans (hevents'.symm.trans hcount)⟩

/-- The dotted capital i is one word before it is folded, and then a word and a symbol. -/
example : (tokens none ['İ']).map Token.kind = [.word] ∧
    (tokens none (fold ['İ'])).map Token.kind = [.word, .symbol] := by
  decide +kernel

end TermLexer
