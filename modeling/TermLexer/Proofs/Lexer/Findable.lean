import Mathlib.Data.List.Infix
import TermLexer.Proofs.Lexer.Script
import TermLexer.Proofs.Lexer.Trace
import TermLexer.Proofs.Term.Canonical

/-! # Terms that can be found

A lookup is made in front of a part of the text that is left, and separators were skipped before. So
no term is ever found that does not occur in the text or that begins with a separator. Two sets that
agree on the other terms give the same match wherever one is looked for, hence the same pieces, and
by the script the same answers to every request but the one for the terms themselves. -/

namespace TermLexer

open TermLexer.Text TermLexer.Unicode TermLexer.TermSet

/-- A term of the set that a lookup over the text can find: it occurs in the text and does not begin
with a separator. -/
structure Findable (terms : Option TermSet) (s t : Text) : Prop where
  kept : t ∈ keptTerms terms
  occurs : t <:+: s
  solid : ∀ c ∈ t.head?, isWhitespace c = false

theorem findable_iff (terms : Option TermSet) (s t : Text) :
    Findable terms s t ↔ t ∈ keptTerms terms ∧ t <:+: s ∧ t.head?.any isWhitespace = false := by
  rw [Option.any_eq_false]
  exact ⟨fun h => ⟨h.kept, h.occurs, h.solid⟩,
    fun ⟨hkept, hoccurs, hsolid⟩ => ⟨hkept, hoccurs, hsolid⟩⟩

instance (terms : Option TermSet) (s t : Text) : Decidable (Findable terms s t) :=
  decidable_of_iff (t ∈ keptTerms terms ∧ t <:+: s ∧ t.head?.any isWhitespace = false)
    (findable_iff terms s t).symm

/-- A text adds nothing to the terms that a lookup over `s` can find. -/
def Idle (s z : Text) : Prop :=
  fold z = [] ∨ (∃ c ∈ (fold z).head?, isWhitespace c = true) ∨ ¬fold z <:+: s

theorem idle_iff (s z : Text) :
    Idle s z ↔ fold z = [] ∨ (fold z).head?.any isWhitespace = true ∨ ¬fold z <:+: s := by
  rw [Option.any_eq_true]
  rfl

instance (s z : Text) : Decidable (Idle s z) := decidable_of_iff _ (idle_iff s z).symm

/-- What a run of a stream shows: every reply with the position after it. -/
def Stream.shown (answers : List (Reply × Stream)) : List (Reply × Option Nat) :=
  answers.map fun answer => (answer.1, answer.2.position?)

/-- Over a text two sets of special terms, or none, cannot be told apart but by asking for the
terms. -/
structure Indistinct (text : Text) (a b : Option TermSet) : Prop where
  drains : ∃ ts, (Lexer.ofText text a).drain = .ok ts ∧ (Lexer.ofText text b).drain = .ok ts
  runs : ∀ requests, .terms ∉ requests → ∃ answers answers',
    (Stream.ofText text a).run requests = .ok answers ∧
      (Stream.ofText text b).run requests = .ok answers' ∧
      Stream.shown answers = Stream.shown answers'
  logs : ∀ recorder pulls, ∃ records,
    Log.pullAll recorder [Lexer.ofText text a] pulls = .ok records ∧
      Log.pullAll recorder [Lexer.ofText text b] pulls = .ok records

/-! ## The same matches -/

section

variable {a b : Option TermSet} {s : Text}

theorem matchTerm_mono (h : ∀ t, t <+: s → (t ∈ keptTerms a ↔ t ∈ keptTerms b)) {w : Text}
    (hw : matchTerm a s = some w) : matchTerm b s = some w := by
  obtain ⟨hmem, hfront, hmax⟩ := matchTerm_eq_some_iff.mp hw
  refine matchTerm_eq_some_iff.mpr ⟨(h w hfront).mp hmem, hfront, ?_⟩
  intro t ht htfront
  exact hmax t ((h t htfront).mpr ht) htfront

theorem matchTerm_congr (h : ∀ t, t <+: s → (t ∈ keptTerms a ↔ t ∈ keptTerms b)) :
    matchTerm a s = matchTerm b s :=
  Option.ext fun _ => ⟨matchTerm_mono h, matchTerm_mono fun t ht => (h t ht).symm⟩

variable (h : ∀ t, Findable a s t ↔ Findable b s t)

include h

/-- What begins with a solid code point of the text and stands in the text can be found. -/
theorem munch_congr {c : Char} {cs : Text} (hc : isWhitespace c = false) (htail : c :: cs <:+ s) :
    munch a c cs = munch b c cs := by
  have hkept : ∀ t, t <+: c :: cs → (t ∈ keptTerms a ↔ t ∈ keptTerms b) := by
    intro t ht
    have hoccurs : t <:+: s := ht.isInfix.trans htail.isInfix
    have hsolid : ∀ d ∈ t.head?, isWhitespace d = false := by
      intro d hd
      obtain ⟨ds, rfl⟩ := List.head?_eq_some_iff.mp hd
      rwa [(List.cons_prefix_cons.mp ht).1]
    exact ⟨fun hmem => ((h t).mp ⟨hmem, hoccurs, hsolid⟩).kept,
      fun hmem => ((h t).mpr ⟨hmem, hoccurs, hsolid⟩).kept⟩
  rw [munch, munch, matchTerm_congr hkept]

theorem pieces_congr {rest : Text} (htail : rest <:+ s) : pieces a rest = pieces b rest := by
  fun_induction pieces a rest with
  | case1 => rw [pieces]
  | case2 c cs hc ih =>
    rw [pieces, if_pos hc, ih ((List.suffix_cons c cs).trans htail)]
  | case3 c cs hc ih =>
    have hmunch := munch_congr h (Bool.eq_false_iff.mpr hc) htail
    have hrest : cs.drop (munch a c cs).2 <:+ s :=
      (List.drop_suffix _ cs).trans ((List.suffix_cons c cs).trans htail)
    rw [pieces, if_neg hc, ← hmunch, ih hrest]

theorem tokens_congr : tokens a s = tokens b s := by
  rw [tokens, tokens, pieces_congr h (List.suffix_refl s)]

end

/-! ## The same answers -/

/-- The terms of a script are read by one request only. -/
theorem Script.answer_of_terms (s : Script) (terms : Option TermSet) (stage : Stage)
    {request : Stream.Request} (h : request ≠ .terms) :
    Script.answer { s with terms } stage request = s.answer stage request := by
  cases stage with
  | plain k =>
    cases request with
    | terms => exact absurd rfl h
    | next | nextToken | nextSpan | position | sizeHint | source | collect | intoTokens
    | intoSpanned => rfl
  | spanned k => rfl
  | spent => rfl

theorem Script.shown_run_of_terms (s : Script) (terms : Option TermSet) (stage : Stage)
    {requests : List Stream.Request} (h : .terms ∉ requests) :
    Stream.shown (Script.run { s with terms } stage requests) =
      Stream.shown (s.run stage requests) := by
  induction requests generalizing stage with
  | nil => rfl
  | cons request requests ih =>
    obtain ⟨hfirst, hrest⟩ := List.ne_and_not_mem_of_not_mem_cons h
    have hanswer := s.answer_of_terms terms stage hfirst.symm
    have hpos : ∀ next, (Script.stream { s with terms } next).position? =
        (s.stream next).position? := by
      intro next
      cases next <;> rfl
    rw [run, run, hanswer]
    exact congrArg₂ List.cons (Prod.ext rfl (hpos _)) (ih _ hrest)

/-- What pulls leave in a log is told by the recorder, the text and the tokens that are awaited. -/
theorem Log.exists_pullAll (recorder : Recorder) {l l' : Lexer} {ts : List Token} (h : l.Awaits ts)
    (h' : l'.Awaits ts) (htext : l.text = l'.text) (pulls : List Nat) :
    ∃ records, pullAll recorder [l] pulls = .ok records ∧
      pullAll recorder [l'] pulls = .ok records := by
  induction pulls generalizing l l' ts with
  | nil => exact ⟨[], rfl, rfl⟩
  | cons i pulls ih =>
    cases i with
    | zero =>
      have hfirst : [l][0]? = some l := rfl
      have hfirst' : [l'][0]? = some l' := rfl
      have hpull := pull_of_awaits recorder hfirst h
      have hpull' := pull_of_awaits recorder hfirst' h'
      obtain ⟨records, hl, hl'⟩ := ih h.pull_eq.2 h'.pull_eq.2 htext
      have hevent : event 1 ts.head? (l.behind ts.head?) =
          event 1 ts.head? (l'.behind ts.head?) := by
        cases ts with
        | nil => exact congrArg (fun s => Record.ended 1 (byteSize s)) htext
        | cons t ts => rfl
      rw [← hevent] at hpull'
      exact ⟨_, pullAll_cons hpull hl, pullAll_cons hpull' hl'⟩
    | succ i =>
      -- there is no such lexer, and nothing is logged
      obtain ⟨records, hl, hl'⟩ := ih h h' htext
      exact ⟨[] ++ records, pullAll_cons rfl hl, pullAll_cons rfl hl'⟩

theorem indistinct_of_tokens_eq {text : Text} {a b : Option TermSet}
    (h : tokens a (fold text) = tokens b (fold text)) : Indistinct text a b where
  drains := ⟨tokens b (fold text), h ▸ Lexer.drain_ofText text a, Lexer.drain_ofText text b⟩
  runs := by
    intro requests hrequests
    have hscript : Script.ofText text a = { Script.ofText text b with terms := a } := by
      rw [Script.ofText, Script.ofText, h]
    refine ⟨_, _, Script.run_ofText text a requests, Script.run_ofText text b requests, ?_⟩
    rw [hscript]
    exact Script.shown_run_of_terms _ a (.plain 0) hrequests
  logs := by
    intro recorder
    have hleft := Lexer.awaits_ofText text a
    have hright := Lexer.awaits_ofText text b
    exact Log.exists_pullAll recorder hleft (h ▸ hright) rfl

/-- What is drained with one of two such sets is drained with the other. -/
theorem Indistinct.drain_eq {text : Text} {a b : Option TermSet} {ts : List Token}
    (h : Indistinct text a b) (ha : (Lexer.ofText text a).drain = .ok ts) :
    (Lexer.ofText text b).drain = .ok ts := by
  obtain ⟨_, hdrain, hdrain'⟩ := h.drains
  rwa [← hdrain.symm.trans ha]

/-! ## Sets with the same findable terms -/

theorem indistinct_of_findable {text : Text} {a b : Option TermSet}
    (h : ∀ t, Findable a (fold text) t ↔ Findable b (fold text) t) : Indistinct text a b :=
  indistinct_of_tokens_eq (tokens_congr h)

/-- Whether two sets agree on the terms that can be found is seen at the terms that they keep. -/
theorem findable_iff_of_kept {a b : Option TermSet} {s : Text}
    (h : ∀ t ∈ keptTerms a, Findable a s t → Findable b s t)
    (h' : ∀ t ∈ keptTerms b, Findable b s t → Findable a s t) (t : Text) :
    Findable a s t ↔ Findable b s t :=
  ⟨fun ht => h t ht.kept ht, fun ht => h' t ht.kept ht⟩

theorem Findable.of_not_idle {xs ys : List Text} {s t : Text}
    (h : ∀ z, ¬Idle s z → z ∈ xs → z ∈ ys) (ht : Findable (some (.ofList xs)) s t) :
    Findable (some (.ofList ys)) s t := by
  obtain ⟨hne, z, hz, rfl⟩ := mem_arrange.mp ht.kept
  have hbusy : ¬Idle s z := by
    rintro (hempty | ⟨c, hc, hblank⟩ | habsent)
    · exact hne hempty
    · rw [ht.solid c hc] at hblank
      cases hblank
    · exact habsent ht.occurs
  exact ⟨mem_arrange.mpr ⟨hne, z, h z hbusy hz, rfl⟩, ht.occurs, ht.solid⟩

/-- **Only the terms that can be found in a text matter**: two sets that agree on them, or a set and
none, cannot be told apart over the text. An empty set is like no set, and empty terms, terms that
begin with a separator and terms that do not occur in the text can be added or left out. -/
theorem indistinct_of_same_findable (text : Text) :
    (∀ a b, (∀ t, Findable a (fold text) t ↔ Findable b (fold text) t) → Indistinct text a b) ∧
      Indistinct text (some .empty) none ∧
      ∀ xs ys, (∀ z, ¬Idle (fold text) z → (z ∈ xs ↔ z ∈ ys)) →
        Indistinct text (some (.ofList xs)) (some (.ofList ys)) := by
  refine ⟨fun _ _ => indistinct_of_findable, ?_, ?_⟩
  · refine indistinct_of_findable fun t => ⟨?_, ?_⟩
    · exact fun ht => ⟨ht.kept, ht.occurs, ht.solid⟩
    · exact fun ht => ⟨ht.kept, ht.occurs, ht.solid⟩
  · intro xs ys h
    refine indistinct_of_findable fun t => ⟨?_, ?_⟩
    · exact Findable.of_not_idle fun z hz => (h z hz).mp
    · exact Findable.of_not_idle fun z hz => (h z hz).mpr

/-- The theorem at two sets that share their one findable term, and at a list to which an empty text,
one that begins with a separator and one that does not occur were added. -/
theorem indistinct_of_same_findable_spaced :
    (∀ t, Findable (some (.ofList [['#'], ['A']])) (fold ['B', ' ', 'A']) t ↔
      Findable (some (.ofList [[' ', 'A'], ['a']])) (fold ['B', ' ', 'A']) t) ∧
      Indistinct ['B', ' ', 'A'] (some (.ofList [['#'], ['A']]))
        (some (.ofList [[' ', 'A'], ['a']])) ∧
      (Lexer.ofText ['B', ' ', 'A'] (some (.ofList [['#'], ['A']]))).drain =
        .ok [⟨.word, ⟨0, 1⟩, ['b']⟩, ⟨.special, ⟨2, 3⟩, ['a']⟩] ∧
      (Lexer.ofText ['B', ' ', 'A'] (some (.ofList [[' ', 'A'], ['a']]))).drain =
        .ok [⟨.word, ⟨0, 1⟩, ['b']⟩, ⟨.special, ⟨2, 3⟩, ['a']⟩] ∧
      (∃ answers, (Stream.ofText ['B', ' ', 'A'] (some (.ofList [[' ', 'A'], ['a']]))).run
          [.nextSpan, .next, .next] = .ok answers ∧
        Stream.shown answers = [(.span (some ⟨0, 1⟩), some 1), (.text (some ['a']), some 3),
          (.text none, some 3)]) ∧
      (∀ z, ¬Idle (fold ['B', ' ', 'A']) z →
        (z ∈ [[], ['A'], [' ', 'A'], ['#']] ↔ z ∈ [['A']])) ∧
      Indistinct ['B', ' ', 'A'] (some (.ofList [[], ['A'], [' ', 'A'], ['#']]))
        (some (.ofList [['A']])) ∧
      (Lexer.ofText ['B', ' ', 'A'] (some (.ofList [['A']]))).drain =
        .ok [⟨.word, ⟨0, 1⟩, ['b']⟩, ⟨.special, ⟨2, 3⟩, ['a']⟩] := by
  have hsame := findable_iff_of_kept (a := some (.ofList [['#'], ['A']]))
    (b := some (.ofList [[' ', 'A'], ['a']])) (s := fold ['B', ' ', 'A'])
    (by decide +kernel) (by decide +kernel)
  have hcases : ∀ z ∈ [[], ['A'], [' ', 'A'], ['#']],
      Idle (fold ['B', ' ', 'A']) z ∨ z = ['A'] := by
    decide +kernel
  have hidle : ∀ z, ¬Idle (fold ['B', ' ', 'A']) z →
      (z ∈ [[], ['A'], [' ', 'A'], ['#']] ↔ z ∈ [['A']]) := by
    intro z hz
    rw [List.mem_singleton]
    constructor
    · intro h
      exact (hcases z h).resolve_left hz
    · rintro rfl
      decide
  obtain ⟨hfindable, _, hlists⟩ := indistinct_of_same_findable ['B', ' ', 'A']
  have hshared := hfindable _ _ hsame
  have hadded := hlists _ _ hidle
  -- the tokens are computed with one set of each pair and carried over to the other
  have hdrain : (Lexer.ofText ['B', ' ', 'A'] (some (.ofList [['#'], ['A']]))).drain =
      .ok [⟨.word, ⟨0, 1⟩, ['b']⟩, ⟨.special, ⟨2, 3⟩, ['a']⟩] := by
    rw [Lexer.drain_ofText]
    decide +kernel
  have hlong : (Lexer.ofText ['B', ' ', 'A']
        (some (.ofList [[], ['A'], [' ', 'A'], ['#']]))).drain =
      .ok [⟨.word, ⟨0, 1⟩, ['b']⟩, ⟨.special, ⟨2, 3⟩, ['a']⟩] := by
    rw [Lexer.drain_ofText]
    decide +kernel
  have hshown : Stream.shown (Script.run (.ofText ['B', ' ', 'A'] (some (.ofList [['#'], ['A']])))
        (.plain 0) [.nextSpan, .next, .next]) =
      [(.span (some ⟨0, 1⟩), some 1), (.text (some ['a']), some 3), (.text none, some 3)] := by
    decide +kernel
  obtain ⟨answers, answers', hrun, hrun', hboth⟩ :=
    hshared.runs [.nextSpan, .next, .next] (by decide)
  rw [← Except.ok.inj (hrun.symm.trans (Script.run_ofText _ _ _))] at hshown
  exact ⟨hsame, hshared, hdrain, hshared.drain_eq hdrain, ⟨answers', hrun', hboth ▸ hshown⟩, hidle,
    hadded, hadded.drain_eq hlong⟩

end TermLexer
