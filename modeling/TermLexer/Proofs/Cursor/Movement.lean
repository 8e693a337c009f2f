import TermLexer.Proofs.Cursor.Session
import TermLexer.Proofs.Lexer.Pull
import TermLexer.Proofs.Text.Offsets

/-! # How far a cursor moves

A cursor that is reached stands between what lies behind it and what lies ahead of it, so every move
is told by the part of what lies ahead that it leads over: up to the next boundary after a number of
bytes, a number of code points, or the code points up to the first that fails a test. Moves by one
code point are the smallest of all three kinds, and the longer ones are made of them. -/

namespace TermLexer.Cursor

open TermLexer.Text TermLexer.Unicode

/-! ## By bytes -/

/-- What a move by `n` bytes does to a cursor over a text. -/
structure Advances (text : Text) (c : Cursor) (n : Nat) (after : Cursor) : Prop where
  text_eq : after.text = text
  least : IsLeast {p | IsBoundary text p ∧ min (c.pos + n) (byteSize text) ≤ p} after.pos
  /-- Single bytes lead there in three steps at most. The sum that they start from may stop at any
  limit that the size of the text does not pass. -/
  rounds : ∀ limit, byteSize text ≤ limit →
    ∃ steps ≤ 3, Rounds text (min (min (c.pos + n) limit) (byteSize text)) steps after.pos

theorem advances_of_parts (a b : Text) (n : Nat) :
    Advances (a ++ b) ⟨a ++ b, byteSize a⟩ n (advanceBytes ⟨a ++ b, byteSize a⟩ n) where
  text_eq := rfl
  least := isLeast_ceilBoundary (a ++ b) (byteSize a + n)
  rounds := by
    intro limit hlimit
    have hcut : min (min (byteSize a + n) limit) (byteSize (a ++ b)) =
        min (byteSize a + n) (byteSize (a ++ b)) := by omega
    rw [hcut]
    exact exists_rounds (a ++ b) (byteSize a + n)

/-- A special term that is found lies ahead, so scanning moves by its size with nothing to round. -/
theorem scan_of_lookupTerm {a b w : Text} {terms : Option TermSet}
    (h : Lexer.lookupTerm terms b = .ok (some w)) :
    Lexer.scan terms ⟨a ++ b, byteSize a⟩ = .ok (.special, ⟨a ++ b, byteSize a + byteSize w⟩) := by
  rw [Lexer.lookupTerm_eq, Except.ok.injEq] at h
  obtain ⟨hmem, ⟨after, happend⟩, _⟩ := matchTerm_eq_some_iff.mp h
  cases b with
  | nil => exact absurd (List.append_eq_nil_iff.mp happend).1 (ne_nil_of_mem_keptTerms hmem)
  | cons c cs => exact Lexer.scan_of_rule (.special h happend.symm) a

/-- **A move by bytes ends at the least boundary that it may end at**, three bytes further on at
most. It goes no less far for more bytes, one byte is one code point, and the size of what lies ahead
leads right behind it, so a special term is consumed as it is. -/
theorem advanceBytes_reached {text : Text} {c : Cursor} (h : Reached (fold text) c) :
    (∀ n, Advances (fold text) c n (c.advanceBytes n)) ∧
      (Monotone fun n => (c.advanceBytes n).pos) ∧
      c.advanceChar = .ok (c.advanceBytes 1) ∧
      (∃ taken, c.take 1 = .ok (taken, c.advanceBytes 1)) ∧
      (∀ w ahead, c.rest = .ok (w ++ ahead) →
        c.advanceBytes (byteSize w) = ⟨fold text, c.pos + byteSize w⟩ ∧
          (c.advanceBytes (byteSize w)).rest = .ok ahead) ∧
      ∀ terms ahead w, c.rest = .ok ahead → Lexer.lookupTerm terms ahead = .ok (some w) →
        Lexer.scan terms c = .ok (.special, ⟨fold text, c.pos + byteSize w⟩) := by
  obtain ⟨a, b, htext, rfl⟩ := h.sound.exists_parts
  have hone : advanceBytes ⟨a ++ b, byteSize a⟩ 1 =
      ⟨a ++ b, byteSize a + byteSize (b.take 1)⟩ := by
    rw [advanceBytes_of_parts, ceilBoundary_one]
  rw [htext]
  refine ⟨advances_of_parts a b, ?_, ?_, ⟨b.take 1, ?_⟩, ?_, ?_⟩
  · exact fun n m hnm => monotone_ceilBoundary (a ++ b) (Nat.add_le_add_left hnm (byteSize a))
  · rw [hone, advanceChar_append]
  · rw [hone, take_append]
  · intro w ahead hrest
    rw [rest_append, Except.ok.injEq] at hrest
    subst hrest
    have hmove := advanceBytes_append a w ahead
    have hbehind := rest_append (a ++ w) ahead
    rw [List.append_assoc, byteSize_append] at hbehind
    rw [hmove]
    exact ⟨rfl, hbehind⟩
  · intro terms ahead w hrest hfound
    rw [rest_append, Except.ok.injEq] at hrest
    subst hrest
    exact scan_of_lookupTerm hfound

/-- The theorem behind a first code point of two bytes, at a move into the next one, of four bytes,
and at a special term that is found there. -/
theorem advanceBytes_reached_inside :
    Reached (fold ['É', '𝄞', '#']) ⟨['é', '𝄞', '#'], 2⟩ ∧
      advanceBytes ⟨['é', '𝄞', '#'], 2⟩ 1 = ⟨['é', '𝄞', '#'], 6⟩ ∧
      Advances (fold ['É', '𝄞', '#']) ⟨['é', '𝄞', '#'], 2⟩ 1 ⟨['é', '𝄞', '#'], 6⟩ ∧
      Lexer.scan (some (.ofList [['𝄞'], ['𝄞', '#'], ['#']])) ⟨['é', '𝄞', '#'], 2⟩ =
        .ok (.special, ⟨fold ['É', '𝄞', '#'], 2 + byteSize ['𝄞', '#']⟩) := by
  have h : Reached (fold ['É', '𝄞', '#']) ⟨['é', '𝄞', '#'], 2⟩ :=
    .of_command (.advanceBytes 1) (by decide +kernel)
  have hmove : advanceBytes ⟨['é', '𝄞', '#'], 2⟩ 1 = ⟨['é', '𝄞', '#'], 6⟩ := by decide +kernel
  obtain ⟨hadvances, _, _, _, _, hscan⟩ := advanceBytes_reached h
  have hone := hadvances 1
  rw [hmove] at hone
  refine ⟨h, hmove, hone, hscan _ ['𝄞', '#'] ['𝄞', '#'] ?_ ?_⟩
  · decide +kernel
  · decide +kernel

/-! ## By code points -/

/-- Moves over `n` code points one at a time. -/
def advanceChars (c : Cursor) : Nat → Except Fault Cursor
  | 0 => return c
  | n + 1 => do (← c.advanceChar).advanceChars n

/-- What taking `n` code points does to a cursor with `ahead` ahead of it. -/
structure Takes (c : Cursor) (ahead : Text) (n : Nat) (after : Cursor) : Prop where
  taken : c.take n = .ok (ahead.take (min n ahead.length), after)
  walked : c.advanceChars n = .ok after
  /-- The new offset is that of the code point with the number, or the end. -/
  offset : after.pos = (offsetsFrom c.pos ahead)[n]?.elim (c.pos + byteSize ahead) Prod.fst

theorem advanceChars_append (a b : Text) (n : Nat) :
    advanceChars ⟨a ++ b, byteSize a⟩ n = .ok ⟨a ++ b, byteSize a + byteSize (b.take n)⟩ := by
  induction n generalizing a b with
  | zero => rfl
  | succ n ih =>
    have hnext := ih (a ++ b.take 1) (b.drop 1)
    rw [List.append_assoc, List.take_append_drop, byteSize_append] at hnext
    rw [advanceChars, advanceChar_append, Fault.ok_bind, hnext, Nat.add_comm n, List.take_add,
      byteSize_append, Nat.add_assoc]

theorem takes_of_parts (a b : Text) (n : Nat) :
    Takes ⟨a ++ b, byteSize a⟩ b n ⟨a ++ b, byteSize a + byteSize (b.take n)⟩ where
  taken := by rw [take_append, ← List.take_eq_take_min]
  walked := advanceChars_append a b n
  offset := (offset_take (byteSize a) b n).symm

/-- **Taking code points is moving over them one at a time**: it gives the first ones that lie ahead,
as many as are asked for or as there are, and what is taken in two goes is taken in one. -/
theorem take_reached {text : Text} {c : Cursor} (h : Reached (fold text) c) :
    ∃ ahead, c.rest = .ok ahead ∧ (∀ n, ∃ after, Takes c ahead n after) ∧
      ∀ n m, ∃ first second between after, c.take n = .ok (first, between) ∧
        between.take m = .ok (second, after) ∧ c.take (n + m) = .ok (first ++ second, after) := by
  obtain ⟨a, b, -, rfl⟩ := h.sound.exists_parts
  refine ⟨b, rest_append a b, fun n => ⟨_, takes_of_parts a b n⟩, ?_⟩
  intro n m
  have hsecond := take_append (a ++ b.take n) (b.drop n) m
  rw [List.append_assoc, List.take_append_drop, byteSize_append] at hsecond
  refine ⟨_, _, _, _, take_append a b n, hsecond, ?_⟩
  rw [take_append, List.take_add, byteSize_append, Nat.add_assoc]

/-- The theorem behind the first of code points of one, two, three and four bytes: two of them are
taken, and then more than there are. -/
theorem take_reached_mixed :
    Reached (fold ['A', 'É', '€', '𝄞']) ⟨['a', 'é', '€', '𝄞'], 1⟩ ∧
      Takes ⟨['a', 'é', '€', '𝄞'], 1⟩ ['é', '€', '𝄞'] 2 ⟨['a', 'é', '€', '𝄞'], 6⟩ ∧
      ∃ first second between after,
        take ⟨['a', 'é', '€', '𝄞'], 1⟩ 2 = .ok (first, between) ∧
          between.take 7 = .ok (second, after) ∧
          take ⟨['a', 'é', '€', '𝄞'], 1⟩ 9 = .ok (first ++ second, after) := by
  have h : Reached (fold ['A', 'É', '€', '𝄞']) ⟨['a', 'é', '€', '𝄞'], 1⟩ :=
    .of_command .advanceChar (by decide +kernel)
  have htwo : take ⟨['a', 'é', '€', '𝄞'], 1⟩ 2 =
      .ok (['é', '€'], ⟨['a', 'é', '€', '𝄞'], 6⟩) := by decide +kernel
  obtain ⟨ahead, hahead, htakes, hsplit⟩ := take_reached h
  obtain rfl : ['é', '€', '𝄞'] = ahead := Except.ok.inj hahead
  obtain ⟨after, hafter⟩ := htakes 2
  obtain ⟨_, rfl⟩ := Prod.mk.inj (Except.ok.inj (hafter.taken.symm.trans htwo))
  exact ⟨h, hafter, hsplit 2 7⟩

/-! ## By a test -/

/-- A walk over single code points that goes on as long as the code point ahead passes the test. -/
inductive Walks (p : Char → Bool) : Cursor → Cursor → Prop
  | stop {c : Cursor} {next : Option Char} : c.current = .ok next →
      (∀ char ∈ next, p char = false) → Walks p c c
  | step {c moved stop : Cursor} {char : Char} : c.current = .ok (some char) → p char = true →
      c.advanceChar = .ok moved → Walks p moved stop → Walks p c stop

/-- What eating a run of code points that pass a test does to a cursor with `ahead` ahead of it. -/
structure Eats (p : Char → Bool) (c : Cursor) (ahead run : Text) (after : Cursor) : Prop where
  eaten : c.eatWhile p = .ok (run, after)
  front : run <+: ahead
  passes : ∀ char ∈ run, p char = true
  longest : ∀ part, part <+: ahead → (∀ char ∈ part, p char = true) → part <+: run
  /-- The new offset is that of the first code point that fails the test, or the end. -/
  offset : after.pos =
    ((offsetsFrom c.pos ahead).find? fun entry => !p entry.2).elim (c.pos + byteSize ahead) Prod.fst
  walked : ∀ stop, Walks p c stop ↔ stop = after
  stopped : ∃ next, after.current = .ok next ∧ ∀ char ∈ next, p char = false
  again : after.eatWhile p = .ok ([], after)

theorem prefix_takeWhile {p : Char → Bool} {part s : Text} (h : part <+: s)
    (hpart : ∀ char ∈ part, p char = true) : part <+: s.takeWhile p := by
  obtain ⟨rest, rfl⟩ := h
  rw [List.takeWhile_append_of_pos hpart]
  exact List.prefix_append part _

/-- A run that passes a test is followed by what is left of the run that passes a wider one. -/
theorem takeWhile_append_takeWhile_dropWhile {p q : Char → Bool}
    (h : ∀ char, p char = true → q char = true) (s : Text) :
    s.takeWhile p ++ (s.dropWhile p).takeWhile q = s.takeWhile q := by
  have hrun : ∀ char ∈ s.takeWhile p, q char = true :=
    fun char hchar => h char (forall_mem_takeWhile p s char hchar)
  rw [← List.takeWhile_append_of_pos hrun, List.takeWhile_append_dropWhile]

section

variable {p : Char → Bool} {c moved stop : Cursor}

theorem walks_iff_of_stops {next : Option Char} (hcurrent : c.current = .ok next)
    (hstop : ∀ char ∈ next, p char = false) : Walks p c stop ↔ stop = c := by
  constructor
  · intro h
    cases h with
    | stop => rfl
    | @step _ _ _ char hchar hpass =>
      obtain rfl : next = some char := Except.ok.inj (hcurrent.symm.trans hchar)
      rw [hstop char rfl] at hpass
      cases hpass
  · intro h
    subst h
    exact .stop hcurrent hstop

theorem walks_iff_of_passes {char : Char} (hcurrent : c.current = .ok (some char))
    (hpass : p char = true) (hmoved : c.advanceChar = .ok moved) :
    Walks p c stop ↔ Walks p moved stop := by
  refine ⟨fun h => ?_, .step hcurrent hpass hmoved⟩
  cases h with
  | @stop _ next hnext hstop =>
    obtain rfl : next = some char := Except.ok.inj (hnext.symm.trans hcurrent)
    rw [hstop char rfl] at hpass
    cases hpass
  | step _ _ hmove hwalk => rwa [Except.ok.inj (hmove.symm.trans hmoved)] at hwalk

end

/-- The walk leads over the code points that pass in front, and nowhere else. -/
theorem walks_iff {p : Char → Bool} {a b : Text} {stop : Cursor} :
    Walks p ⟨a ++ b, byteSize a⟩ stop ↔
      stop = ⟨a ++ b, byteSize a + byteSize (b.takeWhile p)⟩ := by
  induction b generalizing a with
  | nil => exact walks_iff_of_stops (current_append a []) nofun
  | cons c cs ih =>
    have hcurrent := current_append a (c :: cs)
    cases hc : p c with
    | false =>
      have hfails : ∀ char ∈ (c :: cs).head?, p char = false := by simp [hc]
      rw [walks_iff_of_stops hcurrent hfails, List.takeWhile_cons_of_neg (by simp [hc])]
      rfl
    | true =>
      have hnext := ih (a := a ++ [c])
      rw [List.append_assoc, byteSize_append, Nat.add_assoc] at hnext
      rw [walks_iff_of_passes hcurrent hc (advanceChar_append a (c :: cs)),
        List.takeWhile_cons_of_pos hc]
      exact hnext

theorem eats_of_parts (p : Char → Bool) (a b : Text) :
    Eats p ⟨a ++ b, byteSize a⟩ b (b.takeWhile p)
      ⟨a ++ b, byteSize a + byteSize (b.takeWhile p)⟩ := by
  -- behind the run the text goes on with what is left when the run is dropped
  have hparts : (⟨a ++ b, byteSize a + byteSize (b.takeWhile p)⟩ : Cursor) =
      ⟨(a ++ b.takeWhile p) ++ b.dropWhile p, byteSize (a ++ b.takeWhile p)⟩ := by
    rw [List.append_assoc, List.takeWhile_append_dropWhile, byteSize_append]
  have hnone : (b.dropWhile p).takeWhile p = [] :=
    List.append_right_eq_self.mp (takeWhile_append_takeWhile_dropWhile (fun _ => id) b)
  refine ⟨eatWhile_append a b p, List.takeWhile_prefix p, forall_mem_takeWhile p b,
    fun _ => prefix_takeWhile, (offset_takeWhile (byteSize a) b p).symm, fun _ => walks_iff,
    ⟨(b.dropWhile p).head?, ?_, head?_dropWhile_fails p b⟩, ?_⟩
  · rw [hparts, current_append]
  · rw [hparts, eatWhile_append, hnone]
    rfl

/-- **Eating code points that pass a test is eating the longest run of them**, as a walk over single
code points does that stops at the first one to fail. There it stays, and a wider test goes on from
there to where it would have come alone. -/
theorem eatWhile_reached {text : Text} {c : Cursor} (h : Reached (fold text) c) :
    ∃ ahead, c.rest = .ok ahead ∧ ∀ p : Char → Bool, ∃ run after, Eats p c ahead run after ∧
      ∀ q : Char → Bool, (∀ char, p char = true → q char = true) →
        ∃ more last, after.eatWhile q = .ok (more, last) ∧
          c.eatWhile q = .ok (run ++ more, last) := by
  obtain ⟨a, b, -, rfl⟩ := h.sound.exists_parts
  refine ⟨b, rest_append a b, fun p => ⟨_, _, eats_of_parts p a b, ?_⟩⟩
  intro q hwider
  have hmore := eatWhile_append (a ++ b.takeWhile p) (b.dropWhile p) q
  rw [List.append_assoc, List.takeWhile_append_dropWhile, byteSize_append] at hmore
  refine ⟨_, _, hmore, ?_⟩
  rw [eatWhile_append, ← takeWhile_append_takeWhile_dropWhile hwider b, byteSize_append,
    Nat.add_assoc]

/-- The theorem in a word that goes on with a digit, which only the wider test lets pass. -/
theorem eatWhile_reached_word :
    Reached (fold ['#', 'É', '1', ' ']) ⟨['#', 'é', '1', ' '], 1⟩ ∧
      (∀ char, isAlphabetic char = true → isAlphanumeric char = true) ∧
      ∃ ahead run after, Eats isAlphabetic ⟨['#', 'é', '1', ' '], 1⟩ ahead run after ∧
        run = ['é'] ∧ ∃ more last, after.eatWhile isAlphanumeric = .ok (more, last) ∧
          eatWhile ⟨['#', 'é', '1', ' '], 1⟩ isAlphanumeric = .ok (run ++ more, last) := by
  have h : Reached (fold ['#', 'É', '1', ' ']) ⟨['#', 'é', '1', ' '], 1⟩ :=
    .of_command .advanceChar (by decide +kernel)
  have hwider : ∀ char, isAlphabetic char = true → isAlphanumeric char = true := by
    intro char hchar
    rw [isAlphanumeric, hchar, Bool.true_or]
  have hrun : eatWhile ⟨['#', 'é', '1', ' '], 1⟩ isAlphabetic =
      .ok (['é'], ⟨['#', 'é', '1', ' '], 3⟩) := by decide +kernel
  obtain ⟨ahead, _, hall⟩ := eatWhile_reached h
  obtain ⟨run, after, heats, hmore⟩ := hall isAlphabetic
  have hsame := Except.ok.inj (heats.eaten.symm.trans hrun)
  exact ⟨h, hwider, ahead, run, after, heats, congrArg Prod.fst hsame, hmore isAlphanumeric hwider⟩

end TermLexer.Cursor
