import Mathlib.Algebra.Group.Nat.Defs
import TermLexer.Cursor.Session
import TermLexer.Text.Fold
import TermLexer.Value

/-! # Cursors stay at boundaries

A cursor stands between what lies behind it and what lies ahead of it. A command leaves it there,
goes back to the kept copy, or moves it over a part of what lies ahead, and the part is what a
consuming command gives back. So wherever commands lead, from the front of a text and by way of any
copies kept meanwhile, the cursor stands at a boundary: reading ahead and moving on are never
refused, and no offset on the way is too large to be stored as long as the size of the text is
not. -/

namespace TermLexer.Cursor

open TermLexer.Text TermLexer.Unicode

/-! ## What is to hold -/

/-- Cuts out a text by an offset of its own, which may be refused. -/
def Command.cuts : Command → Bool
  | .slice _ _ | .sliceFrom _ => true
  | .current | .rest | .isEnd | .advanceBytes _ | .advanceChar | .take _ | .eatWhile _
  | .eatWhitespace | .save | .restore => false

/-- Gives back what it moves over. -/
def Command.consumes : Command → Bool
  | .take _ | .eatWhile _ | .eatWhitespace => true
  | .current | .rest | .isEnd | .advanceBytes _ | .advanceChar | .slice _ _ | .sliceFrom _ | .save
  | .restore => false

/-- What holds of a cursor over a text at any time. -/
structure Sound (text : Text) (c : Cursor) : Prop where
  text_eq : c.text = text
  inside : c.pos ≤ byteSize text
  boundary : IsBoundary text c.pos
  /-- What lies behind and what lies ahead can be read, and together they are the text. -/
  parted : ∃ behind ahead, c.sliceFrom 0 = .ok behind ∧ c.rest = .ok ahead ∧
    c.current = .ok ahead.head? ∧ behind ++ ahead = text
  isEnd_iff_current : c.isEnd = true ↔ c.current = .ok none
  isEnd_iff_rest : c.isEnd = true ↔ c.rest = .ok []

/-- What holds of a command that a session over a text obeys. -/
structure Session.Obeys (text : Text) (s : Session) (command : Command) : Prop where
  answered : command.cuts = false → ∃ answer, (s.obey command).1 = .ok answer
  forward : command ≠ .restore → s.cursor.pos ≤ (s.obey command).2.cursor.pos
  restored : command = .restore → (s.obey command).2.cursor = s.saved
  small : (s.obey command).2.cursor.pos < Value.offsetLimit
  /-- A move by bytes need not look beyond the largest offset, nor beyond the end of the text. -/
  saturated : ∀ n, command = .advanceBytes n → (s.obey command).2.cursor.pos =
    ceilBoundary text (min (min (s.cursor.pos + n) (Value.offsetLimit - 1)) (byteSize text))
  consumed : command.consumes = true → ∃ part, (s.obey command).1 = .ok (.text part) ∧
    Text.slice text ⟨s.cursor.pos, (s.obey command).2.cursor.pos⟩ = .ok part

/-- A cursor to which commands lead from the front of a text. A session may go back to any cursor
that was reached before. -/
inductive Reached (text : Text) : Cursor → Prop
  | start : Reached text (.start text)
  | obey {s : Session} (command : Command) : Reached text s.cursor → Reached text s.saved →
      Reached text (s.obey command).2.cursor

structure Session.Reached (text : Text) (s : Session) : Prop where
  cursor : Cursor.Reached text s.cursor
  saved : Cursor.Reached text s.saved

/-- The session after some commands. -/
def Session.after (s : Session) (commands : List Command) : Session :=
  ((s.run commands).map Prod.snd).getLastD s

/-! ## One command -/

/-- What a command does to a session whose cursor stands between two parts of the text. -/
inductive Effect (s : Session) (behind ahead : Text) (command : Command) :
    Except Fault Answer → Session → Prop
  | stay {answer : Except Fault Answer} : command.consumes = false → command ≠ .restore →
      (command.cuts = false → ∃ a, answer = .ok a) → Effect s behind ahead command answer s
  | keep : command = .save →
      Effect s behind ahead command (.ok .done) { s with saved := s.cursor }
  | back : command = .restore → Effect s behind ahead command (.ok .done) (s.move s.saved)
  | move {part rest : Text} {answer : Answer} : ahead = part ++ rest → command ≠ .restore →
      (command.consumes = true → answer = .text part) →
      Effect s behind ahead command (.ok answer)
        (s.move ⟨behind ++ ahead, byteSize behind + byteSize part⟩)

/-- Cutting out a text leaves the session as it was, be it refused or not. -/
theorem obey_slice_snd (s : Session) (start stop : Nat) : (s.obey (.slice start stop)).2 = s := by
  cases hslice : s.cursor.slice start stop with
  | ok part =>
    simp only [Session.obey, Session.step, hslice, Fault.ok_bind]
    rfl
  | error fault =>
    simp only [Session.obey, Session.step, hslice]
    rfl

section

variable {s : Session} {behind ahead : Text} (h : s.cursor = ⟨behind ++ ahead, byteSize behind⟩)

include h

theorem effect_advanceBytes (n : Nat) : Effect s behind ahead (.advanceBytes n) (.ok .done)
    (s.move (s.cursor.advanceBytes n)) := by
  obtain ⟨part, rest, hahead, hsize⟩ := isBoundary_ceilBoundary ahead n
  rw [h, advanceBytes_of_parts, ← hsize]
  exact .move hahead (by simp) (by simp [Command.consumes])

theorem effect_advanceChar :
    Effect s behind ahead .advanceChar (s.obey .advanceChar).1 (s.obey .advanceChar).2 := by
  have hstep : s.obey .advanceChar =
      (.ok .done, s.move ⟨behind ++ ahead, byteSize behind + byteSize (ahead.take 1)⟩) := by
    simp only [Session.obey, Session.step, h, advanceChar_append, Fault.ok_bind]
    rfl
  rw [hstep]
  exact .move (List.take_append_drop 1 ahead).symm (by simp) (by simp [Command.consumes])

theorem effect_consume {command : Command} (hcommand : command.consumes = true) :
    Effect s behind ahead command (s.obey command).1 (s.obey command).2 := by
  have hgives : ∀ p : Char → Bool, s.obey (.eatWhile p) = (.ok (.text (ahead.takeWhile p)),
      s.move ⟨behind ++ ahead, byteSize behind + byteSize (ahead.takeWhile p)⟩) := by
    intro p
    simp only [Session.obey, Session.step, h, eatWhile_append, Fault.ok_bind]
    rfl
  cases command with
  | take n =>
    have hstep : s.obey (.take n) = (.ok (.text (ahead.take n)),
        s.move ⟨behind ++ ahead, byteSize behind + byteSize (ahead.take n)⟩) := by
      simp only [Session.obey, Session.step, h, take_append, Fault.ok_bind]
      rfl
    rw [hstep]
    exact .move (List.take_append_drop n ahead).symm (by simp) fun _ => rfl
  | eatWhile p =>
    rw [hgives]
    exact .move List.takeWhile_append_dropWhile.symm (by simp) fun _ => rfl
  | eatWhitespace =>
    have hstep : s.obey .eatWhitespace = s.obey (.eatWhile isWhitespace) := rfl
    rw [hstep, hgives]
    exact .move List.takeWhile_append_dropWhile.symm (by simp) fun _ => rfl
  | current | rest | isEnd | advanceBytes | advanceChar | slice | sliceFrom | save | restore =>
    cases hcommand

theorem effect_obey (command : Command) :
    Effect s behind ahead command (s.obey command).1 (s.obey command).2 := by
  cases command with
  | current | rest =>
    simp only [Session.obey, Session.step, current, h, rest_append, Fault.ok_bind]
    exact .stay rfl (by simp) fun _ => ⟨_, rfl⟩
  | isEnd => exact .stay rfl (by simp) fun _ => ⟨_, rfl⟩
  | advanceBytes n => exact effect_advanceBytes h n
  | advanceChar => exact effect_advanceChar h
  | take | eatWhile | eatWhitespace => exact effect_consume h rfl
  | slice start stop =>
    rw [obey_slice_snd]
    exact .stay rfl (by simp) (by simp [Command.cuts])
  | sliceFrom start =>
    have hslice : s.obey (.sliceFrom start) = s.obey (.slice start s.cursor.pos) := rfl
    rw [hslice, obey_slice_snd]
    exact .stay rfl (by simp) (by simp [Command.cuts])
  | save => exact .keep rfl
  | restore => exact .back rfl

end

/-! ## Cursors that are reached -/

theorem sliceFrom_zero (behind ahead : Text) :
    sliceFrom ⟨behind ++ ahead, byteSize behind⟩ 0 = .ok behind := by
  have hslice := slice_append [] behind ahead
  rw [byteSize_nil, Nat.zero_add, List.nil_append] at hslice
  rw [sliceFrom, slice, if_neg (Nat.not_lt_zero _), hslice]

theorem isEnd_iff (behind ahead : Text) :
    isEnd ⟨behind ++ ahead, byteSize behind⟩ = true ↔ ahead = [] := by
  have hsize : byteSize (behind ++ ahead) ≤ byteSize behind ↔ byteSize ahead = 0 := by
    rw [byteSize_append]
    omega
  exact decide_eq_true_iff.trans (hsize.trans byteSize_eq_zero)

/-- All that is to hold of a cursor holds between any two parts of a text. -/
theorem Sound.of_parts (behind ahead : Text) :
    Sound (behind ++ ahead) ⟨behind ++ ahead, byteSize behind⟩ := by
  have hrest := rest_append behind ahead
  have hcurrent := current_append behind ahead
  have hboundary : IsBoundary (behind ++ ahead) (byteSize behind) := ⟨behind, ahead, rfl, rfl⟩
  refine ⟨rfl, hboundary.le_byteSize, hboundary,
    ⟨behind, ahead, sliceFrom_zero behind ahead, hrest, hcurrent, rfl⟩, ?_, ?_⟩
  · rw [isEnd_iff, hcurrent, Except.ok.injEq, List.head?_eq_none_iff]
  · rw [isEnd_iff, hrest, Except.ok.injEq]

theorem Sound.exists_parts {text : Text} {c : Cursor} (h : Sound text c) :
    ∃ behind ahead, text = behind ++ ahead ∧ c = ⟨behind ++ ahead, byteSize behind⟩ := by
  obtain ⟨cursorText, pos⟩ := c
  obtain rfl : cursorText = text := h.text_eq
  obtain ⟨behind, ahead, rfl, rfl⟩ := h.boundary
  exact ⟨behind, ahead, rfl, rfl⟩

section

variable {s next : Session} {behind ahead : Text} {command : Command}
  {answer : Except Fault Answer} (h : Effect s behind ahead command answer next)

include h

theorem Effect.sound (hcursor : s.cursor = ⟨behind ++ ahead, byteSize behind⟩)
    (hsaved : Sound (behind ++ ahead) s.saved) :
    Sound (behind ++ ahead) next.cursor := by
  cases h with
  | stay | keep =>
    have hsound := Sound.of_parts behind ahead
    rwa [← hcursor] at hsound
  | back => exact hsaved
  | @move part rest _ hahead =>
    have hsound := Sound.of_parts (behind ++ part) rest
    rwa [List.append_assoc, ← hahead, byteSize_append] at hsound

theorem Effect.saved_eq : next.saved = s.saved ∨ next.saved = s.cursor := by
  cases h with
  | keep => exact .inr rfl
  | stay | back | move => exact .inl rfl

theorem Effect.pos_le (hcursor : s.cursor = ⟨behind ++ ahead, byteSize behind⟩)
    (hback : command ≠ .restore) :
    s.cursor.pos ≤ next.cursor.pos := by
  cases h with
  | stay | keep => exact Nat.le_refl _
  | back hrestore => exact absurd hrestore hback
  | move =>
    rw [hcursor]
    exact Nat.le_add_right _ _

theorem Effect.exists_answer (hcuts : command.cuts = false) : ∃ a, answer = .ok a := by
  cases h with
  | stay _ _ hanswer => exact hanswer hcuts
  | keep | back | move => exact ⟨_, rfl⟩

/-- A consuming command gives back what it moves over, which is part of what lay ahead. -/
theorem Effect.exists_part (hconsumes : command.consumes = true) : ∃ part rest,
    ahead = part ++ rest ∧ answer = .ok (.text part) ∧
      next = s.move ⟨behind ++ ahead, byteSize behind + byteSize part⟩ := by
  cases h with
  | stay hno =>
    rw [hno] at hconsumes
    cases hconsumes
  | keep hcommand | back hcommand =>
    rw [hcommand] at hconsumes
    cases hconsumes
  | @move part rest _ hahead _ hanswer => exact ⟨part, rest, hahead, by rw [hanswer hconsumes], rfl⟩

end

/-- One command leads from the front of a text to a cursor that is reached. -/
theorem Reached.of_command {text : Text} {c : Cursor} (command : Command)
    (h : ((Session.start text).obey command).2.cursor = c) : Reached text c :=
  h ▸ .obey (s := Session.start text) command .start .start

theorem Reached.sound {text : Text} {c : Cursor} (h : Reached text c) : Sound text c := by
  induction h with
  | start => exact .of_parts [] text
  | @obey s command _ _ hcursor hsaved =>
    obtain ⟨behind, ahead, rfl, hparts⟩ := hcursor.exists_parts
    exact (effect_obey hparts command).sound hparts hsaved

/-! ## Any number of commands -/

namespace Session

variable {text : Text} {s : Session}

theorem reached_start (text : Text) : Session.Reached text (.start text) := ⟨.start, .start⟩

theorem Reached.obey (h : s.Reached text) (command : Command) :
    Session.Reached text (s.obey command).2 where
  cursor := .obey command h.cursor h.saved
  saved := by
    obtain ⟨behind, ahead, rfl, hparts⟩ := h.cursor.sound.exists_parts
    rcases (effect_obey hparts command).saved_eq with hsame | hkept
    · rw [hsame]
      exact h.saved
    · rw [hkept]
      exact h.cursor

/-- A run only goes through sessions that are reached. -/
theorem Reached.run (h : s.Reached text) (commands : List Command) :
    ∀ t ∈ s :: (s.run commands).map Prod.snd, Session.Reached text t := by
  induction commands generalizing s with
  | nil => exact List.forall_mem_singleton.mpr h
  | cons command commands ih => exact List.forall_mem_cons.mpr ⟨h, ih (h.obey command)⟩

theorem Reached.obeys (h : s.Reached text) (hsize : byteSize text < Value.offsetLimit)
    (command : Command) : s.Obeys text command := by
  have hnext := (h.obey command).cursor.sound
  obtain ⟨behind, ahead, rfl, hparts⟩ := h.cursor.sound.exists_parts
  have heffect := effect_obey hparts command
  refine ⟨heffect.exists_answer, heffect.pos_le hparts, ?_, ?_, ?_, ?_⟩
  · rintro rfl
    rfl
  · exact Nat.lt_of_le_of_lt hnext.inside hsize
  · rintro n rfl
    have hcut : min (min (s.cursor.pos + n) (Value.offsetLimit - 1)) (byteSize (behind ++ ahead)) =
        min (s.cursor.pos + n) (byteSize (behind ++ ahead)) := by omega
    rw [hcut, ceilBoundary_min, ← h.cursor.sound.text_eq]
    rfl
  · intro hconsumes
    obtain ⟨part, rest, rfl, hanswer, hmove⟩ := heffect.exists_part hconsumes
    refine ⟨part, hanswer, ?_⟩
    rw [hmove, hparts]
    exact slice_append behind part rest

theorem after_cons (s : Session) (command : Command) (commands : List Command) :
    s.after (command :: commands) = (s.obey command).2.after commands :=
  List.getLastD_cons ..

/-- What consuming commands give back is, one after the other, what lay ahead up to where the cursor
stands after them. -/
theorem exists_consumed {behind ahead : Text}
    (hparts : s.cursor = ⟨behind ++ ahead, byteSize behind⟩) {commands : List Command}
    (h : ∀ command ∈ commands, command.consumes = true) : ∃ (parts : List Text) (rest : Text),
      (s.run commands).map Prod.fst = parts.map (fun part => .ok (.text part)) ∧
        ahead = parts.flatten ++ rest ∧
        (s.after commands).cursor =
          ⟨behind ++ ahead, byteSize (behind ++ parts.flatten)⟩ := by
  induction commands generalizing s behind ahead with
  | nil => exact ⟨[], ahead, rfl, rfl, by rw [List.flatten_nil, List.append_nil]; exact hparts⟩
  | cons command commands ih =>
    obtain ⟨hfirst, hothers⟩ := List.forall_mem_cons.mp h
    obtain ⟨part, rest, rfl, hanswer, hmove⟩ :=
      (effect_obey hparts command).exists_part hfirst
    have hnext : (s.obey command).2.cursor = ⟨(behind ++ part) ++ rest, byteSize (behind ++ part)⟩ := by
      rw [hmove, List.append_assoc, byteSize_append]
      rfl
    obtain ⟨parts, rest', hrun, rfl, hafter⟩ := ih hnext hothers
    refine ⟨part :: parts, rest', ?_, ?_, ?_⟩
    · rw [run, List.map_cons, hanswer, hrun, List.map_cons]
    · rw [List.flatten_cons, List.append_assoc]
    · rw [after_cons, hafter, List.flatten_cons, List.append_assoc, List.append_assoc]

end Session

/-- **A cursor over a text of storable size stands at a boundary wherever commands lead it**, no
command but one that cuts out a text by its own offsets is refused, and the cursor goes back only to
where it stood before. What a run of consuming commands gives back is the text, but for what lies
ahead at its end. -/
theorem reached_sound (text : Text) (hsize : byteSize (fold text) ≤ 2 ^ 63 - 1) :
    (∀ commands, ∀ s ∈ Session.start (fold text) ::
        ((Session.start (fold text)).run commands).map Prod.snd, Session.Reached (fold text) s) ∧
      (∀ s, Session.Reached (fold text) s → Sound (fold text) s.cursor ∧
        ∀ command, s.Obeys (fold text) command) ∧
      ∀ commands : List Command, (∀ command ∈ commands, command.consumes = true) →
        ∃ (parts : List Text) (ahead : Text), ((Session.start (fold text)).run commands).map Prod.fst =
            parts.map (fun part => .ok (.text part)) ∧
          ((Session.start (fold text)).after commands).cursor.rest = .ok ahead ∧
          parts.flatten ++ ahead = fold text := by
  have hlimit : byteSize (fold text) < Value.offsetLimit := by
    rw [Value.offsetLimit, UInt64.size]
    omega
  refine ⟨(Session.reached_start (fold text)).run, ?_, ?_⟩
  · intro s hs
    exact ⟨hs.cursor.sound, hs.obeys hlimit⟩
  · intro commands hcommands
    have hstart : (Session.start (fold text)).cursor = ⟨[] ++ fold text, byteSize []⟩ := rfl
    obtain ⟨parts, ahead, hrun, htext, hafter⟩ := Session.exists_consumed hstart hcommands
    refine ⟨parts, ahead, hrun, ?_, htext.symm⟩
    rw [hafter, htext]
    exact rest_append parts.flatten ahead

/-- The theorem at code points of one, two and four bytes, with a move into the first of them and a
way back to the copy that was kept behind it. -/
theorem reached_sound_multibyte :
    byteSize (fold ['É', ' ', '𝄞']) ≤ 2 ^ 63 - 1 ∧
      Session.Obeys (fold ['É', ' ', '𝄞']) ⟨⟨['é', ' ', '𝄞'], 3⟩, ⟨['é', ' ', '𝄞'], 2⟩⟩ .restore ∧
      ∃ (parts : List Text) (ahead : Text),
        ((Session.start (fold ['É', ' ', '𝄞'])).run [.take 1, .eatWhitespace]).map Prod.fst =
            parts.map (fun part => .ok (.text part)) ∧
          parts.flatten ++ ahead = fold ['É', ' ', '𝄞'] := by
  have hsize : byteSize (fold ['É', ' ', '𝄞']) ≤ 2 ^ 63 - 1 := by decide +kernel
  obtain ⟨hrun, hobeys, hconsumed⟩ := reached_sound ['É', ' ', '𝄞'] hsize
  have hmem : (⟨⟨['é', ' ', '𝄞'], 3⟩, ⟨['é', ' ', '𝄞'], 2⟩⟩ : Session) ∈
      Session.start (fold ['É', ' ', '𝄞']) :: ((Session.start (fold ['É', ' ', '𝄞'])).run
        [.advanceBytes 1, .save, .advanceChar]).map Prod.snd := by
    decide +kernel
  obtain ⟨parts, ahead, hparts, _, hrest⟩ :=
    hconsumed [.take 1, .eatWhitespace] (List.all_eq_true.mp (by decide))
  exact ⟨hsize, (hobeys _ (hrun _ _ hmem)).2 .restore, parts, ahead, hparts, hrest⟩

end TermLexer.Cursor
