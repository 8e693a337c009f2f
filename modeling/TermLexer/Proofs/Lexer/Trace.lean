import TermLexer.Lexer.Log
import TermLexer.Proofs.Lexer.Pull

/-! # What a trace shows

A trace has one event for every pull. It is the first token that the lexer awaits, with its span and
kind, or the end if none is left; other lexers of the group are not touched. A lexer that is alone
in its group therefore leaves its tokens in the trace, in order, as long as the recorder adds no more
than that lexers are left and closed. -/

namespace TermLexer

open TermLexer.Text

/-- A span with the kind of token in it. -/
abbrev Event := Span × Token.Kind

/-- What a trace shows of a token. -/
def Token.event (t : Token) : Event := (t.span, t.kind)

namespace Log

/-- The token that a line of a log shows. -/
def Record.event? : Record → Option Event
  | token _ t => some t.event
  | opened _ _ _ | entered _ | ended _ _ | left _ | closed _ => none

theorem pull_of_awaits (recorder : Recorder) {lexers : List Lexer} {i : Nat} {l : Lexer}
    {ts : List Token} (hl : lexers[i]? = some l) (h : l.Awaits ts) :
    pull recorder lexers i =
      .ok (.entered (i + 1) :: event (i + 1) ts.head? (l.behind ts.head?) ::
          recorder.released (i + 1),
        lexers.set i (l.behind ts.head?)) := by
  simp only [pull, hl, h.pull_eq.1, Fault.ok_bind]
  rfl

theorem record_trace (recorder : Recorder) (jobs : List Job) (pulls : List Nat) :
    record recorder .trace jobs pulls = full recorder jobs pulls := by
  have hkept : ∀ records : List Record, records.filter (Record.keptAt .trace) = records := by
    intro records
    rw [List.filter_eq_self]
    intro r _
    cases r <;> rfl
  unfold record
  cases full recorder jobs pulls with
  | error _ => rfl
  | ok records => exact congrArg Except.ok (hkept records)

section

variable {recorder : Recorder} (hrecorder : recorder.Lawful)

include hrecorder

/-- Pulls of one lexer show the tokens that it awaits, up to as many as there are pulls. -/
theorem events_pullAll {l : Lexer} {ts : List Token} (h : l.Awaits ts) (n : Nat) :
    ∃ records, pullAll recorder [l] (List.replicate n 0) = .ok records ∧
      records.filterMap Record.event? = (ts.take n).map Token.event := by
  induction n generalizing l ts with
  | zero => exact ⟨[], rfl, rfl⟩
  | succ n ih =>
    have hfirst : [l][0]? = some l := rfl
    have hpull := pull_of_awaits recorder hfirst h
    rw [hrecorder.left_of_released] at hpull
    obtain ⟨records, hrecords, hevents⟩ := ih h.pull_eq.2
    refine ⟨_, pullAll_cons hpull hrecords, ?_⟩
    rw [List.filterMap_append, hevents]
    cases ts with
    | nil => simp [event, Record.event?]
    | cons t ts => rfl

/-- The trace of a lexer that is made, pulled and dropped shows its tokens. -/
theorem events_record (text : Text) (terms : Option TermSet) (n : Nat) :
    ∃ records, record recorder .trace [⟨text, terms⟩] (List.replicate n 0) = .ok records ∧
      records.filterMap Record.event? = ((tokens terms (fold text)).take n).map Token.event := by
  obtain ⟨records, hrecords, hevents⟩ :=
    events_pullAll hrecorder (Lexer.awaits_ofText text terms) n
  refine ⟨Job.opened ⟨text, terms⟩ 1 :: (records ++ [.closed 1]), ?_, ?_⟩
  · rw [record_trace]
    simp only [full, List.map_cons, List.map_nil, Job.lexer, hrecords, Fault.ok_bind,
      hrecorder.closed_of_dropped]
    rfl
  · simp only [Job.opened, List.filterMap_cons, List.filterMap_append, Record.event?, hevents,
      List.filterMap_nil, List.append_nil]

end

end Log

end TermLexer
