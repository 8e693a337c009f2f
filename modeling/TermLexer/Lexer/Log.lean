import TermLexer.Lexer.Basic

/-!
# Logs

A group of lexers is made in order, pulled in any order, and dropped in order. Every one has a
number, counted from one. A lexer tells a recorder that it was made, that it was entered for a pull,
and what the pull found. That a pull is over and that a lexer is gone it does not tell: it releases
the guard that it got when it was entered, and it drops the only handle that it has. What the log
gets then is up to the recorder. The level of a log says how much of all this is kept.
-/

namespace TermLexer.Log

/-- How much a log keeps, from little to much. -/
inductive Level where
  | info
  | debug
  | trace
  deriving DecidableEq, Repr

def Level.rank : Level → Nat
  | info => 0
  | debug => 1
  | trace => 2

inductive Record where
  /-- A lexer was made, for a text of `size` bytes before folding and a number of terms. -/
  | opened (id size terms : Nat)
  | entered (id : Nat)
  | token (id : Nat) (token : Token)
  | ended (id pos : Nat)
  | left (id : Nat)
  | closed (id : Nat)
  deriving DecidableEq, Repr

namespace Record

/-- What pulls find is logged for tracing only. -/
def level : Record → Level
  | token _ _ | ended _ _ => .trace
  | opened _ _ _ | entered _ | left _ | closed _ => .debug

def keptAt (max : Level) (r : Record) : Bool := r.level.rank ≤ max.rank

end Record

/-- What a log gets when the guard of a lexer that was entered is released, and when the last handle
of a lexer is dropped. -/
structure Recorder where
  released : Nat → List Record
  dropped : Nat → List Record

namespace Recorder

/-- A released guard leaves its lexer, and a lexer without handles is closed. -/
structure Lawful (recorder : Recorder) : Prop where
  left_of_released : ∀ id, recorder.released id = [.left id]
  closed_of_dropped : ∀ id, recorder.dropped id = [.closed id]

/-- The recorder that does this, whatever the lexer. -/
def plain : Recorder where
  released id := [.left id]
  dropped id := [.closed id]

theorem plain_lawful : plain.Lawful := ⟨fun _ => rfl, fun _ => rfl⟩

end Recorder

/-- A text and the special terms to cut it with. -/
structure Job where
  text : Text
  terms : Option TermSet
  deriving Repr

def Job.lexer (job : Job) : Lexer := .ofText job.text job.terms

def Job.opened (job : Job) (id : Nat) : Record :=
  .opened id (Text.byteSize job.text) (job.terms.elim 0 TermSet.size)

def event (id : Nat) : Option Token → Lexer → Record
  | some token, _ => .token id token
  | none, after => .ended id after.pos

section

variable (recorder : Recorder)

/-- Pulls one lexer of a group. An index without lexer does nothing. Whatever the pull finds, the
guard is released after that. -/
def pull (lexers : List Lexer) (i : Nat) : Except Fault (List Record × List Lexer) :=
  match lexers[i]? with
  | none => return ([], lexers)
  | some l => do
    let (token, after) ← l.pull
    return (.entered (i + 1) :: event (i + 1) token after :: recorder.released (i + 1),
      lexers.set i after)

def pullAll (lexers : List Lexer) : List Nat → Except Fault (List Record)
  | [] => return []
  | i :: pulls => do
    let (records, lexers) ← pull recorder lexers i
    return records ++ (← pullAll lexers pulls)

/-- The whole log of a group: making, pulls, dropping. -/
def full (jobs : List Job) (pulls : List Nat) : Except Fault (List Record) := do
  let opened := jobs.zipIdx.map fun (job, i) => job.opened (i + 1)
  let closed := jobs.zipIdx.flatMap fun (_, i) => recorder.dropped (i + 1)
  return opened ++ (← pullAll recorder (jobs.map Job.lexer) pulls) ++ closed

/-- What a log of the given level keeps. -/
def record (max : Level) (jobs : List Job) (pulls : List Nat) : Except Fault (List Record) := do
  return (← full recorder jobs pulls).filter (Record.keptAt max)

end

theorem pullAll_cons {recorder : Recorder} {lexers after : List Lexer} {i : Nat} {pulls : List Nat}
    {first rest : List Record} (h : pull recorder lexers i = .ok (first, after))
    (hrest : pullAll recorder after pulls = .ok rest) :
    pullAll recorder lexers (i :: pulls) = .ok (first ++ rest) := by
  simp only [pullAll, h, hrest, Fault.ok_bind]
  rfl

end TermLexer.Log
