import TermLexer.Proofs.Lexer.Script
import TermLexer.Proofs.Lexer.Trace

/-! # Logs of many lexers

The lexers of a group share nothing, so after any pulls each of them stands where as many pulls of
it alone would have taken it. The state of a group is therefore told by the pulls made so far, and
a pull leaves what the next pull of its lexer leaves in a log of its own. Read for one lexer at a
time, the log of a group is the log that this lexer leaves alone. Of the recorder only the two laws
are used: a released guard leaves the lexer, and a lexer without handles is closed. -/

namespace TermLexer.Log

open TermLexer.Text

/-- The number of the lexer that a record is about. -/
def Record.id : Record → Nat
  | opened id _ _ | entered id | token id _ | ended id _ | left id | closed id => id

/-! ## What is to be logged

In this section `given` has the tokens that the lexer of a job gives. -/

section

variable (given : Job → List Token)

/-- What the pull of a lexer leaves that was pulled `k` times before. -/
def visit (job : Job) (id k : Nat) : List Record :=
  [.entered id, (given job)[k]?.elim (.ended id (byteSize (fold job.text))) (.token id), .left id]

/-- What `n` pulls of a lexer leave, from its making to its end. -/
def alone (job : Job) (id n : Nat) : List Record :=
  .opened id (byteSize job.text) (keptTerms job.terms).length ::
    ((List.range n).flatMap (visit given job id) ++ [.closed id])

variable (jobs : List Job)

/-- What the pull of the `i`-th lexer leaves after the pulls `before`. -/
def visitOf (before : List Nat) (i : Nat) : List Record :=
  jobs[i]?.elim [] fun job => visit given job (i + 1) (before.count i)

/-- What pulls leave after the pulls `before`. -/
def visits (before : List Nat) : List Nat → List Record
  | [] => []
  | i :: pulls => visitOf given jobs before i ++ visits (before ++ [i]) pulls

/-- What a group leaves, from the making of its lexers to their end. -/
def together (pulls : List Nat) : List Record :=
  (jobs.zipIdx.map fun (job, i) =>
      .opened (i + 1) (byteSize job.text) (keptTerms job.terms).length) ++
    (visits given jobs [] pulls ++ jobs.zipIdx.map fun (_, i) => .closed (i + 1))

end

/-! ## The state of a group -/

def Job.script (job : Job) : Script := .ofText job.text job.terms

/-- The lexers of a group after the pulls `before`. -/
def groupAfter (jobs : List Job) (before : List Nat) : List Lexer :=
  jobs.mapIdx fun i job => job.script.lexer (before.count i)

theorem getElem?_groupAfter (jobs : List Job) (before : List Nat) (i : Nat) :
    (groupAfter jobs before)[i]? = jobs[i]?.map fun job => job.script.lexer (before.count i) :=
  List.getElem?_mapIdx

theorem groupAfter_nil (jobs : List Job) : groupAfter jobs [] = jobs.map Job.lexer := by
  refine List.ext_getElem? fun i => ?_
  rw [getElem?_groupAfter, List.getElem?_map]
  rfl

/-- A pull moves its own lexer and no other. -/
theorem groupAfter_append {jobs : List Job} (before : List Nat) {i : Nat} {job : Job}
    (hi : jobs[i]? = some job) : groupAfter jobs (before ++ [i]) =
      (groupAfter jobs before).set i (job.script.lexer (before.count i + 1)) := by
  refine List.ext_getElem? fun j => ?_
  rw [getElem?_groupAfter, List.getElem?_set, getElem?_groupAfter, List.count_append]
  by_cases hij : i = j
  · subst hij
    have hlt : i < (groupAfter jobs before).length := by
      rw [groupAfter, List.length_mapIdx]
      exact (List.getElem?_eq_some_iff.mp hi).1
    rw [if_pos rfl, if_pos hlt, hi, List.count_singleton_self, Option.map_some]
  · rw [if_neg hij, List.count_singleton, beq_eq_false_iff_ne.mpr hij]
    rfl

/-- A pull without lexer moves none. -/
theorem groupAfter_append_of_none {jobs : List Job} (before : List Nat) {i : Nat}
    (hi : jobs[i]? = none) : groupAfter jobs (before ++ [i]) = groupAfter jobs before := by
  refine List.ext_getElem? fun j => ?_
  rw [getElem?_groupAfter, getElem?_groupAfter, List.count_append]
  by_cases hij : i = j
  · rw [← hij, hi, Option.map_none, Option.map_none]
  · rw [List.count_singleton, beq_eq_false_iff_ne.mpr hij]
    rfl

/-! ## Pulls of a group -/

/-- The tokens of a job by its pieces. -/
def Job.tokens (job : Job) : List Token := job.script.tokens

theorem Job.drain_eq (job : Job) : job.lexer.drain = .ok job.tokens :=
  Lexer.drain_ofText job.text job.terms

theorem Job.pull_eq (job : Job) (k : Nat) :
    (job.script.lexer k).pull = .ok (job.tokens[k]?, job.script.lexer (k + 1)) :=
  Script.pull_lexer (Script.awaits_ofText job.text job.terms) k

/-- The position that is logged at the end of the tokens is the size of the folded text. -/
theorem visit_eq (job : Job) (id k : Nat) : visit Job.tokens job id k =
    [.entered id, event id job.tokens[k]? (job.script.lexer (k + 1)), .left id] := by
  rw [visit, Job.tokens, Script.lexer, Script.position]
  cases job.script.tokens[k]? with
  | none => rfl
  | some t => rfl

theorem Job.opened_eq (job : Job) (id : Nat) :
    job.opened id = .opened id (byteSize job.text) (keptTerms job.terms).length := by
  obtain ⟨text, terms⟩ := job
  cases terms with
  | none => rfl
  | some set => rfl

section

variable {recorder : Recorder} (hrecorder : recorder.Lawful)

include hrecorder

/-- A pull is logged as the next one of its lexer, and the group goes on behind it. -/
theorem pull_groupAfter (jobs : List Job) (before : List Nat) (i : Nat) :
    pull recorder (groupAfter jobs before) i =
      .ok (visitOf Job.tokens jobs before i, groupAfter jobs (before ++ [i])) := by
  rw [pull, getElem?_groupAfter, visitOf]
  cases hi : jobs[i]? with
  | none =>
    rw [groupAfter_append_of_none before hi]
    rfl
  | some job =>
    rw [groupAfter_append before hi, Option.map_some, Option.elim_some, visit_eq]
    simp only [job.pull_eq, Fault.ok_bind, hrecorder.left_of_released]
    rfl

theorem pullAll_groupAfter (jobs : List Job) (before pulls : List Nat) :
    pullAll recorder (groupAfter jobs before) pulls = .ok (visits Job.tokens jobs before pulls) := by
  induction pulls generalizing before with
  | nil => rfl
  | cons i pulls ih =>
    exact pullAll_cons (pull_groupAfter hrecorder jobs before i) (ih (before ++ [i]))

theorem flatMap_dropped (jobs : List Job) :
    (jobs.zipIdx.flatMap fun (_, i) => recorder.dropped (i + 1)) =
      jobs.zipIdx.map fun (_, i) => .closed (i + 1) := by
  simp only [hrecorder.closed_of_dropped, List.map_eq_flatMap]

theorem record_eq_together (jobs : List Job) (pulls : List Nat) :
    record recorder .trace jobs pulls = .ok (together Job.tokens jobs pulls) := by
  have hpulls := pullAll_groupAfter hrecorder jobs [] pulls
  rw [groupAfter_nil] at hpulls
  rw [record_trace, full, together]
  simp only [hpulls, Fault.ok_bind, Job.opened_eq, flatMap_dropped hrecorder,
    ← List.append_assoc]
  rfl

end

/-! ## The records of one lexer -/

theorem id_of_mem_visit {given : Job → List Token} {job : Job} {id k : Nat} {r : Record}
    (h : r ∈ visit given job id k) : r.id = id := by
  have hevent : ((given job)[k]?.elim (.ended id (byteSize (fold job.text)))
      (.token id) : Record).id = id := by
    cases (given job)[k]? with
    | none => rfl
    | some t => rfl
  rw [visit, List.mem_cons, List.mem_cons, List.mem_singleton] at h
  rcases h with rfl | rfl | rfl
  · rfl
  · exact hevent
  · rfl

section

variable {jobs : List Job} {i : Nat} {job : Job} (hi : jobs[i]? = some job)

include hi

/-- A place stands once among the numbered jobs. -/
theorem filter_zipIdx (first : Nat) :
    (jobs.zipIdx first).filter (·.2 == first + i) = [(job, first + i)] := by
  induction jobs generalizing i first with
  | nil => cases hi
  | cons other jobs ih =>
    rw [List.zipIdx_cons]
    cases i with
    | zero =>
      obtain rfl : other = job := Option.some.inj hi
      have hrest : (jobs.zipIdx (first + 1)).filter (·.2 == first + 0) = [] := by
        rw [List.filter_eq_nil_iff]
        intro entry hentry hplace
        have hle := List.le_snd_of_mem_zipIdx hentry
        rw [eq_of_beq hplace] at hle
        omega
      rw [List.filter_cons_of_pos (by simp), hrest, Nat.add_zero]
    | succ i =>
      have hne : (first == first + (i + 1)) = false := beq_eq_false_iff_ne.mpr (by omega)
      have hrest := ih (by simpa using hi) (first + 1)
      rw [Nat.add_right_comm, Nat.add_assoc] at hrest
      rw [List.filter_cons_of_neg (by simp [hne]), hrest]

/-- Of records made for the jobs in order, one is about the lexer of a job. -/
theorem filter_map_zipIdx {f : Job × Nat → Record} (hf : ∀ entry, (f entry).id = entry.2 + 1) :
    (jobs.zipIdx.map f).filter (·.id == i + 1) = [f (job, i)] := by
  have hplace := filter_zipIdx hi 0
  rw [Nat.zero_add] at hplace
  have hid : (fun entry => (f entry).id == i + 1) = fun entry : Job × Nat => entry.2 == i := by
    funext entry
    rw [hf, Bool.eq_iff_iff, beq_iff_eq, beq_iff_eq, Nat.add_right_cancel_iff]
  rw [List.filter_map, Function.comp_def, hid, hplace]
  rfl

variable (given : Job → List Token)

/-- Of the records of a pull all are about its lexer. -/
theorem filter_visitOf (before : List Nat) (j : Nat) :
    (visitOf given jobs before j).filter (·.id == i + 1) =
      if j = i then visit given job (i + 1) (before.count i) else [] := by
  rw [visitOf]
  cases hj : jobs[j]? with
  | none =>
    have hne : j ≠ i := by
      rintro rfl
      rw [hi] at hj
      cases hj
    rw [if_neg hne]
    rfl
  | some other =>
    rw [Option.elim_some]
    split
    · rename_i hji
      subst hji
      obtain rfl : job = other := Option.some.inj (hi.symm.trans hj)
      rw [List.filter_eq_self]
      intro r hr
      rw [id_of_mem_visit hr, beq_self_eq_true]
    · rename_i hne
      rw [List.filter_eq_nil_iff]
      intro r hr
      rw [id_of_mem_visit hr, beq_iff_eq, Nat.add_right_cancel_iff]
      exact hne

/-- The pulls of one lexer are logged in their order, and nothing else about it in between. -/
theorem filter_visits (before pulls : List Nat) :
    (visits given jobs before pulls).filter (·.id == i + 1) =
      (List.range' (before.count i) (pulls.count i)).flatMap (visit given job (i + 1)) := by
  induction pulls generalizing before with
  | nil => rfl
  | cons j pulls ih =>
    rw [visits, List.filter_append, filter_visitOf hi, ih, List.count_append]
    by_cases hji : j = i
    · subst hji
      rw [if_pos rfl, List.count_singleton_self, List.count_cons_self, List.range'_succ,
        List.flatMap_cons]
    · rw [if_neg hji, List.count_singleton, beq_eq_false_iff_ne.mpr hji, List.count_cons_of_ne hji]
      rfl

/-- What a group leaves about one of its lexers is what this lexer leaves alone. -/
theorem filter_together (pulls : List Nat) :
    (together given jobs pulls).filter (·.id == i + 1) =
      alone given job (i + 1) (pulls.count i) := by
  rw [together, List.filter_append, List.filter_append, filter_map_zipIdx hi fun _ => rfl,
    filter_map_zipIdx hi fun _ => rfl, filter_visits hi, alone, List.range_eq_range']
  rfl

end

/-! ## A group of one -/

theorem visits_replicate (given : Job → List Token) (job : Job) (before : List Nat) (n : Nat) :
    visits given [job] before (List.replicate n 0) =
      (List.range' (before.count 0) n).flatMap (visit given job 1) := by
  induction n generalizing before with
  | zero => rfl
  | succ n ih =>
    rw [List.replicate_succ, visits, ih, List.count_append, List.count_singleton_self,
      List.range'_succ, List.flatMap_cons]
    rfl

theorem together_singleton (given : Job → List Token) (job : Job) (n : Nat) :
    together given [job] (List.replicate n 0) = alone given job 1 n := by
  rw [together, visits_replicate, alone, List.range_eq_range']
  rfl

/-- **The log of a group is made of the logs of its lexers**, each of which a lexer leaves alone as
well: whatever lexers there are and in whatever order they are pulled, every pull is logged as the
next one of its lexer, by the next token that the lexer gives or the end of its text. -/
theorem record_interleaves {recorder : Recorder} (hrecorder : recorder.Lawful) :
    ∃ given : Job → List Token,
      (∀ job : Job, job.lexer.drain = .ok (given job)) ∧
      (∀ (job : Job) (n : Nat),
        record recorder .trace [job] (List.replicate n 0) = .ok (alone given job 1 n)) ∧
      ∀ (jobs : List Job) (pulls : List Nat), ∃ records,
        record recorder .trace jobs pulls = .ok records ∧ records = together given jobs pulls ∧
        ∀ i job, jobs[i]? = some job →
          records.filter (·.id == i + 1) = alone given job (i + 1) (pulls.count i) := by
  refine ⟨Job.tokens, Job.drain_eq, ?_, ?_⟩
  · intro job n
    rw [record_eq_together hrecorder, together_singleton]
  · intro jobs pulls
    exact ⟨_, record_eq_together hrecorder jobs pulls, rfl,
      fun i job hi => filter_together hi Job.tokens pulls⟩

/-- The theorem at two lexers, the second of which is pulled beyond its end. There is no eighth. -/
theorem record_interleaves_sharp : Recorder.plain.Lawful ∧ ∃ records,
    record .plain .trace
        [⟨['A', ' ', 'B'], none⟩, ⟨['\u212a', '#'], some (.ofList [['k', '#'], ['K']])⟩]
        [1, 0, 7, 1, 0] = .ok records ∧
      records.filter (·.id == 2) =
        [.opened 2 4 2, .entered 2, .token 2 ⟨.special, ⟨0, 2⟩, ['k', '#']⟩, .left 2, .entered 2,
          .ended 2 2, .left 2, .closed 2] := by
  obtain ⟨given, hdrain, _, hlog⟩ := record_interleaves Recorder.plain_lawful
  obtain ⟨records, hrecord, _, hown⟩ :=
    hlog [⟨['A', ' ', 'B'], none⟩, ⟨['\u212a', '#'], some (.ofList [['k', '#'], ['K']])⟩]
      [1, 0, 7, 1, 0]
  have htokens : Job.tokens ⟨['\u212a', '#'], some (.ofList [['k', '#'], ['K']])⟩ =
      [⟨.special, ⟨0, 2⟩, ['k', '#']⟩] := by
    decide +kernel
  have hgiven := (Except.ok.inj ((hdrain _).symm.trans (Job.drain_eq _))).trans htokens
  have hpulls : List.range (List.count 1 [1, 0, 7, 1, 0]) = [0, 1] := by decide
  refine ⟨Recorder.plain_lawful, records, hrecord, (hown 1 _ rfl).trans ?_⟩
  rw [alone, hpulls, List.flatMap_cons, List.flatMap_singleton, visit, visit, hgiven]
  decide +kernel

end TermLexer.Log
