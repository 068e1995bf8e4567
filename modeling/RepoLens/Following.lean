import RepoLens.StoreErrors

/-!
How the programs of the claims are followed call by call: the rules for one call, and the
assertions that are carried from call to call.
-/

namespace RepoLens

open Relational Transaction Interleaving

variable {handlers : Handlers} {claim : Claim} {w w' : World}

abbrev Obeys {α : Type} (handlers : Handlers) (claim : Claim) (program : Prog α)
    (post : α → World → Prop) (w : World) : Prop :=
  Safe (system handlers) (discipline handlers) claim program post w

section Rules

variable {α : Type} {P : World → Prop}

theorem Obeys.store {call : StoreCall} {post : Except Err call.Answer → World → Prop}
    (stable : Stable (discipline handlers) claim P) (holds : P w)
    (allowed : ∀ w, w.Inv → P w → claim ∈ w.issued ∧ call.Allowed claim w ∧
      call.Resumes handlers.diagnosis w)
    (continues : ∀ w answer w', w.Inv → P w → call.Outcome w answer w' → w'.Inv →
      post answer w') :
    Obeys handlers claim (askStore call) post w :=
  Safe.ask stable holds allowed fun w _ answer w' inv there performed inv' =>
    continues w answer w' inv there (World.perform_store performed) inv'

theorem Obeys.ask {c : Call} {post : c.Reply → World → Prop}
    (stable : Stable (discipline handlers) claim P) (holds : P w)
    (issued : ∀ w, P w → claim ∈ w.issued) (free : ∀ w, claim ∈ w.issued →
      c.Allowed handlers.diagnosis claim w) (other : ∀ call, c ≠ .store call)
    (silent : ∀ reply, c.recorded claim reply = [])
    (continues : ∀ w reply, w.Inv → P w → post reply w) :
    Obeys handlers claim (RepoLens.ask c) post w := by
  refine Safe.ask stable holds (fun w _ there => free w (issued w there))
    fun w oracle reply w' inv there performed _ => ?_
  have same := World.perform_other other performed
  rw [silent reply] at same
  cases same
  exact continues w reply inv there

theorem Obeys.cause {post : Err → World → Prop} (stable : Stable (discipline handlers) claim P)
    (holds : P w) (issued : ∀ w, P w → claim ∈ w.issued)
    (continues : ∀ w, w.Inv → P w → post (w.cause claim) w) :
    Obeys handlers claim (RepoLens.ask .cause : Prog Err) post w := by
  refine Safe.ask stable holds (fun w _ there => ⟨issued w there, trivial⟩)
    fun w oracle reply w' inv there performed _ => ?_
  cases oracle with
  | ok =>
    cases performed
    exact continues w inv there
  | store | flag | id | time | provider | setup | agent | partialResult | stage => cases performed

end Rules

structure World.Stays (claim : Claim) (w w' : World) : Prop where
  issued : ∀ other ∈ w.issued, other ∈ w'.issued
  cause : w.cause claim ≠ .nil → w'.cause claim = w.cause claim
  held : claim ∈ w.issued → HeldFrom claim w.db w'.db
  undropped : ¬w.Dropped claim → ¬w'.Dropped claim

theorem World.dropped_own : w.Dropped claim ↔
    ∃ policy cause, .policyDropped claim policy cause ∈ w.own claim := by
  simp [World.Dropped, World.own, Event.claim]

theorem World.Rely.stays (rely : World.Rely claim w w') : World.Stays claim w w' where
  issued := rely.issued
  cause := rely.cause
  held := rely.held
  undropped := by rw [World.dropped_own, World.dropped_own, rely.own]; exact id

theorem StoreCall.events_undropped {call : StoreCall} {before after : Database}
    {answer : Except Err call.Answer} {policy : AtomicHandlerFailurePolicy} {cause : Err} :
    .policyDropped claim policy cause ∉ call.events before after answer := by
  intro recorded
  rcases StoreCall.events_cases recorded with ⟨_, _, _, _, same⟩ | ⟨_, same | same⟩ <;> cases same

theorem StoreCall.Outcome.stays {call : StoreCall} {answer : Except Err call.Answer}
    (outcome : call.Outcome w answer w') (allowed : call.Allowed claim w)
    (uncharged : ∀ actor generation, call ≠ .markExecutionStarted actor generation) :
    World.Stays claim w w' where
  issued _ member := outcome.issued ▸ member
  cause _ := congrFun outcome.cause claim
  held _ := by
    have committed : ∀ {outside a}, call.tx outside w.db = .ok (a, w'.db) →
        HeldFrom claim w.db w'.db := fun ran => tx_heldFrom allowed ran (.inr uncharged)
    have unchanged : w'.db = w.db → HeldFrom claim w.db w'.db :=
      fun same => same ▸ .refl claim w.db
    have effect := outcome.effect
    generalize w'.db = db at effect committed unchanged
    cases effect with
    | answered ran | unanswered ran => exact committed ran
    | unreached | refused => exact unchanged rfl
  undropped clear := by
    rintro ⟨policy, cause, member⟩
    rw [outcome.log, List.mem_append] at member
    rcases member with new | old
    · exact events_undropped new
    · exact clear ⟨policy, cause, old⟩

structure World.Handling (w : World) (job : AnalysisJob) : Prop where
  issued : job.claim ∈ w.issued
  same : ∀ row ∈ w.db.jobs.rows, row.HeldBy job.claim → job.Continues row
  undropped : ¬w.Dropped job.claim

variable {job : AnalysisJob}

theorem World.Handling.stays (handling : w.Handling job) (stays : World.Stays job.claim w w') :
    w'.Handling job where
  issued := stays.issued _ handling.issued
  same row member held := by
    obtain ⟨before, member', held', continues⟩ := stays.held handling.issued row member held
    exact (handling.same before member' held').trans continues
  undropped := stays.undropped handling.undropped

def World.Flagged (w : World) (claim : Claim) : Prop :=
  ∀ row ∈ w.db.jobs.rows, row.HeldBy claim → row.cancelRequested = true

theorem World.Flagged.stays (issued : claim ∈ w.issued) (flagged : w.Flagged claim)
    (stays : World.Stays claim w w') : w'.Flagged claim := by
  intro row member held
  obtain ⟨before, member', held', continues⟩ := stays.held issued row member held
  exact continues.flag (flagged before member' held')

def World.Settled (w : World) (claim : Claim) : Prop :=
  ∀ row ∈ w.db.jobs.rows, row.HeldBy claim → row.executionStarted = true →
    row.jobType = .runDiagnosis →
    row.cancelRequested = true ∨ (w.db.view row.resourceID).Resolved row

theorem World.Flagged.settled (flagged : w.Flagged claim) : w.Settled claim :=
  fun row member held _ _ => .inl (flagged row member held)

theorem Unheld.settled (unheld : Unheld claim w.db) : w.Settled claim :=
  fun row member held => absurd held (unheld row member)

variable {row : DiagnosisAttempt}

theorem RunView.mem_contentsUpTo {v : RunView} {generation number : Nat} :
    row ∈ v.contentsUpTo generation number ↔ ∃ attempt ∈ v.attempts, attempt.content = row ∧
      attempt.executionGeneration = generation ∧ attempt.attemptNo ≤ number := by
  simp only [RunView.contentsUpTo, List.mem_filter, List.mem_map, decide_eq_true_eq]
  constructor
  · rintro ⟨⟨attempt, member, rfl⟩, same, below⟩
    exact ⟨attempt, member, rfl, same, below⟩
  · rintro ⟨attempt, member, rfl, same, below⟩
    exact ⟨⟨attempt, member, rfl⟩, same, below⟩

theorem RunView.resolved_contents {v : RunView} :
    v.Resolved job ↔ ∀ row ∈ v.contentsUpTo job.executionGeneration job.attemptCount,
      row.attemptNo = job.attemptCount → row.providerDispatchUnresolved = false := by
  constructor
  · intro resolved row member number
    obtain ⟨attempt, present, rfl, same, -⟩ := RunView.mem_contentsUpTo.mp member
    exact resolved attempt present ⟨same, number⟩
  · intro resolved attempt present current
    exact resolved attempt.content
      (RunView.mem_contentsUpTo.mpr ⟨attempt, present, rfl, current.1, Nat.le_of_eq current.2⟩)
      current.2

theorem AnalysisJob.HeldBy.owned {row : AnalysisJob} (member : row ∈ w.db.jobs.rows)
    (held : row.HeldBy claim) (started : row.executionStarted = true)
    (diagnosis : row.jobType = .runDiagnosis) :
    (w.db.view row.resourceID).Owned claim row.executionGeneration row.attemptCount :=
  ⟨row, view_job.mpr ⟨member, diagnosis, rfl⟩, .inl ⟨held, started, rfl, rfl⟩⟩

theorem World.Settled.rely (issued : claim ∈ w.issued) (settled : w.Settled claim)
    (rely : World.Rely claim w w') : w'.Settled claim := by
  intro row member held started diagnosis
  obtain ⟨before, member', held', continues⟩ := rely.held issued row member held
  rw [continues.executionStarted] at started
  rw [continues.jobType] at diagnosis
  obtain ⟨-, same⟩ := rely.owned (held'.owned member' started diagnosis)
  rcases settled before member' held' started diagnosis with flagged | resolved
  · exact .inl (continues.flag flagged)
  · right
    rw [RunView.resolved_contents] at resolved ⊢
    rw [continues.resourceID, continues.executionGeneration, continues.attemptCount, same]
    exact resolved

structure World.Runs (w : World) (execution : Execution) (row : DiagnosisAttempt) : Prop where
  owned : (w.db.view execution.runID).Owned execution.claim execution.generation
    execution.attemptNo
  content : row ∈ (w.db.view execution.runID).contentsUpTo execution.generation
    execution.attemptNo
  id : row.id = execution.attemptID
  number : row.attemptNo = execution.attemptNo
  worker : row.workerID = execution.claim.workerID

variable {execution : Execution}

theorem World.Runs.rely (runs : w.Runs execution row) (rely : World.Rely execution.claim w w') :
    w'.Runs execution row := by
  obtain ⟨owned, same⟩ := rely.owned runs.owned
  exact ⟨owned, same ▸ runs.content, runs.id, runs.number, runs.worker⟩

theorem World.Runs.congr (runs : w.Runs execution row) (same : w'.db = w.db) :
    w'.Runs execution row := by
  obtain ⟨owned, content, id, number, worker⟩ := runs
  exact ⟨same ▸ owned, same ▸ content, id, number, worker⟩

theorem World.Runs.attempt (runs : w.Runs execution row) {attempt : DiagnosisAttempt}
    (member : attempt ∈ w.db.attempts.rows) (own : attempt.id = execution.attemptID) :
    attempt.content = row := by
  obtain ⟨other, present, rfl, -⟩ := RunView.mem_contentsUpTo.mp runs.content
  have same : attempt.id = other.id := own.trans runs.id.symm
  rw [w.db.attempts.eq_of_key member (view_attempt.mp present).1 same]

def World.Unsaved (w : World) (execution : Execution) : Prop :=
  ∀ row ∈ (w.db.view execution.runID).contentsUpTo execution.generation execution.attemptNo,
    row.checkpointKind.final = false

theorem World.Unsaved.congr (unsaved : w.Unsaved execution) (same : w'.db = w.db) :
    w'.Unsaved execution := by
  rw [World.Unsaved, same]
  exact unsaved

theorem World.Unsaved.rely (unsaved : w.Unsaved execution) (runs : w.Runs execution row)
    (rely : World.Rely execution.claim w w') :
    w'.Unsaved execution := by
  rw [World.Unsaved, (rely.owned runs.owned).2]
  exact unsaved

structure Execution.Of (execution : Execution) (job : AnalysisJob) : Prop where
  claim : execution.claim = job.claim
  generation : execution.generation = job.executionGeneration
  runID : execution.runID = job.resourceID
  number : execution.attemptNo = job.attemptCount

theorem World.Runs.settled (runs : w.Runs execution row) (own : execution.Of job)
    (handling : w.Handling job) (resolved : row.providerDispatchUnresolved = false) :
    w.Settled job.claim := by
  intro held member holds _ _
  have continues := handling.same held member holds
  right
  intro attempt present current
  obtain ⟨mine, presentMine, rfl, generation, -⟩ := RunView.mem_contentsUpTo.mp runs.content
  rw [continues.resourceID, ← own.runID] at present
  -- The number identifies the attempt.
  have same : attempt = mine := by
    refine (w.db.view_proper execution.runID).numbers attempt present mine presentMine ?_ ?_
    · rw [current.1, continues.executionGeneration, ← own.generation, generation]
    · rw [current.2, continues.attemptCount, ← own.number]
      exact runs.number.symm
  rw [same]
  exact resolved

section Calls

variable {call : StoreCall} {answer : Except Err call.Answer}

theorem StoreCall.Effect.cases {db db' : Database} {P : Database → Prop}
    (effect : call.Effect db answer db') (unchanged : P db)
    (committed : ∀ outside a, call.tx outside db = .ok (a, db') → P db') : P db' := by
  cases effect with
  | answered ran | unanswered ran => exact committed _ _ ran
  | unreached | refused => exact unchanged

theorem StoreCall.Effect.inv {db db' : Database} (effect : call.Effect db answer db') :
    (∃ outside a, call.tx outside db = .ok (a, db') ∧
      (answer = .ok a ∨ ∃ fault : StoreFault, answer = .error fault.err)) ∨
    (db' = db ∧ ∃ err, answer = .error err ∧
      ((∃ fault : StoreFault, err = fault.err) ∨ ∃ outside, call.tx outside db = .error err)) := by
  cases effect with
  | answered ran => exact .inl ⟨_, _, ran, .inl rfl⟩
  | unanswered ran => exact .inl ⟨_, _, ran, .inr ⟨_, rfl⟩⟩
  | unreached => exact .inr ⟨rfl, _, rfl, .inl ⟨_, rfl⟩⟩
  | refused failed => exact .inr ⟨rfl, _, rfl, .inr ⟨_, failed⟩⟩

theorem StoreCall.Outcome.rely (outcome : call.Outcome w answer w') (inv : w.Inv)
    (allowed : call.Allowed claim w) (quiet : call.acts = false)
    (uncharged : ∀ actor generation, call ≠ .markExecutionStarted actor generation) :
    World.Rely claim w w' where
  issued := (outcome.stays allowed uncharged).issued
  cause := (outcome.stays allowed uncharged).cause
  own := by
    have silent : call.events w.db w'.db answer = [] := by
      cases call with
      | markExecutionStarted actor generation => exact absurd rfl (uncharged actor generation)
      | beginProviderDispatch | checkProviderDispatchAuthority => cases quiet
      | _ => rfl
    rw [World.own, World.own, outcome.log, silent, List.nil_append]
  held := (outcome.stays allowed uncharged).held
  owned := by
    intro runID generation number owned
    refine outcome.effect.cases (P := fun db => (db.view runID).Owned claim generation number ∧
      (db.view runID).contentsUpTo generation number =
        (w.db.view runID).contentsUpTo generation number) ⟨owned, rfl⟩ fun outside a ran => ?_
    have view : ViewStep { RunRules.outside with excused := fun _ => True } w.db w'.db :=
      quiet_view quiet (fun _ _ _ _ _ => trivial) (fun runID => (inv.sound runID).agrees)
        (aborting (fun _ => trivial) (fun _ => trivial) w.db call) allowed ran
    exact ViewRun.owned (.single view) inv.sound id owned

theorem StoreCall.Outcome.read (outcome : call.Outcome w answer w')
    (reads : ∀ outside a db', call.tx outside w.db = .ok (a, db') → db' = w.db)
    (silent : ∀ before after answer, call.events before after answer = []) : w' = w := by
  obtain ⟨effect, issued, cause, unlinked, log⟩ := outcome
  have db : w'.db = w.db := effect.cases (P := fun db => db = w.db) rfl fun outside a =>
    reads outside a _
  rw [silent, List.nil_append] at log
  cases w
  cases w'
  simp_all

theorem World.Follows.owned {runID : String} {generation number : Nat} {holder : Claim}
    (follows : World.Follows claim w w') (inv : w.Inv)
    (owned : (w.db.view runID).Owned holder generation number) :
    (w'.db.view runID).Owned holder generation number :=
  follows.views.keeps (P := fun v => v.Owned holder generation number) inv.sound
    (fun _ _ _ _ _ step => step.owned) owned

theorem RunView.mem_putAttempt_cases {v : RunView} {attempt : DiagnosisAttempt}
    (member : row ∈ v.putAttempt attempt) : row = attempt ∨ row ∈ v.attempts := by
  obtain ⟨old, present, same⟩ := List.mem_map.mp member
  split at same
  · exact .inl same.symm
  · exact .inr (same ▸ present)

theorem Marked.runs {attempt attempt' : DiagnosisAttempt}
    (marked : Marked execution attempt attempt' w.db w'.db) (runs : w.Runs execution row)
    (follows : World.Follows claim w w') (inv : w.Inv) (step : AttemptStep attempt attempt')
    (worker : attempt'.workerID = attempt.workerID) :
    attempt.content = row ∧ w'.Runs execution attempt'.content := by
  obtain ⟨job, run, locked, -⟩ := marked.locked
  have same := runs.attempt (view_attempt.mp locked.member).1 marked.own
  refine ⟨same, follows.owned inv runs.owned, ?_, step.id.trans marked.own,
    step.number.trans marked.number, worker.trans locked.worker⟩
  rw [marked.focus.1]
  refine RunView.mem_contentsUpTo.mpr
    ⟨attempt', RunView.mem_putAttempt locked.member step.id, rfl, ?_, ?_⟩
  · obtain ⟨mine, -, rfl, generation, -⟩ := RunView.mem_contentsUpTo.mp runs.content
    have equal : attempt.content.executionGeneration = mine.content.executionGeneration :=
      congrArg _ same
    exact step.generation.trans (equal.trans generation)
  · exact Nat.le_of_eq (step.number.trans marked.number)

theorem Marked.unsaved {attempt attempt' : DiagnosisAttempt}
    (marked : Marked execution attempt attempt' w.db w'.db) (unsaved : w.Unsaved execution)
    (kind : attempt'.checkpointKind.final = false) : w'.Unsaved execution := by
  intro row member
  rw [marked.focus.1] at member
  obtain ⟨found, present, rfl, generation, below⟩ := RunView.mem_contentsUpTo.mp member
  rcases RunView.mem_putAttempt_cases present with rfl | old
  · exact kind
  · exact unsaved found.content
      (RunView.mem_contentsUpTo.mpr ⟨found, old, rfl, generation, below⟩)

end Calls

end RepoLens
