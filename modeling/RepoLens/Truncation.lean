import RepoLens.Transitions

/-!
The error code of a diagnosis whose model output was cut off. A complete response leaves the marker
of its attempt set until a final checkpoint, and the handler reads the marker before it looks at
why the agent stopped.
-/

namespace RepoLens

open Relational Transaction Interleaving

/-- The rows of an execution that goes on: the claim holds its job under a lease that lasts, run and
attempt are RUNNING, and nobody asked to cancel. -/
structure Database.Executing (db : Database) (e : Execution) (until_ : Time)
    (attempt : DiagnosisAttempt) : Prop where
  locked : ∃ job run, (db.view e.runID).Locked e.claim false job run attempt ∧
    job.executionGeneration = e.generation ∧ ∀ now < until_, job.leaseLive now = true
  own : attempt.id = e.attemptID
  number : attempt.attemptNo = e.attemptNo

/-- Job, run and attempt of an execution are FAILED, and job and attempt say why. -/
def Database.FailedWith (db : Database) (e : Execution) (code : String) : Prop :=
  ∃ job run attempt, (db.view e.runID).job = some job ∧ (db.view e.runID).run = some run ∧
    attempt ∈ (db.view e.runID).attempts ∧ job.status = .failed ∧ job.lastErrorCode = some code ∧
    run.status = .failed ∧ run.finalAttemptID = some attempt.id ∧ attempt.id = e.attemptID ∧
    attempt.status = .failedTerminal ∧ attempt.errorCode = code

section Rows

variable {db db' : Database} {e : Execution} {until_ now : Time}
  {attempt attempt' : DiagnosisAttempt}

namespace Database.Executing

theorem affected (executing : db.Executing e until_ attempt) {p : DiagnosisAttempt → Prop}
    [DecidablePred p] (hit : p attempt) (own : ∀ row, p row → row.id = e.attemptID) :
    db.attempts.affected p = 1 := by
  obtain ⟨_, _, locked, -⟩ := executing.locked
  have member := (view_attempt.mp locked.member).1
  exact Table.affected_one member hit fun row there matched =>
    db.attempts.eq_of_key there member ((own row matched).trans executing.own.symm)

theorem lock (executing : db.Executing e until_ attempt) :
    ∃ job run, (db.view e.runID).Locked e.claim false job run attempt ∧
      job.executionGeneration = e.generation ∧ (∀ now < until_, job.leaseLive now = true) ∧
      lockDiagnosisExecutionTx e.claim e.generation e.runID e.attemptID false db =
        .ok ((job, run, attempt), db) := by
  obtain ⟨job, run, locked, generation, live⟩ := executing.locked
  obtain ⟨jobMember, owns⟩ := view_job.mp locked.job_eq
  obtain ⟨runMember, sameRun⟩ := view_run.mp locked.run_eq
  obtain ⟨attemptMember, sameOwner⟩ := view_attempt.mp locked.member
  -- Each of the three locking reads finds the row of the view, and no other.
  have foundJob : db.jobs.select (fun job => job.HeldBy e.claim ∧ job.For .runDiagnosis e.runID ∧
      job.executionStarted = true) = some job :=
    Table.select_of_mem jobMember ⟨locked.held, owns, locked.started⟩ fun other member hit =>
      db.jobs.eq_of_key member jobMember (hit.1.1.trans locked.held.1.symm)
  have foundRun : db.runs.select (fun run => run.id = e.runID ∧ run.status = .running) =
      some run :=
    Table.select_of_mem runMember ⟨sameRun, locked.running⟩ fun other member hit =>
      db.runs.eq_of_key member runMember (hit.1.trans sameRun.symm)
  have foundAttempt : db.attempts.select (fun attempt => attempt.id = e.attemptID ∧
      attempt.Of e.runID job.executionGeneration ∧ attempt.attemptNo = job.expectedAttemptNo ∧
      attempt.status = .running) = some attempt :=
    Table.select_of_mem attemptMember
      ⟨executing.own, ⟨sameOwner, locked.generation⟩, locked.number, locked.unclosed⟩
      fun other member hit =>
        db.attempts.eq_of_key member attemptMember (hit.1.trans executing.own.symm)
  refine ⟨job, run, locked, generation, live, ?_⟩
  simp only [lockDiagnosisExecutionTx, bind_ok, Place.select_ok, expect_ok, require_ok, pure_ok]
  exact ⟨_, _, ⟨rfl, rfl⟩, _, _, ⟨rfl, rfl⟩, job, _, ⟨foundJob, rfl⟩, (), _,
    ⟨.inr generation, rfl⟩, (), _, ⟨locked.job_flag, rfl⟩, _, _, ⟨rfl, rfl⟩, run, _,
    ⟨foundRun, rfl⟩, (), _, ⟨locked.run_flag, rfl⟩, _, _, ⟨rfl, rfl⟩, attempt, _,
    ⟨foundAttempt, rfl⟩, (), _, ⟨locked.worker, rfl⟩, rfl, rfl⟩

theorem lockLive (executing : db.Executing e until_ attempt) (before : now < until_) :
    lockLiveDiagnosisExecutionTx e now db = .ok (attempt, db) := by
  obtain ⟨job, run, -, -, live, lock⟩ := executing.lock
  exact bind_ok.mpr ⟨_, _, lock,
    require_bind_ok.mpr ⟨live now before, require_bind_ok.mpr ⟨executing.number, rfl⟩⟩⟩

/-- A write to an attempt that leaves alone by what the transactions find it. -/
theorem marked (executing : db.Executing e until_ attempt) {row : DiagnosisAttempt}
    (marked : Marked e row attempt' db db')
    (same : (attempt'.id, attempt'.executionGeneration, attempt'.attemptNo, attempt'.status,
      attempt'.workerID) = (row.id, row.executionGeneration, row.attemptNo, row.status,
      row.workerID)) : row = attempt ∧ db'.Executing e until_ attempt' := by
  obtain ⟨job, run, locked, live⟩ := executing.locked
  obtain ⟨_, _, there, -⟩ := marked.locked
  obtain rfl : row = attempt :=
    view_attempt_unique locked.member there.member (marked.own.trans executing.own.symm)
  simp only [Prod.mk.injEq] at same
  obtain ⟨id, generation, number, status, worker⟩ := same
  refine ⟨rfl, ⟨job, run, ?_, live⟩, id.trans executing.own, number.trans executing.number⟩
  rw [marked.focus.1]
  exact ⟨locked.job_eq, locked.held, locked.started, locked.job_flag, locked.run_eq,
    locked.running, locked.run_flag, RunView.mem_putAttempt locked.member id,
    generation.trans locked.generation, number.trans locked.number,
    status.trans locked.unclosed, worker.trans locked.worker⟩

end Database.Executing

theorem beginProviderDispatch_executing (executing : db.Executing e until_ attempt)
    (before : now < until_) :
    ∃ db', beginProviderDispatch e now db = .ok ((), db') ∧
      db'.Executing e until_ { attempt with providerDispatchUnresolved := true } := by
  obtain ⟨_, _, locked, -⟩ := executing.locked
  have ran : beginProviderDispatch e now db = .ok ((), _) :=
    bind_ok.mpr ⟨_, _, executing.lockLive before, 
      require_bind_ok.mpr ⟨locked.unclosed, bind_ok.mpr ⟨_, _, rfl, rfl⟩⟩⟩
  obtain ⟨row, marked⟩ := beginProviderDispatch_ok ran
  obtain ⟨rfl, after⟩ := executing.marked marked rfl
  exact ⟨_, ran, after⟩

theorem checkProviderDispatchAuthority_executing (executing : db.Executing e until_ attempt)
    (before : now < until_) (unresolved : attempt.providerDispatchUnresolved = true) :
    checkProviderDispatchAuthority e now db = .ok ((), db) :=
  bind_ok.mpr ⟨_, _, executing.lockLive before, require_ok.mpr ⟨unresolved, rfl⟩⟩

theorem providerDispatchSucceeded_executing (executing : db.Executing e until_ attempt)
    (before : now < until_) (unresolved : attempt.providerDispatchUnresolved = true) :
    ∃ db', providerDispatchSucceeded e now db = .ok ((), db') ∧
      db'.Executing e until_ { attempt with providerDispatchSuccessSeen := true } := by
  obtain ⟨_, _, locked, -⟩ := executing.locked
  have ran : ∃ db', providerDispatchSucceeded e now db = .ok ((), db') := by
    simp only [providerDispatchSucceeded, bind_ok, require_ok, ite_ok, pure_ok]
    by_cases seen : attempt.providerDispatchSuccessSeen = true
    · exact ⟨_, _, _, executing.lockLive before, (), _, ⟨unresolved, rfl⟩,
        .inl ⟨seen, trivial, rfl⟩⟩
    · exact ⟨_, _, _, executing.lockLive before, (), _, ⟨unresolved, rfl⟩, .inr ⟨seen, _, _, rfl,
        executing.affected ⟨executing.own, locked.unclosed, unresolved⟩ fun _ hit => hit.1, rfl⟩⟩
  obtain ⟨db', ran⟩ := ran
  obtain ⟨row, -, marked⟩ := providerDispatchSucceeded_ok ran
  obtain ⟨rfl, after⟩ := executing.marked marked rfl
  exact ⟨db', ran, after⟩

theorem getAttempt_executing (executing : db.Executing e until_ attempt) :
    getAttempt e.attemptID db = .ok (attempt, db) := by
  obtain ⟨_, _, locked, -⟩ := executing.locked
  have member := (view_attempt.mp locked.member).1
  exact (Place.select_bind_ok _).mpr (expect_ok.mpr ⟨Table.select_of_mem member executing.own
    fun other there same => db.attempts.eq_of_key there member (same.trans executing.own.symm),
    rfl⟩)

def AttemptCheckpoint.Fits (checkpoint : AttemptCheckpoint) : Prop :=
  checkpoint.rawOutput.utf8ByteSize ≤ maxReportBytes ∧
    checkpoint.parsedReportJSON.utf8ByteSize ≤ maxReportBytes ∧
    checkpoint.parsedDraftJSON.utf8ByteSize ≤ maxReportBytes

theorem updateAttemptCheckpointWithClaim_executing (executing : db.Executing e until_ attempt)
    (before : now < until_) {checkpoint : AttemptCheckpoint} (fits : checkpoint.Fits)
    (generation : checkpoint.executionGeneration = e.generation) :
    ∃ db', updateAttemptCheckpointWithClaim e checkpoint now db = .ok ((), db') ∧
      ∃ attempt', db'.Executing e until_ attempt' := by
  obtain ⟨_, _, locked, sameGeneration, -⟩ := executing.locked
  have valid : validateCheckpointBytes checkpoint db = .ok ((), db) := by
    simp [validateCheckpointBytes, validateReportBytes, bind_ok, require_ok, fits.1, fits.2.1,
      fits.2.2]
  have affected := executing.affected (p := fun row => row.Locked attempt e.runID e.generation)
    ⟨rfl, ⟨(view_attempt.mp locked.member).2, locked.generation.trans sameGeneration⟩, rfl,
      locked.unclosed⟩ fun _ hit => hit.1.trans executing.own
  have ran : updateAttemptCheckpointWithClaim e checkpoint now db = .ok ((), _) :=
    require_bind_ok.mpr ⟨.inr generation, bind_ok.mpr ⟨(), _, valid, bind_ok.mpr ⟨_, _,
      executing.lockLive before, (Place.update_require_ok _).mpr ⟨affected, rfl⟩⟩⟩⟩
  obtain ⟨row, marked⟩ := updateAttemptCheckpointWithClaim_ok ran
  exact ⟨_, ran, _, (executing.marked marked rfl).2⟩

theorem finalizeDiagnosisFailure_executing (executing : db.Executing e until_ attempt)
    {code message : String} {counts : Counts} :
    ∃ db', finalizeDiagnosisFailure e.claim e.generation e.runID e.attemptID .permanent code message
        counts db = .ok ((), db') ∧ db'.FailedWith e code := by
  obtain ⟨job, run, locked, generation, -, lock⟩ := executing.lock
  obtain ⟨jobMember, -⟩ := view_job.mp locked.job_eq
  obtain ⟨runMember, sameRun⟩ := view_run.mp locked.run_eq
  have ran : ∃ db', finalizeDiagnosisFailure e.claim e.generation e.runID e.attemptID .permanent
      code message counts db = .ok ((), db') := by
    refine ⟨_, require_bind_ok.mpr ⟨.inl rfl, bind_ok.mpr ⟨_, _, lock,
      (Place.update_require_bind_ok _).mpr ⟨?_, bind_ok.mpr ⟨(), _,
        (Place.update_require_ok _).mpr ⟨?_, rfl⟩,
        (Place.update_require_ok _).mpr ⟨?_, rfl⟩⟩⟩⟩⟩⟩
    · exact executing.affected ⟨rfl, ⟨(view_attempt.mp locked.member).2,
        locked.generation.trans generation⟩, rfl, locked.unclosed⟩
        fun _ hit => hit.1.trans executing.own
    · exact Table.affected_one runMember ⟨sameRun, locked.running, locked.run_flag⟩
        fun other there hit => db.runs.eq_of_key there runMember (hit.1.trans sameRun.symm)
    · exact Table.affected_one jobMember ⟨locked.held, generation, locked.started, locked.job_flag⟩
        fun other there hit => db.jobs.eq_of_key there jobMember (hit.1.1.trans locked.held.1.symm)
  obtain ⟨db', ran⟩ := ran
  obtain ⟨job, run, row, locked, same, focus⟩ := finalizeDiagnosisFailure_ok ran
  refine ⟨db', ran, ?_⟩
  rw [Database.FailedWith, focus.1]
  exact ⟨_, _, _, rfl, rfl, RunView.mem_putAttempt locked.member rfl, rfl, rfl, rfl,
    congrArg some same.symm, same, rfl, rfl⟩

end Rows

structure World.Executing (w : World) (e : Execution) (until_ : Time)
    (attempt : DiagnosisAttempt) : Prop where
  rows : w.db.Executing e until_ attempt
  cause : w.cause e.claim = .nil

/-- A provider call of the execution has returned a complete response. -/
def World.Responded (w : World) (e : Execution) : Prop := .received e .success ∈ w.log

/-- Every transaction is answered before the lease ends, and every provider call returns a complete
response. -/
def undisturbed (until_ : Time) : Call → Oracle → Bool
  | .store _, .store .answered outside => outside.now < until_
  | .store _, .store _ _ => false
  | .receive _, .provider reply => reply = .success
  | _, _ => true

def undisturbedSystem (handlers : Handlers) (until_ : Time) :
    Machine runtime World Claim Oracle Move where
  perform claim c w oracle :=
    if undisturbed until_ c oracle then World.perform claim c w oracle else none
  move := World.move handlers

/-- Nobody else touches the execution: it is not cancelled and does not lose its claim. -/
def leftAlone (e : Execution) (until_ : Time) : Discipline runtime World Claim where
  Inv _ := True
  allowed _ _ _ := True
  rely _ w w' := (∀ attempt, w.Executing e until_ attempt → w'.Executing e until_ attempt) ∧
    (w'.Responded e ↔ w.Responded e)

/-- The program ends in the postcondition when nothing disturbs the execution. -/
def Quietly {α : Type} (handlers : Handlers) (e : Execution) (until_ : Time) :
    Prog α → (α → World → Prop) → World → Prop :=
  Safe (undisturbedSystem handlers until_) (leftAlone e until_) e.claim

/-- The marker of the attempt is set if and only if a provider call has returned. -/
def World.Marked (w : World) (e : Execution) (until_ : Time) : Prop :=
  ∃ attempt, w.Executing e until_ attempt ∧
    (attempt.providerDispatchUnresolved = true ↔ w.Responded e)

section Programs

variable {handlers : Handlers} {e : Execution} {until_ : Time} {attempt : DiagnosisAttempt}
  {w : World}

theorem quietly_call {α : Type} {c : Call} {next : runtime.Reply c → Prog α}
    {post : α → World → Prop}
    (continues : ∀ w₁, (leftAlone e until_).rely e.claim w w₁ → ∀ oracle reply w₂,
      undisturbed until_ c oracle = true → World.perform e.claim c w₁ oracle = some (reply, w₂) →
      Quietly handlers e until_ (next reply) post w₂) :
    Quietly handlers e until_ (.call c next) post w := by
  refine fun w₁ relied _ => ⟨trivial, fun oracle reply w₂ performed _ => ?_⟩
  simp only [undisturbedSystem, Option.ite_none_right_eq_some] at performed
  exact continues w₁ relied oracle reply w₂ performed.1 performed.2

theorem quietly_store {α : Type} {call : StoreCall} {rest : Except Err call.Answer → Prog α}
    {post : α → World → Prop} (R : call.Answer → Database → Prop)
    (executing : w.Executing e until_ attempt)
    (step : ∀ db outside, db.Executing e until_ attempt → outside.now < until_ →
      ∃ a db', call.tx outside db = .ok (a, db') ∧ R a db')
    (continues : ∀ a w', R a w'.db → w'.cause e.claim = .nil → (w'.Responded e ↔ w.Responded e) →
      Quietly handlers e until_ (rest (.ok a)) post w') :
    Quietly handlers e until_ (askStore call >>= rest) post w := by
  refine quietly_call fun w₁ ⟨keeps, same⟩ oracle reply w₂ answered performed => ?_
  cases oracle <;> simp only [World.perform, reduceCtorEq] at performed
  rename_i delivery outside
  cases delivery <;> simp only [undisturbed, decide_eq_true_eq, Bool.false_eq_true] at answered
  obtain ⟨a, db', ran, holds⟩ := step w₁.db _ (keeps attempt executing).rows answered
  simp only [World.store, deliveryErr, deliver, ran] at performed
  cases performed
  refine continues a _ holds (keeps attempt executing).cause ?_
  rw [← same]
  simp only [World.Responded, List.mem_append, or_iff_right_iff_imp]
  intro recorded
  rcases StoreCall.events_cases recorded with ⟨_, _, _, _, other⟩ | ⟨_, other | other⟩ <;>
    cases other

theorem quietly_cause {α : Type} {rest : Err → Prog α} {post : α → World → Prop}
    (executing : w.Executing e until_ attempt)
    (continues : ∀ w', w'.Executing e until_ attempt →
      Quietly handlers e until_ (rest .nil) post w') :
    Quietly handlers e until_ (ask .cause >>= rest) post w := by
  refine quietly_call fun w₁ ⟨keeps, _⟩ oracle reply w₂ _ performed => ?_
  cases oracle <;> cases performed
  have there := keeps attempt executing
  rw [there.cause]
  exact continues _ there

theorem concrete_quietly (executing : w.Executing e until_ attempt) :
    Quietly handlers e until_ (Provider.concrete.generate e) (fun err w' => err = .nil ∧
      w'.Executing e until_ attempt ∧ w'.Responded e) w := by
  refine quietly_call fun w₁ ⟨keeps, _⟩ oracle reply w₂ _ performed => ?_
  cases oracle <;> cases performed
  refine quietly_call fun w₃ ⟨keeps', _⟩ oracle reply w₄ answered performed => ?_
  cases oracle <;> cases performed
  have there := keeps' attempt ⟨(keeps attempt executing).rows, (keeps attempt executing).cause⟩
  obtain rfl : reply = .success := of_decide_eq_true answered
  exact ⟨rfl, ⟨there.rows, there.cause⟩, List.mem_cons_self⟩

theorem guardedGenerate_quietly (executing : w.Executing e until_ attempt) :
    Quietly handlers e until_ (guardedGenerate e (Provider.concrete.generate e))
      (fun err w' => err = .nil ∧ w'.Marked e until_ ∧ w'.Responded e) w := by
  refine Safe.bind (quietly_store
    (fun _ db => db.Executing e until_ { attempt with providerDispatchUnresolved := true })
    executing (fun db outside executing before =>
      ⟨(), beginProviderDispatch_executing executing before⟩) fun _ w rows cause _ => ?_)
  refine quietly_store (fun _ db => db.Executing e until_ _) ⟨rows, cause⟩
    (fun db outside executing before =>
      ⟨(), db, checkProviderDispatchAuthority_executing executing before rfl, executing⟩)
    fun _ w rows cause _ => ?_
  refine Safe.bind (Safe.weaken (concrete_quietly ⟨rows, cause⟩) ?_)
  rintro _ w ⟨rfl, executing, responded⟩
  -- The response is complete, and the marker stays as the first transaction set it.
  refine quietly_store (fun _ db => db.Executing e until_ _) executing
    (fun db outside executing before =>
      ⟨(), providerDispatchSucceeded_executing executing before rfl⟩) fun _ w' rows cause same => ?_
  exact ⟨rfl, ⟨_, ⟨rows, cause⟩, fun _ => same.mpr responded, fun _ => rfl⟩, same.mpr responded⟩

theorem generate_quietly (retries : Nat) (executing : w.Executing e until_ attempt) :
    Quietly handlers e until_
      ((guardProvider (newRetryingProvider .concrete retries)).generate e)
      (fun err w' => err = .nil ∧ w'.Marked e until_ ∧ w'.Responded e) w := by
  cases retries with
  | zero => exact guardedGenerate_quietly executing
  | succ retries =>
    refine Safe.bind (Safe.weaken (guardedGenerate_quietly executing) ?_)
    rintro _ w' ⟨rfl, marked⟩
    exact ⟨rfl, marked⟩

theorem agentLoop_quietly (retries rounds : Nat) (marked : w.Marked e until_) :
    Quietly handlers e until_
      (agentLoop ((guardProvider (newRetryingProvider .concrete retries)).generate e) rounds)
      (fun _ w' => w'.Marked e until_) w := by
  -- Induction on the rounds. Whatever a round does, marker and responses agree behind it.
  induction rounds generalizing w with
  | zero => exact marked
  | succ rounds ih =>
    obtain ⟨attempt, executing, known⟩ := marked
    refine quietly_call fun w₁ ⟨keeps, same⟩ oracle step w₂ _ performed => ?_
    cases oracle <;> cases performed
    have executing := keeps attempt executing
    have marked : w₁.Marked e until_ := ⟨attempt, executing, known.trans same.symm⟩
    cases step with
    | finish | fail | stop => exact marked
    | generate =>
      simp only [Program.bind]
      refine Safe.bind (Safe.weaken (generate_quietly retries executing) ?_)
      rintro _ w' ⟨rfl, marked, -⟩
      exact ih marked

theorem executeAgent_quietly (retries rounds : Nat) (marked : w.Marked e until_) :
    Quietly handlers e until_
      (executeAgent (newRetryingProvider .concrete retries) rounds e)
      (fun _ w' => w'.Marked e until_) w := by
  obtain ⟨attempt, executing, known⟩ := marked
  refine quietly_call fun w₁ ⟨keeps, same⟩ oracle setup w₂ _ performed => ?_
  cases oracle <;> cases performed
  have marked : w₁.Marked e until_ := ⟨attempt, keeps attempt executing, known.trans same.symm⟩
  cases setup with
  | some failure => exact marked
  | none => exact agentLoop_quietly retries rounds marked

/-- What the agent returns when the output of the model was cut off. -/
def truncatedErr (result : ExecutionResult) (text : String) : Err :=
  executionErr result (AgentFailure.modelOutputTruncated text).err

def verifiedErr (unresolved : Bool) (err : Err) : Err :=
  if unresolved then .outcomeUnknown err else err

def failureCode (unresolved : Bool) : String :=
  if unresolved then outcomeUnknownCode else "MODEL_OUTPUT_TRUNCATED"

variable {h : DiagnosisHandler} {c : AttemptContext} {result : ExecutionResult} {text : String}

/-- The context of an attempt presents the attempt's execution, and it has seen no cancellation. -/
structure AttemptContext.Presents (c : AttemptContext) : Prop where
  claim : c.claim = c.execution.claim
  run : c.run.id = c.execution.runID
  generation : c.job.executionGeneration = c.execution.generation
  unflagged : c.cancelSeen = false

theorem verifyDispatchState_truncated (executing : w.Executing c.execution until_ attempt) :
    Quietly handlers c.execution until_
      (verifyDispatchState c (some result) (truncatedErr result text))
      (fun verified w' =>
        verified = verifiedErr attempt.providerDispatchUnresolved (truncatedErr result text) ∧
        w'.Executing c.execution until_ attempt) w := by
  unfold verifyDispatchState
  rw [if_neg fun both => Err.noConfusion both.1]
  refine quietly_store (fun row db => row = attempt ∧ db.Executing c.execution until_ attempt)
    executing (fun db outside executing _ =>
      ⟨attempt, db, getAttempt_executing executing, rfl, executing⟩) ?_
  rintro row w' ⟨rfl, rows⟩ cause -
  have failed : truncatedErr result text ≠ .nil := Err.noConfusion
  have plain : (truncatedErr result text).isOutcomeUnknown = false ∧
      (truncatedErr result text).is .invalidStructuredReport = false := ⟨rfl, rfl⟩
  cases unresolved : row.providerDispatchUnresolved with
  | false | true =>
    simp only [unresolved, failed, plain, ↓reduceIte, reduceCtorEq, and_self]
    exact ⟨rfl, rows, cause⟩

theorem reportedFailure_truncated (result : ExecutionResult) (text : String) (unresolved : Bool) :
    ∃ failure, reportedFailure (some result) (verifiedErr unresolved (truncatedErr result text)) =
        (failure, failureCode unresolved) ∧
      classifyError failure = (.permanent, failureCode unresolved) := by
  cases unresolved with
  | false => exact ⟨_, rfl, rfl⟩
  | true => exact ⟨_, rfl, rfl⟩

theorem concludeFailure_truncated (own : c.Presents)
    (executing : w.Executing c.execution until_ attempt) (unresolved : Bool) :
    Quietly handlers c.execution until_
      (concludeFailure c (some result) (verifiedErr unresolved (truncatedErr result text)))
      (fun err w' => err = errAlreadyFinalized ∧
        w'.db.FailedWith c.execution (failureCode unresolved)) w := by
  obtain ⟨failure, reported, classified⟩ :=
    reportedFailure_truncated result text unresolved
  have coded : failureCode unresolved ≠ "" := by cases unresolved <;> decide
  unfold concludeFailure
  simp only [reported, classified, coded, ↓reduceIte, reduceCtorEq, false_and, true_or]
  refine quietly_cause executing fun w executing => ?_
  simp only [Err.is, own.unflagged, Bool.false_and, Bool.or_self, Bool.false_eq_true, ↓reduceIte,
    finalizeFailureOnJobContext]
  refine quietly_cause executing fun w executing => ?_
  simp only [Err.is, Bool.false_and, Bool.or_self, Bool.false_eq_true, ↓reduceIte]
  exact quietly_store (fun _ db => db.FailedWith c.execution (failureCode unresolved)) executing
    (fun db outside executing _ => ⟨(), by
      simpa only [StoreCall.tx, own.claim, own.run, own.generation] using
        finalizeDiagnosisFailure_executing executing⟩) fun _ w failed _ _ => ⟨rfl, failed⟩

theorem conclude_truncated (own : c.Presents) (executing : w.Executing c.execution until_ attempt)
    (fits : (attemptCheckpoint h c result .nil).Fits) :
    Quietly handlers c.execution until_ (conclude h c (some result) (truncatedErr result text))
      (fun err w' => err = errAlreadyFinalized ∧ w'.db.FailedWith c.execution
        (failureCode attempt.providerDispatchUnresolved)) w := by
  unfold conclude
  refine Safe.bind (Safe.weaken (verifyDispatchState_truncated executing) ?_)
  rintro _ w ⟨rfl, executing⟩
  -- The error is decided here. The checkpoint and the report of the failure only carry it on.
  generalize attempt.providerDispatchUnresolved = unresolved
  have known : (verifiedErr unresolved (truncatedErr result text)).is .invalidStructuredReport =
      false ∧ verifiedErr unresolved (truncatedErr result text) ≠ .nil := by
    cases unresolved <;> exact ⟨rfl, Err.noConfusion⟩
  have saved : (attemptCheckpoint h c result
    (verifiedErr unresolved (truncatedErr result text))).Fits := fits
  refine Safe.bind (quietly_store
    (fun _ db => ∃ attempt, db.Executing c.execution until_ attempt) executing
    (fun db outside executing before =>
      ⟨(), updateAttemptCheckpointWithClaim_executing executing before saved rfl⟩) ?_)
  rintro _ w ⟨attempt, rows⟩ cause -
  refine quietly_cause ⟨rows, cause⟩ fun w executing => ?_
  simp only [Err.is, own.unflagged, known, Bool.false_and, Bool.or_self, Bool.false_eq_true,
    ↓reduceIte, ne_eq, not_false_eq_true]
  exact concludeFailure_truncated own executing unresolved

/-- With the provider behind its guard, an execution whose output was cut off ends FAILED with the
code `MODEL_OUTPUT_TRUNCATED` if and only if no provider call has returned. -/
theorem truncated_output_code_iff (own : c.Presents)
    (executing : w.Executing c.execution until_ attempt)
    (fresh : attempt.providerDispatchUnresolved = false ∧ ¬ w.Responded c.execution) :
    Quietly handlers c.execution until_
      (executeAgent (h.buildForExecution c.run) h.rounds c.execution)
      (fun executed w₁ => ∀ result text, executed = (some result, truncatedErr result text) →
        (attemptCheckpoint h c result .nil).Fits →
        Quietly handlers c.execution until_ (conclude h c executed.1 executed.2)
          (fun err w₂ => err = errAlreadyFinalized ∧ ∃ code, w₂.db.FailedWith c.execution code ∧
            (code = "MODEL_OUTPUT_TRUNCATED" ↔ ¬ w₁.Responded c.execution) ∧
            (code = outcomeUnknownCode ↔ w₁.Responded c.execution)) w₁) w := by
  have marked : w.Marked c.execution until_ :=
    ⟨attempt, executing, by simp [fresh.1, fresh.2]⟩
  refine Safe.weaken (executeAgent_quietly _ h.rounds marked) ?_
  rintro _ w₁ ⟨row, executing, known⟩ result text rfl fits
  refine Safe.weaken (conclude_truncated own executing fits) ?_
  rintro _ w₂ ⟨rfl, failed⟩
  refine ⟨rfl, _, failed, ?_⟩
  rw [← known]
  cases row.providerDispatchUnresolved <;> simp [failureCode, outcomeUnknownCode]

end Programs

def attemptCreated : List (Action Claim Oracle Move) :=
  createSample :: attemptStarts "token" "attempt"

theorem attemptCreated_runs :
    ((system plainHandlers).exec initial attemptCreated).isSome = true := by
  decide +kernel

def createdWorld : World :=
  (((system plainHandlers).exec initial attemptCreated).get attemptCreated_runs).world

def sampleExecution : Execution := ⟨sampleClaim "token", 1, "run", "attempt", 1⟩

theorem truncated_output_code_iff_created :
    ∃ c : AttemptContext, createdWorld.Executing c.execution 2 (newAttempt c.execution) ∧
      Quietly plainHandlers c.execution 2
        (executeAgent (plainHandlers.diagnosis.buildForExecution c.run) 3 c.execution)
        (fun executed w₁ => ∀ result text, executed = (some result, truncatedErr result text) →
          (attemptCheckpoint plainHandlers.diagnosis c result .nil).Fits →
          Quietly plainHandlers c.execution 2
            (conclude plainHandlers.diagnosis c executed.1 executed.2)
            (fun err w₂ => err = errAlreadyFinalized ∧ ∃ code, w₂.db.FailedWith c.execution code ∧
              (code = "MODEL_OUTPUT_TRUNCATED" ↔ ¬ w₁.Responded c.execution) ∧
              (code = outcomeUnknownCode ↔ w₁.Responded c.execution)) w₁) createdWorld := by
  obtain ⟨job, jobEq, run, runEq, member, held, live, ⟨started, flag⟩, ⟨same, running, runFlag⟩,
      generation, number⟩ :
      ∃ job ∈ (createdWorld.db.view "run").job, ∃ run ∈ (createdWorld.db.view "run").run,
        newAttempt sampleExecution ∈ (createdWorld.db.view "run").attempts ∧
        job.HeldBy (sampleClaim "token") ∧ (∀ now < 2, job.leaseLive now = true) ∧
        (job.executionStarted = true ∧ job.cancelRequested = false) ∧
        (run.id = "run" ∧ run.status = .running ∧ run.cancelRequested = false) ∧
        job.executionGeneration = 1 ∧ job.expectedAttemptNo = 1 := by
    decide +kernel
  have executing : createdWorld.Executing sampleExecution 2 (newAttempt sampleExecution) :=
    ⟨⟨⟨job, run, ⟨jobEq, held, started, flag, runEq, running, runFlag, member, generation.symm,
      number.symm, rfl, rfl⟩, generation, live⟩, rfl, rfl⟩, by decide +kernel⟩
  have fresh : ¬ createdWorld.Responded sampleExecution := by
    unfold World.Responded
    decide +kernel
  exact ⟨⟨job, run, sampleClaim "token", sampleExecution⟩, executing, truncated_output_code_iff
    ⟨rfl, same, generation, by simp [AttemptContext.cancelSeen, flag, runFlag]⟩ executing
    ⟨rfl, fresh⟩⟩

def outputTruncated : List (Action Claim Oracle Move) :=
  attemptCreated ++ providerCall "token" .success ++
    [answered "token", .perform (sampleClaim "token")
        (.agent (.fail sampleResult (.modelOutputTruncated "finish_reason=length"))),
      answered "token", answered "token", .perform (sampleClaim "token") .ok,
      .perform (sampleClaim "token") .ok, .perform (sampleClaim "token") .ok, answered "token"]

theorem outputTruncated_runs :
    ((system plainHandlers).exec initial outputTruncated).isSome = true := by
  decide +kernel

/-- The one provider call returned a complete response, the agent ended because its output was cut
off, and every transaction was answered. -/
theorem truncated_output_reported_unknown :
    ∃ s : SystemState, (system plainHandlers).exec initial outputTruncated = some s ∧
      .received sampleExecution .success ∈ s.world.log ∧
      s.world.db.jobs.rows.map (fun job => (job.status, job.lastErrorCode)) =
        [(.failed, some "PROVIDER_OUTCOME_UNKNOWN")] ∧
      s.world.db.runs.rows.map (·.status) = [.failed] ∧
      s.world.db.attempts.rows.map (fun attempt => (attempt.status, attempt.errorCode)) =
        [(.failedTerminal, "PROVIDER_OUTCOME_UNKNOWN")] := by
  refine ⟨_, (Option.some_get outputTruncated_runs).symm, ?_⟩
  decide +kernel

end RepoLens
