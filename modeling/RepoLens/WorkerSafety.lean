import RepoLens.StageSafety

/-!
The worker around a handler keeps to the discipline. A job is retried only if
its handler left it settled or the worker itself has put a stop cause in the place
of the failure that the handler asked for; and a claim charges its job at most
once, before its handler is invoked.
-/

namespace RepoLens

open Relational Transaction Interleaving

section Finishing
variable {finalization : Finalization} {rounds generation : Nat} {row job : AnalysisJob}
  {handlers : Handlers} {w w' : World}

/-- What the worker knows of the job that it finishes. -/
structure World.Ending (w : World) (job : AnalysisJob) : Prop where
  issued : job.claim ∈ w.issued
  same : ∀ row ∈ w.db.jobs.rows, row.HeldBy job.claim → job.Continues row

theorem World.Ending.rely (ending : w.Ending job) (rely : World.Rely job.claim w w') :
    w'.Ending job where
  issued := rely.issued _ ending.issued
  same row member held := by
    obtain ⟨before, member', held', continues⟩ := rely.held ending.issued row member held
    exact (ending.same before member' held').trans continues

theorem World.Rely.noDiagnosis (rely : World.Rely job.claim w w') (issued : job.claim ∈ w.issued)
    (none : w.db.NoDiagnosis job.claim) : w'.db.NoDiagnosis job.claim := by
  intro row member held
  obtain ⟨before, member', held', continues⟩ := rely.held issued row member held
  rw [continues.jobType]
  exact none before member' held'

def World.DroppedFor (w : World) (claim : Claim) (cause : Err) : Prop :=
  ∃ policy, .policyDropped claim policy cause ∈ w.log

theorem World.Rely.droppedFor {cause : Err} (rely : World.Rely job.claim w w')
    (dropped : w.DroppedFor job.claim cause) : w'.DroppedFor job.claim cause := by
  obtain ⟨policy, recorded⟩ := dropped
  have own : .policyDropped job.claim policy cause ∈ w'.own job.claim := by
    rw [rely.own]
    exact List.mem_filter.mpr ⟨recorded, decide_eq_true rfl⟩
  exact ⟨policy, (List.mem_filter.mp own).1⟩

theorem World.Rely.overridden (rely : World.Rely job.claim w w')
    (overridden : w.Overridden job.claim) : w'.Overridden job.claim := by
  obtain ⟨policy, cause, recorded, retryable⟩ := overridden
  obtain ⟨policy', recorded'⟩ := rely.droppedFor ⟨policy, recorded⟩
  exact ⟨policy', cause, recorded', retryable⟩

def World.Retriable (w : World) (claim : Claim) : Prop := w.Settled claim ∨ w.Overridden claim

theorem World.Retriable.rely (retriable : w.Retriable job.claim) (issued : job.claim ∈ w.issued)
    (rely : World.Rely job.claim w w') : w'.Retriable job.claim :=
  retriable.imp (fun settled => settled.rely issued rely) rely.overridden

def Finalization.Permitted (w : World) (job : AnalysisJob) : Finalization → Prop
  | .success => w.db.NoDiagnosis job.claim
  | .failure outcome => outcome.isTerminal = false →
      job.attemptCount < job.maxAttempts ∧ w.Retriable job.claim
  | .cancel => True

structure World.Finishing (w : World) (job : AnalysisJob) (finalization : Finalization) : Prop
    extends w.Ending job where
  permitted : finalization.Permitted w job

theorem World.Finishing.rely (finishing : w.Finishing job finalization)
    (rely : World.Rely job.claim w w') : w'.Finishing job finalization := by
  refine ⟨finishing.toEnding.rely rely, ?_⟩
  have permitted := finishing.permitted
  cases finalization with
  | success => exact rely.noDiagnosis finishing.issued permitted
  | failure outcome =>
    exact fun nonterminal => (permitted nonterminal).imp_right fun retriable =>
      retriable.rely finishing.issued rely
  | cancel => trivial

def Finalization.call (claim : Claim) : Finalization → StoreCall
  | .success => .conditionalFinalizeSuccess claim
  | .failure outcome => .conditionalFinalizeFailure claim outcome
  | .cancel => .conditionalFinalizeCancel claim

theorem World.Finishing.allowed (finishing : w.Finishing job finalization)
    (started : job.executionStarted = true) :
    (finalization.call job.claim).Allowed job.claim w := by
  have permitted := finishing.permitted
  cases finalization with
  | success => exact ⟨rfl, permitted⟩
  | cancel => exact rfl
  | failure outcome =>
    refine ⟨rfl, fun nonterminal row member held => ?_⟩
    obtain ⟨left, retriable⟩ := permitted nonterminal
    have continues := finishing.same row member held
    refine ⟨?_, fun diagnosis unflagged => retriable.imp_left fun settled => ?_⟩
    · rw [continues.attemptCount, continues.maxAttempts]
      exact left
    · have started := continues.executionStarted.trans started
      exact (settled row member held started diagnosis).resolve_left fun flagged =>
        Bool.noConfusion (unflagged.symm.trans flagged)

theorem Finalization.perform_obeys {post : Except Err Unit → World → Prop}
    (started : job.executionStarted = true) (finishing : w.Finishing job finalization)
    (continues : ∀ answer w, w.Finishing job finalization → post answer w) :
    Obeys handlers job.claim (finalization.perform job.claim) post w := by
  have stable : Stable (discipline handlers) job.claim fun w => w.Finishing job finalization :=
    fun _ _ rely _ finishing => finishing.rely rely
  have rule : ∀ {call : StoreCall} {post : Except Err call.Answer → World → Prop},
      call = finalization.call job.claim →
      (∀ answer w, w.Finishing job finalization → post answer w) →
      Obeys handlers job.claim (askStore call) post w := by
    rintro _ post rfl continues
    refine Obeys.store stable finishing
      (fun w _ finishing => ⟨finishing.issued, finishing.allowed started, ?_⟩)
      fun w answer w' inv finishing outcome _ => continues answer w' (finishing.rely
        (outcome.rely inv (finishing.allowed started) ?_ fun _ _ => ?_))
    all_goals cases finalization <;> first | trivial | rfl | exact StoreCall.noConfusion
  cases finalization with
  | success => exact rule rfl continues
  | failure outcome => exact rule rfl continues
  | cancel => exact rule rfl continues

theorem Obeys.free {c : Call} {P : World → Prop} {post : c.Reply → World → Prop}
    (stable : Stable (discipline handlers) job.claim P) (holds : P w)
    (issued : ∀ w, P w → job.claim ∈ w.issued)
    (free : ∀ w, job.claim ∈ w.issued → c.Allowed handlers.diagnosis job.claim w)
    (continues : ∀ (w : World) reply w', P w → post reply w') :
    Obeys handlers job.claim (RepoLens.ask c) post w :=
  Safe.ask stable holds (fun w _ there => free w (issued w there))
    fun w _ reply w' _ there _ _ => continues w reply w' there

theorem World.Finishing.read {post : Except Err AnalysisJob → World → Prop}
    (finishing : w.Finishing job finalization)
    (continues : ∀ answer w, w.Finishing job finalization → post answer w) :
    Obeys handlers job.claim (askStore (.getJobByID job.claim.jobID)) post w := by
  refine Obeys.store (fun _ _ rely _ finishing => World.Finishing.rely finishing rely) finishing
    (fun w _ finishing => ⟨finishing.issued, trivial, trivial⟩)
    fun w answer w' inv finishing outcome _ => continues answer w' (finishing.rely
      (outcome.rely inv trivial rfl fun _ _ => StoreCall.noConfusion))

theorem resolveFinalization_obeys (started : job.executionStarted = true) (rounds : Nat)
    (lastErr : Err) (w : World) (finishing : w.Finishing job finalization) :
    Obeys handlers job.claim (resolveFinalization job.claim job finalization rounds lastErr)
      (fun _ w => w.Finishing job finalization) w := by
  have stable : Stable (discipline handlers) job.claim fun w => w.Finishing job finalization :=
    fun _ _ rely _ finishing => finishing.rely rely
  induction rounds generalizing lastErr w with
  | zero => exact finishing
  | succ rounds ih =>
    refine Safe.bind (Obeys.ask stable finishing (fun _ finishing => finishing.issued)
      (fun _ issued => ⟨issued, trivial⟩) (fun _ => Call.noConfusion) (fun _ => rfl)
      fun w stopped _ finishing => ?_)
    cases stopped with
    | true => exact finishing
    | false =>
      refine Safe.bind (Finalization.perform_obeys started finishing
        fun answer w finishing => ?_)
      cases answer with
      | ok u => exact finishing
      | error err =>
        refine Safe.bind (finishing.read fun current w finishing => ?_)
        split
        · exact finishing
        · exact ih err w finishing

theorem finish_obeys (started : job.executionStarted = true)
    (finishing : w.Finishing job finalization) :
    Obeys handlers job.claim (finish job.claim job rounds finalization) (fun _ _ => True) w := by
  refine Safe.bind ((resolveFinalization_obeys started rounds .nil w finishing).weaken
    fun resolved w finishing => ?_)
  have free : ∀ {c : Call}, (∀ w, job.claim ∈ w.issued → c.Allowed handlers.diagnosis job.claim w) →
      Obeys handlers job.claim (RepoLens.ask c) (fun _ _ => True) w := fun allowed =>
    Obeys.free (P := fun w => w.Finishing job finalization)
      (fun _ _ rely _ finishing => finishing.rely rely) finishing
      (fun _ finishing => finishing.issued) allowed fun _ _ _ _ => trivial
  split
  · trivial
  · split
    · exact free fun _ issued => ⟨issued, trivial⟩
    · exact free fun _ issued => ⟨issued, trivial⟩

end Finishing

section Outcomes

variable {handlers : Handlers} {job : AnalysisJob} {w w' : World}
  {policy : Option AtomicHandlerFailurePolicy} {err : Err}

/-- The outcome that remains of a handler, and why it can be acted on. -/
structure World.Resulting (w : World) (job : AnalysisJob)
    (policy : Option AtomicHandlerFailurePolicy) (err : Err) : Prop extends w.Ending job where
  done : err = .nil → w.db.NoDiagnosis job.claim
  terminal : ∀ asked, policy = some asked → asked.terminal = true
  retriable : w.Settled job.claim ∨ w.DroppedFor job.claim err ∨ policy.isSome = true ∨
    err.is (.stop .ownershipLost) = true

theorem World.Resulting.rely (resulting : w.Resulting job policy err)
    (rely : World.Rely job.claim w w') : w'.Resulting job policy err where
  toEnding := resulting.toEnding.rely rely
  done none := rely.noDiagnosis resulting.issued (resulting.done none)
  terminal := resulting.terminal
  retriable := resulting.retriable.imp (fun settled => settled.rely resulting.issued rely)
    (.imp_left rely.droppedFor)

theorem settleOutcome_obeys (started : job.executionStarted = true)
    (resulting : w.Resulting job policy err) :
    Obeys handlers job.claim (settleOutcome job.claim job rounds policy err)
      (fun _ _ => True) w := by
  unfold settleOutcome
  split
  · next none => exact finish_obeys started ⟨resulting.toEnding, resulting.done none⟩
  split
  · trivial
  split
  · exact finish_obeys started ⟨resulting.toEnding, trivial⟩
  next uncancelled =>
  split
  · trivial
  next owned =>
  cases policy with
  | some asked =>
    refine finish_obeys started ⟨resulting.toEnding, fun nonterminal => ?_⟩
    exact Bool.noConfusion (nonterminal.symm.trans (resulting.terminal asked rfl))
  | none =>
    refine Safe.bind (Obeys.ask (P := fun w => w.Resulting job none err)
      (fun _ _ rely _ resulting => resulting.rely rely) resulting
      (fun _ resulting => resulting.issued) (fun _ issued => ⟨issued, trivial⟩)
      (fun _ => Call.noConfusion) (fun _ => rfl) fun w nextRunAt _ resulting => ?_)
    refine finish_obeys started ⟨resulting.toEnding, fun nonterminal => ?_⟩
    simp only [ordinaryFailure, decide_eq_false_iff_not, not_or] at nonterminal
    refine ⟨Nat.lt_of_not_le nonterminal.2, ?_⟩
    rcases resulting.retriable with settled | ⟨policy, dropped⟩ | asked | lost
    · exact .inl settled
    · -- Of the four classes only the retryable one is left.
      refine .inr ⟨policy, err, dropped, ?_⟩
      cases decided : (classifyError err).1 with
      | retryable => rfl
      | permanent => exact absurd decided nonterminal.1
      | cancelled => exact absurd decided uncancelled
      | ownershipLost => exact absurd (.inr decided) owned
    · cases asked
    · exact absurd (.inl lost) owned

structure World.Concluded (w : World) (job : AnalysisJob)
    (policy : Option AtomicHandlerFailurePolicy) (err : Err) : Prop extends w.Ending job where
  done : err = .nil → w.db.NoDiagnosis job.claim
  terminal : ∀ asked, policy = some asked → asked.terminal = true
  settled : w.Settled job.claim ∨ policy.isSome = true ∨
    (w.cause job.claim).is (.stop .shutdown) = true ∨
    (w.cause job.claim).is (.stop .ownershipLost) = true

theorem World.Rely.cause_is {claim : Claim} {target : Sentinel} (rely : World.Rely claim w w')
    (set : (w.cause claim).is target = true) : (w'.cause claim).is target = true := by
  rw [rely.cause fun none => by rw [none] at set; cases set]
  exact set

theorem World.Concluded.rely (concluded : w.Concluded job policy err)
    (rely : World.Rely job.claim w w') : w'.Concluded job policy err where
  toEnding := concluded.toEnding.rely rely
  done none := rely.noDiagnosis concluded.issued (concluded.done none)
  terminal := concluded.terminal
  settled := concluded.settled.imp (fun settled => settled.rely concluded.issued rely)
    (.imp_right (.imp rely.cause_is rely.cause_is))

theorem applyCause_obeys (started : job.executionStarted = true)
    (concluded : w.Concluded job policy err) :
    Obeys handlers job.claim (applyCause job.claim job rounds policy err)
      (fun _ _ => True) w := by
  refine Safe.bind (Obeys.cause (P := fun w => w.Concluded job policy err)
    (fun _ _ rely _ concluded => concluded.rely rely) concluded
    (fun _ concluded => concluded.issued) fun w inv concluded => ?_)
  dsimp only
  split
  · trivial
  next running =>
  split
  · next stop =>
      obtain ⟨set, -⟩ := stop
      cases policy with
      | some asked =>
        -- From here on the job may be retried although its attempt is unresolved.
        refine Safe.bind (Safe.ask (P := fun w : World => w.Ending job)
          (fun _ _ rely _ ending => World.Ending.rely ending rely) concluded.toEnding
          (fun w _ ending => ⟨ending.issued, trivial⟩)
          fun w₁ oracle reply w₂ _ ending performed _ => ?_)
        cases World.perform_other (fun _ => Call.noConfusion) performed
        refine settleOutcome_obeys started ⟨⟨ending.issued, ending.same⟩,
          fun none => absurd none set, nofun, .inr (.inl ⟨asked, ?_⟩)⟩
        exact List.mem_cons_self
      | none =>
        refine settleOutcome_obeys started
          ⟨concluded.toEnding, fun none => absurd none set, nofun, ?_⟩
        rcases concluded.settled with settled | asked | shutdown | lost
        · exact .inl settled
        · cases asked
        · exact absurd (Bool.and_eq_true_iff.mpr ⟨shutdown, rfl⟩) running
        · exact .inr (.inr (.inr lost))
  · next live =>
      refine settleOutcome_obeys started ⟨concluded.toEnding, concluded.done,
        concluded.terminal, ?_⟩
      rcases concluded.settled with settled | asked | shutdown | lost
      · exact .inl settled
      · exact .inr (.inr (.inl asked))
      · -- A shutdown is passed over for a policy that is preserved.
        refine .inr (.inr (.inl ?_))
        have preserved : preserveProviderOutcomeUnknownPolicy policy = true := by
          simpa [shutdown] using running
        cases policy with
        | none => cases preserved
        | some asked => rfl
      · refine absurd ⟨fun none => ?_, .inl lost⟩ live
        rw [none] at lost
        cases lost

theorem World.Handled.concluded {expected : JobStatus} {cause : Err} (handled : w.Handled job err)
    (atomic : err.asAtomicFinalization = some (expected, cause, policy)) :
    w.Concluded job policy
      (if cause = .nil then .atomicFinalization expected cause policy else cause) where
  issued := handled.handling.issued
  same := handled.handling.same
  done none := by
    split at none
    · cases none
    · next failure => exact absurd none failure
  terminal asked same := by
    subst same
    exact handled.terminal atomic
  settled := by
    refine handled.settled.imp_right (.imp_left ?_)
    rintro ⟨_, _, asked, same⟩
    cases same.symm.trans atomic
    rfl

theorem World.Handled.rely (handled : w.Handled job err) (rely : World.Rely job.claim w w') :
    w'.Handled job err where
  handling := handled.handling.stays rely.stays
  done none := rely.noDiagnosis handled.handling.issued (handled.done none)
  terminal := handled.terminal
  settled := handled.settled.imp (fun settled => settled.rely handled.handling.issued rely)
    (.imp_right (.imp rely.cause_is rely.cause_is))

theorem World.Handled.stable :
    Stable (discipline handlers) job.claim fun w => w.Handled job err :=
  fun _ _ rely _ handled => handled.rely rely

theorem resolveOutcome_obeys (started : job.executionStarted = true) (handled : w.Handled job err) :
    Obeys handlers job.claim (resolveOutcome job.claim job rounds err) (fun _ _ => True) w := by
  unfold resolveOutcome
  split
  · next plain =>
      refine applyCause_obeys started ⟨⟨handled.handling.issued, handled.handling.same⟩,
        handled.done, nofun, handled.settled.imp_right (.imp_left ?_)⟩
      rintro ⟨_, _, _, atomic⟩
      cases plain.symm.trans atomic
  · next expected cause policy atomic =>
      refine Safe.bind (Obeys.store World.Handled.stable handled
        (fun w _ handled => ⟨handled.handling.issued, trivial, trivial⟩) ?_)
      intro w answer w' inv handled outcome _
      have handled' : w'.Handled job err :=
        handled.rely (outcome.rely inv trivial rfl fun _ _ => StoreCall.noConfusion)
      have free : ∀ {c : Call},
          (∀ w, job.claim ∈ w.issued → c.Allowed handlers.diagnosis job.claim w) →
          Obeys handlers job.claim (RepoLens.ask c) (fun _ _ => True) w' := fun allowed =>
        Obeys.free World.Handled.stable handled' (fun _ handled => handled.handling.issued)
          allowed fun _ _ _ _ => trivial
      split
      · exact free fun _ issued => ⟨issued, trivial⟩
      · exact free fun _ issued => ⟨issued, trivial⟩
      · exact applyCause_obeys started (handled'.concluded atomic)
      · exact free fun _ issued => ⟨issued, trivial⟩
      · exact free fun _ issued => ⟨issued, trivial⟩

end Outcomes

section Charging

variable {handlers : Handlers} {job : AnalysisJob} {w w' : World}

def AnalysisJob.charged (job : AnalysisJob) : AnalysisJob :=
  { job with executionStarted := true, attemptCount := job.attemptCount + 1 }

theorem AnalysisJob.Continues.charged (continues : job.Continues row) :
    job.charged.Continues row.charged where
  id := continues.id
  jobType := continues.jobType
  resourceID := continues.resourceID
  executionGeneration := continues.executionGeneration
  attemptCount := congrArg (· + 1) continues.attemptCount
  executionStarted := rfl
  maxAttempts := continues.maxAttempts
  flag := continues.flag

def World.Recorded (w : World) (job : AnalysisJob) : Prop :=
  ∃ resource number, .started job.claim resource job.executionGeneration number ∈ w.log

structure World.Claimed (w : World) (job : AnalysisJob) : Prop where
  issued : job.claim ∈ w.issued
  held : ∀ row ∈ w.db.jobs.rows, row.HeldBy job.claim →
    job.Continues row ∨ (job.charged.Continues row ∧ w.Recorded job)
  unattempted : w.Unattempted job.claim
  events : ∀ event ∈ w.own job.claim,
    ∃ resource generation number, event = .started job.claim resource generation number

theorem World.mem_own {claim : Claim} {event : Event} :
    event ∈ w.own claim ↔ event ∈ w.log ∧ event.claim = claim := by
  simp [World.own]

theorem World.Rely.recorded (rely : World.Rely job.claim w w') (recorded : w.Recorded job) :
    w'.Recorded job := by
  obtain ⟨resource, number, member⟩ := recorded
  have own : .started job.claim resource job.executionGeneration number ∈ w.own job.claim :=
    World.mem_own.mpr ⟨member, rfl⟩
  rw [← rely.own] at own
  exact ⟨resource, number, (World.mem_own.mp own).1⟩

theorem World.Claimed.rely (claimed : w.Claimed job) (rely : World.Rely job.claim w w') :
    w'.Claimed job where
  issued := rely.issued _ claimed.issued
  held row member held := by
    obtain ⟨before, member', held', continues⟩ := rely.held claimed.issued row member held
    exact (claimed.held before member' held').imp (·.trans continues)
      fun ⟨charged, recorded⟩ => ⟨charged.trans continues, rely.recorded recorded⟩
  unattempted := claimed.unattempted.rely claimed.issued rely
  events := rely.own ▸ claimed.events

theorem World.Claimed.stable :
    Stable (discipline handlers) job.claim fun w => w.Claimed job :=
  fun _ _ rely _ claimed => claimed.rely rely

theorem started_recorded {db db' : Database} {claim : Claim} {answer : Except Err Nat}
    (member : row ∈ db.jobs.rows) (held : row.HeldBy claim)
    (unstarted : row.executionStarted = false) (member' : row.charged ∈ db'.jobs.rows) :
    (StoreCall.markExecutionStarted claim generation).events db db' answer =
      [.started claim row.resource row.executionGeneration (row.attemptCount + 1)] := by
  have held' : row.charged.HeldBy claim := held
  have before : db.jobs.select (fun job => job.HeldBy claim ∧ job.executionStarted = false) =
      some row :=
    Table.select_of_mem member ⟨held, unstarted⟩ fun other present hit =>
      db.jobs.eq_of_key present member (hit.1.1.trans held.1.symm)
  have after : db'.jobs.select (fun job => job.HeldBy claim ∧ job.executionStarted = true) =
      some row.charged :=
    Table.select_of_mem member' ⟨held', rfl⟩ fun other present hit =>
      db'.jobs.eq_of_key present member' (hit.1.1.trans held'.1.symm)
  simp only [StoreCall.events, before, after]
  rfl

theorem World.Claimed.marked {answer : Except Err Nat} (claimed : w.Claimed job) (inv : w.Inv)
    (outcome : (StoreCall.markExecutionStarted job.claim generation).Outcome w answer w') :
    w'.Claimed job := by
  have events : ∀ event ∈
      (StoreCall.markExecutionStarted job.claim generation).events w.db w'.db answer,
      ∃ resource generation number, event = .started job.claim resource generation number := by
    intro event member
    simp only [StoreCall.events] at member
    split at member
    · exact ⟨_, _, _, List.mem_singleton.mp member⟩
    · cases member
  have own : w'.own job.claim =
      (StoreCall.markExecutionStarted job.claim generation).events w.db w'.db answer ++
        w.own job.claim :=
    World.own_events outcome.log fun event member => by
      obtain ⟨_, _, _, rfl⟩ := events event member
      rfl
  have kept : w.Recorded job → w'.Recorded job := by
    rintro ⟨resource, number, member⟩
    exact ⟨resource, number, outcome.log ▸ List.mem_append_right _ member⟩
  have issued : job.claim ∈ w'.issued := outcome.issued ▸ claimed.issued
  have log : ∀ event ∈ w'.own job.claim,
      ∃ resource generation number, event = .started job.claim resource generation number := by
    rw [own]
    exact fun event member => (List.mem_append.mp member).elim (events event) (claimed.events event)
  rcases outcome.effect.inv with ⟨outside, count, ran, -⟩ | ⟨same, -⟩
  · obtain ⟨db_eq, -⟩ := markExecutionStarted_ok ran
    have attempts : ∀ runID, (w'.db.view runID).attempts = (w.db.view runID).attempts := by
      rw [db_eq]
      exact fun _ => rfl
    -- A row that the claim holds afterwards is one it held before, or that row charged.
    have rows : ∀ row' ∈ w'.db.jobs.rows, row'.HeldBy job.claim → ∃ row ∈ w.db.jobs.rows,
        row.HeldBy job.claim ∧ (row' = row ∨
          (row.executionStarted = false ∧ row' = row.charged)) := by
      intro row' member' held'
      rw [db_eq] at member'
      obtain ⟨row, member, rfl⟩ := Table.mem_update.mp (mem_jobs_set.mp member')
      refine ⟨row, member, ?_⟩
      split at held'
      · next hit =>
          rw [if_pos hit]
          exact ⟨hit.1, .inr ⟨hit.2.2.1, rfl⟩⟩
      · next missed =>
          rw [if_neg missed]
          exact ⟨held', .inl rfl⟩
    refine ⟨issued, fun row' member' held' => ?_, fun row' member' held' started diagnosis => ?_,
      log⟩
    · obtain ⟨row, member, held, rfl | ⟨idle, rfl⟩⟩ := rows row' member' held'
      · exact (claimed.held row' member held).imp_right (.imp_right kept)
      · right
        have continues := (claimed.held row member held).resolve_right fun charged =>
          Bool.noConfusion (idle.symm.trans charged.1.executionStarted)
        refine ⟨continues.charged, row.resource, row.attemptCount + 1, ?_⟩
        rw [outcome.log, started_recorded member held idle member', continues.executionGeneration]
        exact List.mem_cons_self
    · rw [attempts]
      obtain ⟨row, member, held, rfl | ⟨idle, rfl⟩⟩ := rows row' member' held'
      · exact claimed.unattempted row' member held started diagnosis
      · intro attempt present current
        have job_eq : (w.db.view row.resourceID).job = some row :=
          view_job.mpr ⟨member, diagnosis, rfl⟩
        have bounded := (inv.sound row.resourceID).numbered.bounded job_eq attempt present
        have generation : attempt.executionGeneration = row.executionGeneration := current.1
        have number : attempt.attemptNo = row.attemptCount + 1 := current.2
        omega
  · refine ⟨issued, fun row member held => ?_, ?_, log⟩
    · rw [same] at member
      exact (claimed.held row member held).imp_right (.imp_right kept)
    · rw [World.Unattempted, same]
      exact claimed.unattempted

structure World.Begun (w : World) (job : AnalysisJob) (count : Nat) : Prop extends
    w.Claimed job where
  recorded : w.Recorded job
  count_eq : ∀ row ∈ w.db.jobs.rows, row.HeldBy job.claim →
    row.executionStarted = true ∧ row.attemptCount = count

theorem World.Begun.rely {count : Nat} (begun : w.Begun job count)
    (rely : World.Rely job.claim w w') : w'.Begun job count where
  toClaimed := begun.toClaimed.rely rely
  recorded := rely.recorded begun.recorded
  count_eq row member held := by
    obtain ⟨before, member', held', continues⟩ := rely.held begun.issued row member held
    obtain ⟨started, count_eq⟩ := begun.count_eq before member' held'
    exact ⟨continues.executionStarted.trans started, continues.attemptCount.trans count_eq⟩

theorem World.Claimed.begun (unstarted : job.executionStarted = false) (claimed : w.Claimed job)
    (member : row ∈ w.db.jobs.rows) (held : row.HeldBy job.claim)
    (started : row.executionStarted = true) : w.Begun job row.attemptCount where
  toClaimed := claimed
  recorded := ((claimed.held row member held).resolve_left fun continues =>
    Bool.noConfusion (unstarted.symm.trans (continues.executionStarted.symm.trans started))).2
  count_eq other present holds := by
    rw [w.db.jobs.eq_of_key present member (holds.1.trans held.1.symm)]
    exact ⟨started, rfl⟩

def World.StartResolved (job : AnalysisJob) (resolved : Option ExecutionStart) (w : World) : Prop :=
  w.Claimed job ∧ ∀ count, resolved = some (.started count) → w.Begun job count

theorem resolveExecutionStart_obeys (unstarted : job.executionStarted = false)
    (claimed : w.Claimed job) :
    Obeys handlers job.claim (resolveExecutionStart job.claim generation)
      (fun resolved w => World.StartResolved job (some resolved) w) w := by
  refine Safe.bind (Obeys.store World.Claimed.stable claimed
    (fun w _ claimed => ⟨claimed.issued, trivial, trivial⟩) ?_)
  intro w answer w' inv claimed outcome _
  have claimed := claimed.rely (outcome.rely inv trivial rfl fun _ _ => StoreCall.noConfusion)
  cases answer with
  | error err => exact ⟨claimed, nofun⟩
  | ok current =>
    dsimp only
    split
    · next held =>
        split
        · next started =>
            refine ⟨claimed, fun count same => ?_⟩
            cases same
            rcases outcome.effect.inv with ⟨outside, a, ran, seen⟩ | ⟨-, err, error, -⟩
            · cases seen.resolve_right nofun
              obtain ⟨same, member, -⟩ := Place.select_expect_ok ran
              exact claimed.begun unstarted (same ▸ member) held.1 started
            · cases error
        · exact ⟨claimed, nofun⟩
    · exact ⟨claimed, nofun⟩

theorem renewUnstarted_obeys (claimed : w.Claimed job) :
    Obeys handlers job.claim (renewUnstarted job.claim)
      (fun resolved w => w.Claimed job ∧ ∀ count, resolved ≠ some (.started count)) w := by
  have waits : ∀ w : World, w.Claimed job → Obeys handlers job.claim
      (do let ended : Bool ← ask .waitEnded
          pure (if ended then some .notStarted else none : Option ExecutionStart))
      (fun resolved w => w.Claimed job ∧ ∀ count, resolved ≠ some (.started count)) w := by
    refine fun w claimed => Safe.bind (Obeys.ask World.Claimed.stable claimed
      (fun _ claimed => claimed.issued) (fun _ issued => ⟨issued, trivial⟩)
      (fun _ => Call.noConfusion) (fun _ => rfl) fun w ended _ claimed => ⟨claimed, ?_⟩)
    cases ended <;> nofun
  refine Safe.bind (Obeys.ask World.Claimed.stable claimed (fun _ claimed => claimed.issued)
    (fun _ issued => ⟨issued, trivial⟩) (fun _ => Call.noConfusion) (fun _ => rfl)
    fun w stopped _ claimed => ?_)
  cases stopped with
  | true => exact ⟨claimed, nofun⟩
  | false =>
    refine Safe.bind (Obeys.store World.Claimed.stable claimed
      (fun w _ claimed => ⟨claimed.issued, rfl, trivial⟩) ?_)
    intro w answer w' inv claimed outcome _
    have claimed := claimed.rely (outcome.rely inv rfl rfl fun _ _ => StoreCall.noConfusion)
    cases answer with
    | ok u => exact waits w' claimed
    | error err =>
      dsimp only
      split
      · exact ⟨claimed, nofun⟩
      · exact waits w' claimed

theorem startClaimedExecution_obeys (unstarted : job.executionStarted = false) (rounds : Nat)
    (w : World) (claimed : w.Claimed job) :
    Obeys handlers job.claim (startClaimedExecution job.claim generation rounds)
      (World.StartResolved job) w := by
  induction rounds generalizing w with
  | zero => exact ⟨claimed, nofun⟩
  | succ rounds ih =>
    refine Safe.bind (Obeys.ask World.Claimed.stable claimed (fun _ claimed => claimed.issued)
      (fun _ issued => ⟨issued, trivial⟩) (fun _ => Call.noConfusion) (fun _ => rfl)
      fun w stopped _ claimed => ?_)
    cases stopped with
    | true => exact ⟨claimed, nofun⟩
    | false =>
      refine Safe.bind (Obeys.store World.Claimed.stable claimed
        (fun w _ claimed => ⟨claimed.issued, rfl, trivial⟩) ?_)
      intro w answer w' inv claimed outcome _
      have claimed' := claimed.marked inv outcome
      cases answer with
      | ok count =>
        refine ⟨claimed', fun other same => ?_⟩
        cases same
        rcases outcome.effect.inv with ⟨outside, a, ran, seen⟩ | ⟨-, err, error, -⟩
        · cases seen.resolve_right nofun
          obtain ⟨-, row, member, held, -, started, rfl⟩ := markExecutionStarted_ok ran
          exact claimed'.begun unstarted member held started
        · cases error
      | error err =>
        dsimp only
        split
        · exact ⟨claimed', nofun⟩
        refine Safe.bind ((resolveExecutionStart_obeys unstarted claimed').weaken
          fun resolved w ⟨claimed, begun⟩ => ?_)
        cases resolved with
        | notStarted =>
          refine Safe.bind ((renewUnstarted_obeys claimed).weaken
            fun resolved w ⟨claimed, unresolved⟩ => ?_)
          cases resolved with
          | none => exact ih w claimed
          | some resolved =>
            exact ⟨claimed, fun count same => absurd same (unresolved count)⟩
        | unknown | ownershipLost => exact ⟨claimed, nofun⟩
        | started count => exact ⟨claimed, begun⟩

theorem returnUndispatchedClaims_obeys (rounds : Nat) (w : World) (issued : job.claim ∈ w.issued) :
    Obeys handlers job.claim (returnUndispatchedClaims job.claim generation rounds)
      (fun _ _ => True) w := by
  have stable : Stable (discipline handlers) job.claim fun w : World => job.claim ∈ w.issued :=
    fun _ _ rely _ issued => rely.issued _ issued
  have asks : ∀ {post : Bool → World → Prop} (w : World), job.claim ∈ w.issued →
      (∀ (w : World) ended, job.claim ∈ w.issued → post ended w) →
      Obeys handlers job.claim (ask .waitEnded : Prog Bool) post w := fun w issued continues =>
    Obeys.ask stable issued (fun _ issued => issued) (fun _ issued => ⟨issued, trivial⟩)
      (fun _ => Call.noConfusion) (fun _ => rfl) fun w ended _ => continues w ended
  induction rounds generalizing w with
  | zero => trivial
  | succ rounds ih =>
    refine Safe.bind (asks w issued fun w ended issued => ?_)
    cases ended with
    | true => trivial
    | false =>
      refine Safe.bind (Obeys.store stable issued
        (fun w _ issued => ⟨issued, rfl, trivial⟩) fun w _ w' _ issued outcome _ => ?_)
      have issued : job.claim ∈ w'.issued := outcome.issued ▸ issued
      refine Safe.bind (asks w' issued fun w ended issued => ?_)
      cases ended with
      | true => trivial
      | false =>
        refine Safe.bind (Obeys.store stable issued
          (fun w _ issued => ⟨issued, rfl, trivial⟩) fun w answer w' _ issued outcome _ => ?_)
        cases answer with
        | ok u => trivial
        | error err =>
          dsimp only
          split
          · trivial
          · exact ih w' (outcome.issued ▸ issued)

end Charging

section Dispatching

variable {handlers : Handlers} {job : AnalysisJob} {w w' : World}

def AnalysisJob.dispatched (job : AnalysisJob) (count : Nat) : AnalysisJob :=
  { job with attemptCount := count, executionStarted := true }

theorem World.Begun.same {count : Nat} (unstarted : job.executionStarted = false)
    (begun : w.Begun job count) :
    ∀ row ∈ w.db.jobs.rows, row.HeldBy job.claim → (job.dispatched count).Continues row := by
  intro row member held
  obtain ⟨started, count_eq⟩ := begun.count_eq row member held
  obtain ⟨continues, -⟩ := (begun.held row member held).resolve_left fun continues =>
    Bool.noConfusion (unstarted.symm.trans (continues.executionStarted.symm.trans started))
  exact { id := continues.id
          jobType := continues.jobType
          resourceID := continues.resourceID
          executionGeneration := continues.executionGeneration
          attemptCount := count_eq
          executionStarted := started
          maxAttempts := continues.maxAttempts
          flag := continues.flag }

theorem executeJob_obeys {count : Nat} (unstarted : job.executionStarted = false)
    (begun : w.Begun job count) :
    Obeys handlers job.claim (executeJob handlers (job.dispatched count) rounds)
      (fun _ _ => True) w := by
  have same := begun.same unstarted
  have ending : w.Ending (job.dispatched count) := ⟨begun.issued, same⟩
  unfold executeJob
  split
  · have permitted : (Finalization.failure
      (noHandlerFailure (job.dispatched count).jobType)).Permitted
        w (job.dispatched count) := fun nonterminal => nomatch nonterminal
    have finishing : w.Finishing (job.dispatched count) _ := ⟨ending, permitted⟩
    exact finish_obeys rfl finishing
  split
  · have finishing : w.Finishing (job.dispatched count) .cancel := ⟨ending, trivial⟩
    exact finish_obeys rfl finishing
  refine Safe.bind (Safe.ask (P := fun w : World => w.Begun job count)
    (fun _ _ rely _ begun => World.Begun.rely begun rely) begun (fun w _ begun => ?_)
    fun w oracle reply w' inv begun performed _ => ?_)
  · -- Nothing but the charge has happened under the claim so far.
    refine ⟨begun.issued, fun earlier member => ?_, begun.recorded⟩
    obtain ⟨_, _, _, other⟩ := begun.events _ (World.mem_own.mpr ⟨member, rfl⟩)
    cases other
  · cases World.perform_other (fun _ => Call.noConfusion) performed
    have own : ∀ event ∈ (w.record (.handlerInvoked job.claim
        (job.dispatched count).executionGeneration)).own job.claim,
        event.execution = none ∧ ∀ policy cause, event ≠ .policyDropped job.claim policy cause := by
      intro event member
      obtain ⟨member, mine⟩ := World.mem_own.mp member
      rcases List.mem_cons.mp member with rfl | old
      · exact ⟨rfl, nofun⟩
      · obtain ⟨_, _, _, rfl⟩ := begun.events event (World.mem_own.mpr ⟨old, mine⟩)
        exact ⟨rfl, nofun⟩
    have undropped : ¬(w.record (.handlerInvoked job.claim
        (job.dispatched count).executionGeneration)).Dropped job.claim := by
      rintro ⟨policy, cause, member⟩
      exact (own _ (World.mem_own.mpr ⟨member, rfl⟩)).2 policy cause rfl
    have same := begun.same unstarted
    have charged : (w.record (.handlerInvoked job.claim
        (job.dispatched count).executionGeneration)).Charged (job.dispatched count) :=
      ⟨⟨begun.issued, same, undropped⟩, begun.unattempted, fun event member => (own event member).1⟩
    exact Safe.bind ((Handlers.execute_obeys charged rfl).weaken
      fun err w handled => resolveOutcome_obeys rfl handled)

theorem startAndDispatchClaim_obeys (unstarted : job.executionStarted = false)
    (claimed : w.Claimed job) :
    Obeys handlers job.claim (startAndDispatchClaim handlers job rounds) (fun _ _ => True) w := by
  refine Safe.bind ((startClaimedExecution_obeys unstarted rounds w claimed).weaken
    fun resolved w ⟨claimed, begun⟩ => ?_)
  rcases resolved with _ | ⟨_ | _ | count | _⟩
  · trivial
  · trivial
  · exact returnUndispatchedClaims_obeys rounds w claimed.issued
  · refine Safe.bind (Obeys.ask (P := fun w => w.Begun job count)
      (fun _ _ rely _ begun => begun.rely rely) (begun count rfl)
      (fun _ begun => begun.issued) (fun _ issued => ⟨issued, trivial⟩)
      (fun _ => Call.noConfusion) (fun _ => rfl) fun w stopped _ begun => ?_)
    cases stopped with
    | true => trivial
    | false => exact executeJob_obeys unstarted begun
  · trivial

end Dispatching

end RepoLens
