import RepoLens.Contract

/-!
What the programs of different claims can do to each other. A job that a claim holds stays the job
that it holds, with the same execution, until it is taken away; what was written up to the number
under which the claim executes stays as the claim left it.
-/

namespace RepoLens

open Relational Transaction Interleaving

/-- The row of one execution, later: at most its lease and its flag have changed. -/
structure AnalysisJob.Continues (job job' : AnalysisJob) : Prop where
  id : job'.id = job.id
  jobType : job'.jobType = job.jobType
  resourceID : job'.resourceID = job.resourceID
  executionGeneration : job'.executionGeneration = job.executionGeneration
  attemptCount : job'.attemptCount = job.attemptCount
  executionStarted : job'.executionStarted = job.executionStarted
  maxAttempts : job'.maxAttempts = job.maxAttempts
  flag : job.cancelRequested = true → job'.cancelRequested = true

theorem AnalysisJob.Continues.refl (job : AnalysisJob) : job.Continues job :=
  ⟨rfl, rfl, rfl, rfl, rfl, rfl, rfl, fun flag => flag⟩

theorem AnalysisJob.Continues.trans {first second third : AnalysisJob}
    (before : first.Continues second) (after : second.Continues third) :
    first.Continues third where
  id := after.id.trans before.id
  jobType := after.jobType.trans before.jobType
  resourceID := after.resourceID.trans before.resourceID
  executionGeneration := after.executionGeneration.trans before.executionGeneration
  attemptCount := after.attemptCount.trans before.attemptCount
  executionStarted := after.executionStarted.trans before.executionStarted
  maxAttempts := after.maxAttempts.trans before.maxAttempts
  flag flag := after.flag (before.flag flag)

def HeldFrom (claim : Claim) (db db' : Database) : Prop :=
  ∀ job' ∈ db'.jobs.rows, job'.HeldBy claim →
    ∃ job ∈ db.jobs.rows, job.HeldBy claim ∧ job.Continues job'

theorem HeldFrom.refl (claim : Claim) (db : Database) : HeldFrom claim db db :=
  fun job member held => ⟨job, member, held, .refl job⟩

variable {db : Database} {job job' : AnalysisJob} {call : StoreCall}

theorem HeldFrom.trans {claim : Claim} {db₁ db₂ : Database} (first : HeldFrom claim db db₁)
    (second : HeldFrom claim db₁ db₂) : HeldFrom claim db db₂ := by
  intro job₂ member₂ held₂
  obtain ⟨job₁, member₁, held₁, later⟩ := second job₂ member₂ held₂
  obtain ⟨job, member, held, earlier⟩ := first job₁ member₁ held₁
  exact ⟨job, member, held, earlier.trans later⟩

section Holding

variable {rules : JobRules} {claim : Claim}

theorem JobStep.held (step : JobStep rules job job') (held : job'.HeldBy claim) :
    rules.fresh claim ∨ (job.HeldBy claim ∧ job.Continues job') := by
  cases step with
  | claimed _ fresh =>
    obtain ⟨id, -, worker, token⟩ := held
    cases claim
    cases id
    cases worker
    cases token
    exact .inl fresh
  | renewed => exact .inr ⟨held, ⟨rfl, rfl, rfl, rfl, rfl, rfl, rfl, fun flag => flag⟩⟩
  | flagged => exact .inr ⟨held, ⟨rfl, rfl, rfl, rfl, rfl, rfl, rfl, fun _ => rfl⟩⟩
  | ended _ terminal =>
    have running := held.running
    dsimp only at running
    rw [running] at terminal
    cases terminal
  | released | retried | cancelled | requeued => cases held.running

theorem JobStep.held_run (steps : Relation.ReflTransGen (JobStep rules) job job')
    (held : job'.HeldBy claim) :
    rules.fresh claim ∨ (job.HeldBy claim ∧ job.Continues job') := by
  induction steps with
  | refl => exact .inr ⟨held, .refl job⟩
  | tail _ step ih =>
    rcases step.held held with fresh | ⟨heldBefore, last⟩
    · exact .inl fresh
    · exact (ih heldBefore).imp_right fun ⟨first, earlier⟩ => ⟨first, earlier.trans last⟩

theorem JobsEvolve.held {db' : Database} (evolves : JobsEvolve rules db db')
    (created : ∀ job, rules.create job → job.status = .pending) (member' : job' ∈ db'.jobs.rows)
    (held' : job'.HeldBy claim) :
    rules.fresh claim ∨ ∃ job ∈ db.jobs.rows, job.HeldBy claim ∧ job.Continues job' := by
  obtain ⟨job, origin, steps⟩ := evolves.2 job' member'
  rcases JobStep.held_run steps held' with fresh | ⟨held, continues⟩
  · exact .inl fresh
  · rcases origin with member | new
    · exact .inr ⟨job, member, held, continues⟩
    · cases held.running.symm.trans (created job new)

def JobRules.issuing (fresh : Claim → Prop) : JobRules where
  fresh := fresh
  retry _ := True
  requeue _ _ := True
  create job := job.status = .pending

theorem JobsEvolve.heldFrom {db' : Database} {fresh : Claim → Prop}
    (evolves : JobsEvolve (.issuing fresh) db db') (old : ¬fresh claim) :
    HeldFrom claim db db' :=
  fun _ member held => (evolves.held (fun _ pending => pending) member held).resolve_left old

theorem mem_jobs_set {table : Table AnalysisJob.id AnalysisJob.resource} :
    job ∈ (Place.jobs.set table db).jobs.rows ↔ job ∈ table.rows :=
  Iff.rfl

theorem markExecutionStarted_heldFrom {actor : Claim} {generation : Nat} {now : Time}
    {db' : Database} {count : Nat} (other : claim ≠ actor)
    (ran : markExecutionStarted actor generation now db = .ok (count, db')) :
    HeldFrom claim db db' := by
  obtain ⟨rfl, -⟩ := markExecutionStarted_ok ran
  intro job' member' held'
  obtain ⟨job, member, rfl⟩ := Table.mem_update.mp (mem_jobs_set.mp member')
  by_cases hit : job.HeldBy actor ∧ job.executionGeneration = generation ∧
      job.executionStarted = false ∧ job.leaseLive now = true
  · rw [if_pos hit] at held'
    have same : job.HeldBy claim := held'
    exact absurd (same.unique hit.1) other
  · rw [if_neg hit] at held' ⊢
    exact ⟨job, member, held', .refl job⟩

end Holding

section Calls

variable {w : World} {claim other : Claim} {db' : Database}

theorem StoreCall.tx_heldFrom {outside : Outside} {answer : call.Answer}
    (allowed : call.Allowed claim w) (ran : call.tx outside w.db = .ok (answer, db'))
    (apart : other ≠ claim ∨ ∀ actor generation, call ≠ .markExecutionStarted actor generation) :
    HeldFrom other w.db db' := by
  by_cases charge : ∃ actor generation, call = .markExecutionStarted actor generation
  · obtain ⟨actor, generation, rfl⟩ := charge
    cases (allowed : actor = claim)
    exact markExecutionStarted_heldFrom (apart.resolve_right fun no => no _ _ rfl) ran
  · have uncharged : ∀ actor generation, call ≠ .markExecutionStarted actor generation :=
      fun actor generation same => charge ⟨actor, generation, same⟩
    have evolves : JobsEvolve (.issuing fun _ => False) w.db db' :=
      StoreCall.tx_jobs (fun _ _ _ _ => trivial) (fun _ _ _ _ _ _ => rfl) allowed uncharged ran
    exact evolves.heldFrom id

theorem Request.tx_heldFrom {request : Request} {outside : Outside} {u : Unit}
    (ran : request.tx outside db = .ok (u, db')) : HeldFrom other db db' := by
  have evolves : JobsEvolve (.issuing fun _ => False) db db' := by
    refine Request.tx_jobs (fun _ _ => trivial) (fun _ _ _ _ _ => rfl) (fun _ _ => trivial) ?_ ran
    rintro revisionID rfl
    exact retryPreparation_ensures (fun _ _ same => SameJobs.evolves same.1)
      (fun _ _ _ _ _ _ => jobs_insert rfl)
      (fun _ _ _ _ _ => jobs_update fun _ _ => .requeued trivial) _ _ _ _ _ _ _ ran
  exact evolves.heldFrom id

theorem manualRequeue_heldFrom {jobType : JobType} {resourceID : String} {now : Time} {u : Unit}
    (ran : manualRequeue jobType resourceID now db = .ok (u, db')) :
    HeldFrom other db db' := by
  have evolves : JobsEvolve (.issuing fun _ => False) db db' :=
    manualRequeue_jobs (fun _ _ _ => trivial) _ _ _ ran
  exact evolves.heldFrom id

end Calls

section Inversion

inductive StoreCall.Effect (call : StoreCall) (db : Database) :
    Except Err call.Answer → Database → Prop
  | answered {outside : Outside} {a : call.Answer} {db' : Database}
      (ran : call.tx outside db = .ok (a, db')) : Effect call db (.ok a) db'
  | unanswered {outside : Outside} {a : call.Answer} {db' : Database} {fault : StoreFault}
      (ran : call.tx outside db = .ok (a, db')) : Effect call db (.error fault.err) db'
  | unreached {fault : StoreFault} : Effect call db (.error fault.err) db
  | refused {outside : Outside} {err : Err} (failed : call.tx outside db = .error err) :
      Effect call db (.error err) db

structure StoreCall.Outcome (call : StoreCall) (w : World) (answer : Except Err call.Answer)
    (w' : World) : Prop where
  effect : call.Effect w.db answer w'.db
  issued : w'.issued = w.issued
  cause : w'.cause = w.cause
  unlinked : w'.unlinked = w.unlinked
  log : w'.log = call.events w.db w'.db answer ++ w.log

theorem StoreCall.deliver_effect (outside : Outside) (delivery : Delivery StoreFault) :
    call.Effect db (deliver (call.tx outside) db (deliveryErr delivery)).1
      (deliver (call.tx outside) db (deliveryErr delivery)).2 := by
  cases delivery with
  | answered =>
    cases ran : call.tx outside db with
    | ok result => simpa only [deliver, deliveryErr, ran] using .answered ran
    | error err => simpa only [deliver, deliveryErr, ran] using .refused ran
  | lost fault => exact .unreached
  | unanswered fault =>
    cases ran : call.tx outside db with
    | ok result => simpa only [deliver, deliveryErr, ran] using .unanswered ran
    | error err => simpa only [deliver, deliveryErr, ran] using .unreached

variable {claim : Claim} {w w' : World} {oracle : Oracle}

theorem World.perform_store {answer : Except Err call.Answer}
    (performed : World.perform claim (.store call) w oracle = some (answer, w')) :
    call.Outcome w answer w' := by
  cases oracle with
  | store delivery outside =>
    cases performed
    exact ⟨StoreCall.deliver_effect outside delivery, rfl, rfl, rfl, rfl⟩
  | flag | id | time | provider | setup | agent | partialResult | stage | ok => cases performed

theorem StoreCall.events_cases {before after : Database} {answer : Except Err call.Answer}
    {event : Event} (recorded : event ∈ call.events before after answer) :
    (∃ actor resource generation number, event = .started actor resource generation number) ∨
      ∃ execution, event = .begun execution ∨ event = .authorized execution := by
  cases call with
  | markExecutionStarted =>
    simp only [StoreCall.events] at recorded
    split at recorded
    · exact .inl ⟨_, _, _, _, List.mem_singleton.mp recorded⟩
    · cases recorded
  | beginProviderDispatch execution | checkProviderDispatchAuthority execution =>
    simp only [StoreCall.events] at recorded
    split at recorded
    · cases List.mem_singleton.mp recorded
      exact .inr ⟨execution, by simp⟩
    · cases recorded
  | _ => cases recorded

def Call.recorded (claim : Claim) : (c : Call) → c.Reply → List Event
  | .dispatch execution, _ => [.dispatched execution]
  | .receive execution, reply => [.received execution reply]
  | .invokeHandler generation, _ => [.handlerInvoked claim generation]
  | .dropPolicy policy reason, _ => [.policyDropped claim policy reason]
  | .recordFinalizationError err, _ => [.finalizationError claim err]
  | _, _ => []

theorem World.perform_other {c : Call} {reply : c.Reply} (other : ∀ call, c ≠ .store call)
    (performed : World.perform claim c w oracle = some (reply, w')) :
    w' = { w with log := c.recorded claim reply ++ w.log } := by
  cases c with
  | store call => exact absurd rfl (other call)
  | _ =>
    cases oracle <;> cases performed
    all_goals rfl

inductive World.Moved (handlers : Handlers) (w : World) :
    Move → World → List (Claim × Prog Unit) → Prop
  | requested {request : Request} {outside : Outside} {db : Database} {u : Unit}
      (ran : request.tx outside w.db = .ok (u, db)) :
      Moved handlers w (.request request outside) { w with db } []
  | claimed {workerID : String} {batchSize leaseDuration : Nat} {pick : AnalysisJob → Bool}
      {tokens : Nat → String} {now : Time} {answered : Bool} {rounds : Nat}
      {claimedJobs : List AnalysisJob} {db : Database}
      (ran : RepoLens.claimJobs workerID batchSize leaseDuration pick tokens now w.db =
        .ok (claimedJobs, db))
      (fresh : w.Fresh claimedJobs) :
      Moved handlers w
        (.claimJobs workerID batchSize leaseDuration pick tokens now answered rounds)
        { w with db, issued := claimedJobs.map AnalysisJob.claim ++ w.issued }
        (if answered then
          claimedJobs.map fun job => (job.claim, startAndDispatchClaim handlers job rounds)
        else [])
  | contextEnded {claim : Claim} {reason : ContextEnd} {outside : Outside}
      (issued : claim ∈ w.issued) (alive : w.cause claim = .nil)
      (observed : reason.observed w.db claim outside = true) :
      Moved handlers w (.endContext claim reason outside)
        { w with cause := Function.update w.cause claim reason.err } []
  | seen {jobType : JobType} {resourceID : String}
      (apart : w.db.unlinked jobType resourceID = true) :
      Moved handlers w (.seeUnlinked jobType resourceID)
        { w with unlinked := (jobType, resourceID) :: w.unlinked } []
  | requeued {jobType : JobType} {resourceID : String} {now : Time} {db : Database} {u : Unit}
      (seen : (jobType, resourceID) ∈ w.unlinked)
      (ran : RepoLens.manualRequeue jobType resourceID now w.db = .ok (u, db)) :
      Moved handlers w (.manualRequeue jobType resourceID now) { w with db } []

theorem World.commit_some {tx : Tx Unit} (committed : w.commit tx = some w') :
    ∃ u db, tx w.db = .ok (u, db) ∧ w' = { w with db } := by
  unfold World.commit at committed
  split at committed
  · next u db ran => exact ⟨u, db, ran, (Option.some.inj committed).symm⟩
  · cases committed

theorem World.move_moved {handlers : Handlers} {m : Move} {started : List (Claim × Prog Unit)}
    (moved : World.move handlers m w = some (w', started)) : w.Moved handlers m w' started := by
  cases m with
  | request request outside =>
    obtain ⟨world, committed, same⟩ := Option.map_eq_some_iff.mp moved
    cases same
    obtain ⟨u, db, ran, rfl⟩ := World.commit_some committed
    exact .requested ran
  | claimJobs =>
    simp only [World.move] at moved
    split at moved
    · next claimedJobs db ran =>
        unfold World.claim at moved
        split at moved
        · next fresh =>
            cases moved
            exact .claimed ran fresh
        · cases moved
    · cases moved
  | endContext =>
    simp only [World.move] at moved
    split at moved
    · next guards =>
        cases moved
        exact .contextEnded guards.1 guards.2.1 guards.2.2
    · cases moved
  | seeUnlinked =>
    simp only [World.move] at moved
    split at moved
    · next apart =>
        cases moved
        exact .seen apart
    · cases moved
  | manualRequeue =>
    simp only [World.move] at moved
    split at moved
    · next seen =>
        obtain ⟨world, committed, same⟩ := Option.map_eq_some_iff.mp moved
        cases same
        obtain ⟨u, db, ran, rfl⟩ := World.commit_some committed
        exact .requeued seen ran
    · cases moved

end Inversion

end RepoLens
