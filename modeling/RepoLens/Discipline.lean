import RepoLens.Interference

/-!
The discipline of the claims' programs: which calls a program may make in which world, what holds
in every world, and what one program relies on while others move.
-/

namespace RepoLens

open Relational Transaction Interleaving

def RunView.EarlierFinal (v : RunView) (own checkpoint : DiagnosisAttempt) : Prop :=
  checkpoint ∈ v.attempts ∧ checkpoint.executionGeneration = own.executionGeneration ∧
    checkpoint.attemptNo < own.attemptNo ∧ checkpoint.checkpointKind.final = true

def resumedResult (h : DiagnosisHandler) (checkpoint : DiagnosisAttempt) (attemptID : String) :
    Option ExecutionResult × Err :=
  let result := executionResultFromCheckpoint h checkpoint
  checkedResult h (some (rebindResult h checkpoint.id attemptID result))
    (checkpointErr checkpoint result)

def World.FromCheckpoint (w : World) (claim : Claim) (runID attemptID : String)
    (from_ : DiagnosisAttempt → Prop) : Prop :=
  (∃ job ∈ w.db.jobs.rows, job.HeldBy claim) →
  ∀ own ∈ (w.db.view runID).attempts, own.id = attemptID →
    (∃ earlier, (w.db.view runID).EarlierFinal own earlier) →
    ∃ checkpoint, (w.db.view runID).EarlierFinal own checkpoint ∧ from_ checkpoint

def StoreCall.Resumes (h : DiagnosisHandler) (w : World) : StoreCall → Prop
  | .updateAttemptCheckpointWithClaim execution written =>
    w.FromCheckpoint execution.claim execution.runID execution.attemptID fun checkpoint =>
      ∃ c result err, (resumedResult h checkpoint execution.attemptID).1 = some result ∧
        written = attemptCheckpoint h c result err
  | .finalizeSuccess claim runID attemptID report _ _ =>
    w.FromCheckpoint claim runID attemptID fun checkpoint =>
      ∃ c id result data status err,
        resumedResult h checkpoint attemptID = (some result, .nil) ∧
        result.report = some data ∧
        report = successReport h c id result (stampReport h c id data) status err
  | .finalizeInvalidStructuredReport claim runID attemptID report _ _ _ =>
    w.FromCheckpoint claim runID attemptID fun checkpoint =>
      ∃ c id message,
        report = invalidReport h c id message (resumedResult h checkpoint attemptID).1
  | _ => True

/-- A provider request may go out. -/
structure World.Authorized (w : World) (claim : Claim) (execution : Execution) : Prop where
  own : execution.claim = claim
  undropped : ¬w.Dropped claim
  confirmed : ∃ rest, w.own claim = .authorized execution :: .begun execution :: rest
  owned : (w.db.view execution.runID).Owned claim execution.generation execution.attemptNo
  marked : ∃ attempt ∈ (w.db.view execution.runID).attempts,
    attempt.id = execution.attemptID ∧ attempt.executionGeneration = execution.generation ∧
      attempt.attemptNo = execution.attemptNo ∧ attempt.providerDispatchUnresolved = true
  unsaved : ∀ attempt ∈ (w.db.view execution.runID).attempts,
    attempt.executionGeneration = execution.generation →
    attempt.attemptNo ≤ execution.attemptNo → attempt.checkpointKind.final = false

def Call.Allowed (h : DiagnosisHandler) (claim : Claim) (c : Call) (w : World) : Prop :=
  claim ∈ w.issued ∧
    match c with
    | .store call => call.Allowed claim w ∧ call.Resumes h w
    | .dispatch execution => w.Authorized claim execution
    | .receive execution => execution.claim = claim ∧
        ∃ rest, w.own claim = .dispatched execution :: rest
    | .invokeHandler generation =>
      (∀ earlier, .handlerInvoked claim earlier ∉ w.log) ∧
        ∃ resource number, .started claim resource generation number ∈ w.log
    | _ => True

structure World.Inv (w : World) : Prop where
  fenced : ∀ job ∈ w.db.jobs.rows, ∀ claim, job.HeldBy claim → claim ∈ w.issued
  logged : ∀ event ∈ w.log, event.claim ∈ w.issued
  caused : ∀ claim, w.cause claim = .nil ∨
    (claim ∈ w.issued ∧ ∃ reason : ContextEnd, w.cause claim = reason.err)
  heeded : ∀ claim, (w.cause claim).is (.stop .userCancel) = true →
    ∀ job ∈ w.db.jobs.rows, job.HeldBy claim → job.cancelRequested = true
  sound : w.db.Sound
  unlinked : ∀ entry ∈ w.unlinked, entry.1 ≠ .runDiagnosis

structure World.Rely (claim : Claim) (w w' : World) : Prop where
  issued : ∀ other ∈ w.issued, other ∈ w'.issued
  cause : w.cause claim ≠ .nil → w'.cause claim = w.cause claim
  own : w'.own claim = w.own claim
  held : claim ∈ w.issued → HeldFrom claim w.db w'.db
  owned : ∀ {runID generation number}, (w.db.view runID).Owned claim generation number →
    (w'.db.view runID).Owned claim generation number ∧
      (w'.db.view runID).contentsUpTo generation number =
        (w.db.view runID).contentsUpTo generation number

variable {claim : Claim} {call : StoreCall} {db db' : Database} {rules : RunRules}

theorem World.Rely.refl {w : World} : World.Rely claim w w where
  issued _ member := member
  cause _ := rfl
  own := rfl
  held _ := .refl claim w.db
  owned owned := ⟨owned, rfl⟩

theorem World.Rely.trans {w w₁ w₂ : World} (first : World.Rely claim w w₁)
    (second : World.Rely claim w₁ w₂) : World.Rely claim w w₂ where
  issued other member := second.issued other (first.issued other member)
  cause set := by
    have same := first.cause set
    rw [← same] at set
    exact (second.cause set).trans same
  own := second.own.trans first.own
  held issued := (first.held issued).trans (second.held (first.issued claim issued))
  owned owned := by
    obtain ⟨owned₁, same₁⟩ := first.owned owned
    obtain ⟨owned₂, same₂⟩ := second.owned owned₁
    exact ⟨owned₂, same₂.trans same₁⟩

def discipline (handlers : Handlers) : Discipline runtime World Claim where
  Inv := World.Inv
  allowed := Call.Allowed handlers.diagnosis
  rely := World.Rely

section Performing

variable {h : DiagnosisHandler} {claim other : Claim} {w w' : World}

theorem StoreCall.events_claim {before after : Database} {answer : Except Err call.Answer}
    (allowed : call.Allowed claim w) {event : Event}
    (recorded : event ∈ call.events before after answer) : event.claim = claim := by
  cases call with
  | markExecutionStarted actor generation =>
    cases (allowed : actor = claim)
    simp only [StoreCall.events] at recorded
    split at recorded
    · cases List.mem_singleton.mp recorded
      rfl
    · cases recorded
  | beginProviderDispatch execution | checkProviderDispatchAuthority execution =>
    simp only [StoreCall.events] at recorded
    split at recorded
    · cases List.mem_singleton.mp recorded
      exact (allowed : w.Acting claim execution.claim).1
    · cases recorded
  | _ => cases recorded

theorem Call.recorded_claim {c : Call} {reply : c.Reply} (other : ∀ call, c ≠ .store call)
    (allowed : c.Allowed h claim w) {event : Event} (recorded : event ∈ c.recorded claim reply) :
    event.claim = claim := by
  cases c with
  | store call => exact absurd rfl (other call)
  | dispatch execution =>
    cases List.mem_singleton.mp recorded
    exact allowed.2.own
  | receive execution =>
    cases List.mem_singleton.mp recorded
    exact allowed.2.1
  | invokeHandler | dropPolicy | recordFinalizationError =>
    cases List.mem_singleton.mp recorded
    rfl
  | _ => cases recorded

/-- What a call of the claim leaves behind: only the database, for a database call, and the events
of the claim change. -/
structure World.Follows (claim : Claim) (w w' : World) : Prop where
  issued : w'.issued = w.issued
  cause : w'.cause = w.cause
  unlinked : w'.unlinked = w.unlinked
  log : ∃ events : List Event, w'.log = events ++ w.log ∧ ∀ event ∈ events, event.claim = claim
  views : ViewRun (w.runRules claim) w.db w'.db
  held : ∀ other, other ≠ claim → HeldFrom other w.db w'.db
  flags : ∀ job' ∈ w'.db.jobs.rows, job'.HeldBy claim → ∃ job ∈ w.db.jobs.rows,
    job.HeldBy claim ∧ (job.cancelRequested = true → job'.cancelRequested = true)

theorem markExecutionStarted_flags {generation : Nat} {now : Time} {count : Nat}
    (ran : markExecutionStarted claim generation now db = .ok (count, db')) :
    ∀ job' ∈ db'.jobs.rows, job'.HeldBy claim → ∃ job ∈ db.jobs.rows,
      job.HeldBy claim ∧ (job.cancelRequested = true → job'.cancelRequested = true) := by
  obtain ⟨rfl, -⟩ := markExecutionStarted_ok ran
  intro job' member' held'
  obtain ⟨job, member, rfl⟩ := Table.mem_update.mp (mem_jobs_set.mp member')
  refine ⟨job, member, ?_⟩
  split at held'
  · next hit =>
      rw [if_pos hit]
      exact ⟨hit.1, fun flag => flag⟩
  · next missed =>
      rw [if_neg missed]
      exact ⟨held', fun flag => flag⟩

theorem HeldFrom.flags (held : HeldFrom claim db db') :
    ∀ job' ∈ db'.jobs.rows, job'.HeldBy claim → ∃ job ∈ db.jobs.rows,
      job.HeldBy claim ∧ (job.cancelRequested = true → job'.cancelRequested = true) := by
  intro job' member' held'
  obtain ⟨job, member, heldBefore, continues⟩ := held job' member' held'
  exact ⟨job, member, heldBefore, continues.flag⟩

theorem StoreCall.tx_flags {outside : Outside} {answer : call.Answer}
    (allowed : call.Allowed claim w) (ran : call.tx outside w.db = .ok (answer, db')) :
    ∀ job' ∈ db'.jobs.rows, job'.HeldBy claim → ∃ job ∈ w.db.jobs.rows,
      job.HeldBy claim ∧ (job.cancelRequested = true → job'.cancelRequested = true) := by
  by_cases charge : ∃ actor generation, call = .markExecutionStarted actor generation
  · obtain ⟨actor, generation, rfl⟩ := charge
    cases (allowed : actor = claim)
    exact markExecutionStarted_flags ran
  · exact (StoreCall.tx_heldFrom allowed ran
      (.inr fun actor generation same => charge ⟨actor, generation, same⟩)).flags

theorem StoreCall.Outcome.view {answer : Except Err call.Answer}
    (permits : (w.runRules claim).Permits rules) (excused : w.Excuses rules claim) (inv : w.Inv)
    (aborting : call.Aborting rules w.db) (allowed : call.Allowed claim w)
    (outcome : call.Outcome w answer w') : ViewStep rules w.db w'.db := by
  have effect := outcome.effect
  generalize w'.db = db at effect ⊢
  cases effect with
  | answered ran | unanswered ran =>
    exact tx_view permits excused (fun runID => (inv.sound runID).agrees) aborting allowed ran
  | unreached | refused => exact fun _ => .inl rfl

theorem StoreCall.Outcome.follows {answer : Except Err call.Answer} (inv : w.Inv)
    (allowed : call.Allowed claim w) (outcome : call.Outcome w answer w') :
    World.Follows claim w w' := by
  have stepped : ViewStep (w.runRules claim) w.db w'.db :=
    outcome.view (.refl _) (fun overridden _ _ _ _ => overridden) inv
      (aborting (fun _ => trivial) (fun _ => trivial) w.db call) allowed
  obtain ⟨effect, issued, cause, unlinked, log⟩ := outcome
  have events : ∃ events : List Event, w'.log = events ++ w.log ∧
      ∀ event ∈ events, event.claim = claim :=
    ⟨_, log, fun event => events_claim allowed⟩
  have committed : ∀ {outside a}, call.tx outside w.db = .ok (a, w'.db) →
      World.Follows claim w w' := fun ran =>
    { issued, cause, unlinked, log := events
      views := .single stepped
      held := fun other apart => tx_heldFrom allowed ran (.inl apart)
      flags := tx_flags allowed ran }
  have unchanged : w'.db = w.db → World.Follows claim w w' := fun same =>
    { issued, cause, unlinked, log := events
      views := .single stepped
      held := fun other _ => by rw [same]; exact .refl other w.db
      flags := by rw [same]; exact (HeldFrom.refl claim w.db).flags }
  generalize w'.db = db at effect committed unchanged log stepped
  cases effect with
  | answered ran | unanswered ran => exact committed ran
  | unreached | refused => exact unchanged rfl

theorem Call.Allowed.follows {c : Call} {oracle : Oracle} {reply : c.Reply} (inv : w.Inv)
    (allowed : c.Allowed h claim w)
    (performed : World.perform claim c w oracle = some (reply, w')) :
    World.Follows claim w w' := by
  by_cases store : ∃ call, c = .store call
  · obtain ⟨call, rfl⟩ := store
    exact (World.perform_store performed).follows inv allowed.2.1
  · have other : ∀ call, c ≠ .store call := fun call same => store ⟨call, same⟩
    cases World.perform_other other performed
    exact { issued := rfl, cause := rfl, unlinked := rfl
            log := ⟨_, rfl, fun event => recorded_claim other allowed⟩
            views := .refl
            held := fun other _ => .refl other w.db
            flags := (HeldFrom.refl claim w.db).flags }

theorem World.Follows.inv (inv : w.Inv) (issued : claim ∈ w.issued)
    (follows : World.Follows claim w w') : w'.Inv := by
  obtain ⟨events, log, own⟩ := follows.log
  refine ⟨fun job' member' holder held' => ?_, fun event member => ?_, ?_, ?_,
    follows.views.sound inv.sound, ?_⟩
  · rw [follows.issued]
    by_cases same : holder = claim
    · exact same ▸ issued
    · obtain ⟨job, member, held, -⟩ := follows.held holder same job' member' held'
      exact inv.fenced job member holder held
  · rw [follows.issued]
    rw [log, List.mem_append] at member
    rcases member with new | old
    · exact own event new ▸ issued
    · exact inv.logged event old
  · rw [follows.issued, follows.cause]
    exact inv.caused
  · rw [follows.cause]
    intro holder userCancel job' member' held'
    by_cases same : holder = claim
    · subst same
      obtain ⟨job, member, held, flag⟩ := follows.flags job' member' held'
      exact flag (inv.heeded holder userCancel job member held)
    · obtain ⟨job, member, held, continues⟩ := follows.held holder same job' member' held'
      exact continues.flag (inv.heeded holder userCancel job member held)
  · rw [follows.unlinked]
    exact inv.unlinked

theorem ViewRun.owned {runID : String} {generation number : Nat} (views : ViewRun rules db db')
    (sound : db.Sound) (others : ¬rules.acts claim)
    (owned : (db.view runID).Owned claim generation number) :
    (db'.view runID).Owned claim generation number ∧
      (db'.view runID).contentsUpTo generation number =
        (db.view runID).contentsUpTo generation number := by
  refine views.keeps (P := fun v => v.Owned claim generation number ∧
    v.contentsUpTo generation number = (db.view runID).contentsUpTo generation number) sound
    (fun v v' proper _ sound step holds => ?_) ⟨owned, rfl⟩
  exact ⟨step.owned holds.1,
    (step.frozen proper sound.numbered others holds.1).trans holds.2⟩

theorem World.own_append {events : List Event} (log : w'.log = events ++ w.log)
    (others : ∀ event ∈ events, event.claim ≠ claim) : w'.own claim = w.own claim := by
  have none : events.filter (fun event => event.claim = claim) = [] := by
    simpa [List.filter_eq_nil_iff] using others
  rw [World.own, log, List.filter_append, none, List.nil_append, World.own]

theorem World.Follows.rely (inv : w.Inv) (follows : World.Follows claim w w')
    (apart : other ≠ claim) : World.Rely other w w' := by
  obtain ⟨events, log, own⟩ := follows.log
  refine ⟨fun _ member => follows.issued ▸ member, fun _ => congrFun follows.cause other, ?_,
    fun _ => follows.held other apart, ?_⟩
  · exact own_append log fun event member same => apart (same ▸ own event member)
  · exact follows.views.owned inv.sound fun acting => apart acting.1

end Performing

section Moving

variable {handlers : Handlers} {m : Move} {w w' : World} {started : List (Claim × Prog Unit)}

theorem World.Moved.view (moved : w.Moved handlers m w' started) (inv : w.Inv)
    (granted : ∀ request outside, m = .request request outside →
      request.Granted rules w.db outside) :
    ViewStep rules w.db w'.db := by
  cases moved with
  | requested ran => exact Request.tx_view inv.sound (granted _ _ rfl) ran
  | claimed ran => exact claimJobs_view ran
  | contextEnded | seen => exact fun _ => .inl rfl
  | requeued seen ran =>
    exact SameViews.step (manualRequeue_sameViews (inv.unlinked _ seen) _ _ _ _ _ ran)

theorem World.Moved.views (moved : w.Moved handlers m w' started) (inv : w.Inv) :
    ViewRun .outside w.db w'.db :=
  .single (moved.view inv fun request outside _ =>
    request.granted (fun _ => trivial) (fun _ => trivial) (fun _ => trivial) (fun _ => trivial) w.db
      outside)

theorem World.Fresh.old {claimedJobs : List AnalysisJob} (fresh : w.Fresh claimedJobs)
    (issued : claim ∈ w.issued) :
    claim ∉ claimedJobs.map AnalysisJob.claim := by
  intro taken
  obtain ⟨job, member, rfl⟩ := List.mem_map.mp taken
  exact fresh.2 job member job.claim issued rfl

theorem World.Moved.held (moved : w.Moved handlers m w' started) {job' : AnalysisJob}
    (member' : job' ∈ w'.db.jobs.rows) (held' : job'.HeldBy claim) :
    (claim ∉ w.issued ∧ claim ∈ w'.issued) ∨
      ∃ job ∈ w.db.jobs.rows, job.HeldBy claim ∧ job.Continues job' := by
  cases moved with
  | requested ran => exact .inr (Request.tx_heldFrom ran job' member' held')
  | @claimed _ _ _ _ _ _ _ _ claimedJobs _ ran fresh =>
    have evolves : JobsEvolve (.issuing fun claim => claim ∈ claimedJobs.map AnalysisJob.claim)
        w.db _ := claimJobs_jobs ran fun job member => List.mem_map_of_mem member
    refine (evolves.held (fun _ pending => pending) member' held').imp_left fun taken => ?_
    exact ⟨fun issued => fresh.old issued taken, List.mem_append_left _ taken⟩
  | contextEnded | seen => exact .inr ⟨job', member', held', .refl job'⟩
  | requeued _ ran => exact .inr (manualRequeue_heldFrom ran job' member' held')

theorem AnalysisJob.HeldBy.same {left right : AnalysisJob} (leftMember : left ∈ db.jobs.rows)
    (rightMember : right ∈ db.jobs.rows) (leftHeld : left.HeldBy claim)
    (rightHeld : right.HeldBy claim) : left = right :=
  db.jobs.eq_of_key leftMember rightMember (leftHeld.1.trans rightHeld.1.symm)

theorem isCancelRequested_ok {job : AnalysisJob}
    (ran : isCancelRequested claim db = .ok (true, db')) (member : job ∈ db.jobs.rows)
    (held : job.HeldBy claim) : job.cancelRequested = true := by
  obtain ⟨row, present, ran₁⟩ := expect_bind_ok.mp ((Place.select_bind_ok _).mp ran)
  obtain ⟨flag, -⟩ := pure_ok.mp ran₁
  obtain ⟨rowMember, rowHeld⟩ := Table.select_some present
  rw [held.same member rowMember rowHeld, ← flag]

theorem ContextEnd.err_userCancel {reason : ContextEnd}
    (userCancel : reason.err.is (.stop .userCancel) = true) : reason = .userCancel := by
  cases reason with
  | userCancel => rfl
  | leaseFailure fault | cancelPollError fault => cases fault <;> cases userCancel
  | ownershipLost | shutdown | parentCanceled => cases userCancel

theorem ContextEnd.observed_userCancel {outside : Outside}
    (observed : ContextEnd.userCancel.observed db claim outside = true) {job : AnalysisJob}
    (member : job ∈ db.jobs.rows) (held : job.HeldBy claim) : job.cancelRequested = true := by
  simp only [ContextEnd.observed] at observed
  split at observed
  · next requested db' ran => exact isCancelRequested_ok (observed ▸ ran) member held
  · cases observed

theorem World.Moved.issued (moved : w.Moved handlers m w' started) :
    ∀ claim ∈ w.issued, claim ∈ w'.issued := by
  cases moved with
  | claimed => exact fun claim member => List.mem_append_right _ member
  | requested | contextEnded | seen | requeued => exact fun claim member => member

theorem World.Moved.log (moved : w.Moved handlers m w' started) : w'.log = w.log := by
  cases moved <;> rfl

theorem World.Moved.cause (moved : w.Moved handlers m w' started) (claim : Claim) :
    w'.cause claim = w.cause claim ∨
      (claim ∈ w.issued ∧ w.cause claim = .nil ∧ ∃ reason : ContextEnd,
        w'.cause claim = reason.err ∧ w'.db = w.db ∧
        ∃ outside, reason.observed w.db claim outside = true) := by
  cases moved with
  | @contextEnded ended reason outside issued alive observed =>
    by_cases same : claim = ended
    · subst same
      exact .inr ⟨issued, alive, reason, Function.update_self .., rfl, outside, observed⟩
    · exact .inl (Function.update_of_ne same _ _)
  | requested | claimed | seen | requeued => exact .inl rfl

theorem World.Moved.inv (moved : w.Moved handlers m w' started) (inv : w.Inv) : w'.Inv := by
  refine ⟨fun job' member' claim held' => ?_, fun event member => ?_, fun claim => ?_,
    fun claim userCancel job' member' held' => ?_, (moved.views inv).sound inv.sound, ?_⟩
  · rcases moved.held member' held' with ⟨-, issued⟩ | ⟨job, member, held, -⟩
    · exact issued
    · exact moved.issued claim (inv.fenced job member claim held)
  · rw [moved.log] at member
    exact moved.issued _ (inv.logged event member)
  · rcases moved.cause claim with same | ⟨issued, -, reason, set, -⟩
    · rw [same]
      exact (inv.caused claim).imp_right fun ⟨issued, reason⟩ => ⟨moved.issued claim issued, reason⟩
    · exact .inr ⟨moved.issued claim issued, reason, set⟩
  · rcases moved.cause claim with same | ⟨-, -, reason, set, sameDb, outside, observed⟩
    · rw [same] at userCancel
      rcases moved.held member' held' with ⟨new, -⟩ | ⟨job, member, held, continues⟩
      · -- A claim that was not issued before has no cause yet.
        rcases inv.caused claim with alive | ⟨issued, -⟩
        · rw [alive] at userCancel
          cases userCancel
        · exact absurd issued new
      · exact continues.flag (inv.heeded claim userCancel job member held)
    · rw [set] at userCancel
      cases ContextEnd.err_userCancel userCancel
      exact ContextEnd.observed_userCancel observed (sameDb ▸ member') held'
  · cases moved with
    | @seen jobType resourceID apart =>
      intro entry member
      rcases List.mem_cons.mp member with rfl | old
      · rintro rfl
        cases apart
      · exact inv.unlinked entry old
    | requested | claimed | contextEnded | requeued => exact inv.unlinked

theorem World.Moved.rely (moved : w.Moved handlers m w' started) (inv : w.Inv)
    (claim : Claim) : World.Rely claim w w' where
  issued := moved.issued
  cause set := by
    rcases moved.cause claim with same | ⟨-, alive, -⟩
    · exact same
    · exact absurd alive set
  own := by rw [World.own, World.own, moved.log]
  held issued _ member' held' :=
    (moved.held member' held').resolve_left fun new => new.1 issued
  owned := (moved.views inv).owned inv.sound id

end Moving

end RepoLens
