import RepoLens.Closure

/-!
The dispatch markers against the provider calls that really went out.
-/

namespace RepoLens

open Relational Transaction Interleaving

section Attempts
variable {attempt : DiagnosisAttempt} {rest : Prog Err} {rules : RunRules} {runID : String}
  {v v' : RunView}

theorem RunStep.attempt_cases (step : RunStep rules runID v v') (proper : v.Proper)
    (member : attempt ∈ v.attempts) :
    ∃ attempt' ∈ v'.attempts, attempt.SameMarks attempt' ∨
      ∃ claim job run, rules.acts claim ∧ v.Locked claim false job run attempt ∧
        Mark rules attempt attempt' := by
  have put : ∀ {row row' : DiagnosisAttempt}, v'.attempts = v.putAttempt row' →
      row ∈ v.attempts → row'.id = row.id →
      attempt ∈ v'.attempts ∨ (row = attempt ∧ row' ∈ v'.attempts) := by
    intro row row' written there same
    rw [written]
    by_cases own : attempt.id = row'.id
    · right
      have equal := proper.ids row there attempt member (same.symm.trans own.symm)
      exact ⟨equal, RunView.mem_putAttempt there same⟩
    · exact .inl (List.mem_map.mpr ⟨attempt, member, if_neg own⟩)
  have close : ∀ {p : DiagnosisAttempt → Prop} [DecidablePred p]
      {close : DiagnosisAttempt → DiagnosisAttempt}, v'.attempts = v.closeAttempts p close →
      (∀ row, (close row).content = row.content) →
      ∃ attempt' ∈ v'.attempts, attempt.SameMarks attempt' := by
    intro p _ close written same
    rw [written]
    by_cases hit : p attempt ∧ attempt.status = .running
    · exact ⟨close attempt, List.mem_map.mpr ⟨attempt, member, if_pos hit⟩,
        DiagnosisAttempt.sameMarks_of_content (same attempt)⟩
    · exact ⟨attempt, List.mem_map.mpr ⟨attempt, member, if_neg hit⟩, .refl attempt⟩
  have kept : attempt ∈ v'.attempts → ∃ attempt' ∈ v'.attempts, attempt.SameMarks attempt' ∨
      ∃ claim job run, rules.acts claim ∧ v.Locked claim false job run attempt ∧
        Mark rules attempt attempt' :=
    fun there => ⟨attempt, there, .inl (.refl attempt)⟩
  cases step with
  | created | claimed | began | released | renewed | retried | flagged | cancelled | requeued =>
    exact kept member
  | attemptStarted => exact kept (List.mem_append_left _ member)
  | marked acting locked mark =>
    rcases put rfl locked.member (mark.step locked.unclosed).id with there | ⟨rfl, there⟩
    · exact kept there
    · exact ⟨_, there, .inr ⟨_, _, _, acting, locked, mark⟩⟩
  | closedForRetry _ locked _ marks | closed _ locked _ _ marks =>
    rcases put rfl locked.member marks.id with there | ⟨rfl, there⟩
    · exact kept there
    · exact ⟨_, there, .inl marks⟩
  | abandoned there _ content | reapedUnknown _ _ _ _ _ _ there _ _ content =>
    have marks := DiagnosisAttempt.sameMarks_of_content content
    rcases put rfl there marks.id with there | ⟨rfl, there⟩
    · exact kept there
    · exact ⟨_, there, .inl marks⟩
  | failedByJob | cancelledByJob | reapedCancelled =>
    obtain ⟨attempt', there, marks⟩ := close rfl fun _ => rfl
    exact ⟨attempt', there, .inl marks⟩
  | reapedRetry _ _ _ _ _ content =>
    obtain ⟨attempt', there, marks⟩ := close rfl content
    exact ⟨attempt', there, .inl marks⟩

/-- What identifies an attempt never changes. -/
structure DiagnosisAttempt.SamePlace (attempt attempt' : DiagnosisAttempt) : Prop where
  id : attempt'.id = attempt.id
  generation : attempt'.executionGeneration = attempt.executionGeneration
  number : attempt'.attemptNo = attempt.attemptNo

theorem DiagnosisAttempt.SameMarks.place {attempt' : DiagnosisAttempt}
    (marks : attempt.SameMarks attempt') : attempt.SamePlace attempt' :=
  ⟨marks.id, marks.executionGeneration, marks.attemptNo⟩

theorem Mark.place {attempt' : DiagnosisAttempt} (mark : Mark rules attempt attempt') :
    attempt.SamePlace attempt' := by
  cases mark <;> exact ⟨rfl, rfl, rfl⟩

theorem RunStep.keeps_final (step : RunStep rules runID v v') (proper : v.Proper)
    (saves : ∀ attempt, rules.saves attempt → attempt.checkpointKind = .none)
    (member : attempt ∈ v.attempts) (final : attempt.checkpointKind.final = true) :
    ∃ attempt' ∈ v'.attempts, attempt.SamePlace attempt' ∧
      attempt'.checkpointKind.final = true := by
  obtain ⟨attempt', there, marks | ⟨_, _, _, -, -, mark⟩⟩ := step.attempt_cases proper member
  · refine ⟨attempt', there, marks.place, ?_⟩
    rw [marks.checkpointKind]
    exact final
  · refine ⟨attempt', there, mark.place, ?_⟩
    cases mark with
    | begun | succeeded | cleared => exact final
    | checkpointed checkpoint now allowed =>
      rw [saves attempt allowed] at final
      cases final

theorem RunStep.keeps_seen (step : RunStep rules runID v v') (proper : v.Proper)
    (member : attempt ∈ v.attempts) (seen : attempt.providerDispatchSuccessSeen = true)
    (unresolved : attempt.providerDispatchUnresolved = true) :
    ∃ attempt' ∈ v'.attempts, attempt.SamePlace attempt' ∧
      ((attempt'.providerDispatchSuccessSeen = true ∧
        attempt'.providerDispatchUnresolved = true) ∨
        attempt'.checkpointKind.final = true) := by
  obtain ⟨attempt', there, marks | ⟨_, _, _, -, -, mark⟩⟩ := step.attempt_cases proper member
  · refine ⟨attempt', there, marks.place, .inl ⟨?_, ?_⟩⟩
    · exact marks.providerDispatchSuccessSeen.trans seen
    · exact marks.providerDispatchUnresolved.trans unresolved
  · refine ⟨attempt', there, mark.place, ?_⟩
    cases mark with
    | begun => exact .inl ⟨seen, rfl⟩
    | succeeded => exact .inl ⟨rfl, unresolved⟩
    | cleared unseen => cases unseen.symm.trans seen
    | checkpointed checkpoint now =>
      cases final : checkpoint.kind.final with
      | true => exact .inr final
      | false =>
        refine .inl ⟨?_, ?_⟩
        · simpa [DiagnosisAttempt.withCheckpoint, final] using seen
        · simpa [DiagnosisAttempt.withCheckpoint, final] using unresolved

theorem DiagnosisAttempt.SamePlace.trans {first second third : DiagnosisAttempt}
    (left : first.SamePlace second) (right : second.SamePlace third) : first.SamePlace third :=
  ⟨right.id.trans left.id, right.generation.trans left.generation,
    right.number.trans left.number⟩

end Attempts

section Checkpoints

variable {handlers : Handlers} {s s' : SystemState}

def savingRules : RunRules :=
  { RunRules.free with saves := fun attempt => attempt.checkpointKind = .none }

theorem Reachable.step_saving {a : Action Claim Oracle Move} (reachable : Reachable handlers s)
    (stepped : (system handlers).step s a = some s') :
    ViewStep savingRules s.world.db s'.world.db :=
  reachable.step_view stepped
    (fun _ => ⟨fun _ _ => trivial, fun _ _ => trivial, fun _ unsaved => unsaved⟩)
    (fun _ _ _ _ _ _ => trivial)
    (fun _ _ call _ _ _ => call.aborting (fun _ => trivial) (fun _ => trivial) s.world.db)
    (fun request outside _ =>
      request.granted (fun _ => trivial) (fun _ => trivial) (fun _ => trivial) (fun _ => trivial)
        s.world.db outside)

theorem Reachable.keeps_final (reachable : Reachable handlers s)
    (continued : (system handlers).Run s s') {final : DiagnosisAttempt}
    (member : final ∈ s.world.db.attempts.rows) (saved : final.checkpointKind.final = true) :
    ∃ row ∈ (s'.world.db.view final.diagnosisRunID).attempts, final.SamePlace row ∧
      row.checkpointKind.final = true := by
  apply reachable.keeps_where (P := fun v => ∃ row ∈ v.attempts, final.SamePlace row ∧
    row.checkpointKind.final = true) continued (fun there _ stepped => there.step_saving stepped)
  · rintro v v' proper - step ⟨row, present, place, kept⟩
    obtain ⟨row', present', place', kept'⟩ := step.keeps_final proper (fun _ saves => saves) present
      kept
    exact ⟨row', present', place.trans place', kept'⟩
  · exact ⟨final, view_attempt.mpr ⟨member, rfl⟩, ⟨rfl, rfl, rfl⟩, saved⟩

/-- After a final checkpoint neither its attempt nor a later one of the generation sends a
provider request; what a later attempt writes as a result comes from a final checkpoint
before it. -/
theorem Reachable.no_dispatch_after_final (reachable : Reachable handlers s)
    {final : DiagnosisAttempt} (member : final ∈ s.world.db.attempts.rows)
    (saved : final.checkpointKind.final = true) (continued : (system handlers).Run s s') :
    (∃ events, s'.world.log = events ++ s.world.log ∧
      ∀ execution, .dispatched execution ∈ events → execution.runID = final.diagnosisRunID →
        execution.generation = final.executionGeneration →
        execution.attemptNo < final.attemptNo) ∧
    (∀ own ∈ s'.world.db.attempts.rows,
      own.Of final.diagnosisRunID final.executionGeneration → final.attemptNo < own.attemptNo →
      ∃ checkpoint, (s'.world.db.view final.diagnosisRunID).EarlierFinal own checkpoint) ∧
    ∀ claim call next, s'.procs claim = some (.call (.store call) next) →
      call.Resumes handlers.diagnosis s'.world := by
  refine ⟨?_, ?_, ?_⟩
  · obtain ⟨events, log, authorized⟩ := reachable.dispatches continued
    refine ⟨events, log, fun execution sent own generation => ?_⟩
    obtain ⟨t, claim, run, allowed⟩ := authorized execution sent
    obtain ⟨row, present, place, kept⟩ := reachable.keeps_final run member saved
    -- The row would be one of the checkpoints that an authorized request rules out.
    rw [← own] at present
    by_contra later
    have unsaved := allowed.unsaved row present (place.generation.trans generation.symm)
      (by rw [place.number]; omega)
    cases unsaved.symm.trans kept
  · intro own there ofRun later
    obtain ⟨row, present, place, kept⟩ := reachable.keeps_final continued member saved
    refine ⟨row, present, place.generation.trans ofRun.2.symm, ?_, kept⟩
    rw [place.number]
    exact later
  · intro claim call next live
    have there : Reachable handlers s' := RunWhere.trans reachable continued
    obtain ⟨allowed, -⟩ := there.holds.safe claim _ live s'.world discipline_sound.rely_refl
      there.holds.inv
    exact allowed.2.2

def checkpointSaves : List (Action Claim Oracle Move) :=
  createSample :: attemptStarts "token" "attempt" ++ providerCall "token" .success ++
    [answered "token", .perform (sampleClaim "token") (.agent (.finish sampleResult)),
      answered "token"]

theorem checkpointSaves_runs :
    ((system plainHandlers).exec initial checkpointSaves).isSome = true := by
  decide +kernel

def savedState : SystemState :=
  ((system plainHandlers).exec initial checkpointSaves).get checkpointSaves_runs

/-- The worker dies behind its checkpoint, and the next claim comes to the end of its attempt. -/
def checkpointResumes : List (Action Claim Oracle Move) :=
  [.stop (sampleClaim "token"), reapSample,
    .move (.claimJobs "worker" 1 100 (fun _ => true) (fun _ => "second") 100000 true 2)] ++
    (executionStarts "second").tail ++
    [answered "second", .perform (sampleClaim "second") (.id "retry"), answered "second",
      answered "second", answered "second", .perform (sampleClaim "second") .ok,
      .perform (sampleClaim "second") .ok, .perform (sampleClaim "second") (.id "report")]

theorem no_dispatch_after_saved_checkpoint :
    ∃ s', (system plainHandlers).exec savedState checkpointResumes = some s' ∧
      ((system plainHandlers).step s' (answered "second")).map (fun s =>
        s.world.db.runs.rows.map (·.status)) = some [.succeeded] ∧
      (∃ events, s'.world.log = events ++ savedState.world.log ∧
        ∀ execution, .dispatched execution ∈ events → execution.runID = "run" →
          execution.generation = 1 → execution.attemptNo < 1) ∧
      (∃ own ∈ s'.world.db.attempts.rows, own.id = "retry" ∧
        ∃ checkpoint, (s'.world.db.view "run").EarlierFinal own checkpoint) ∧
      ∃ call next, s'.procs (sampleClaim "second") = some (.call (.store call) next) ∧
        call.Resumes plainHandlers.diagnosis s'.world := by
  obtain ⟨final, member, kind, run, generation, number⟩ :
      ∃ final ∈ savedState.world.db.attempts.rows, final.checkpointKind = .finalValid ∧
        final.diagnosisRunID = "run" ∧ final.executionGeneration = 1 ∧ final.attemptNo = 1 := by
    decide +kernel
  have ran : ((system plainHandlers).exec savedState checkpointResumes).any (fun s' =>
      decide (((system plainHandlers).step s' (answered "second")).map (fun s =>
          s.world.db.runs.rows.map (·.status)) = some [.succeeded] ∧
        ∃ own ∈ s'.world.db.attempts.rows, own.id = "retry" ∧ own.diagnosisRunID = "run" ∧
          own.executionGeneration = 1 ∧ 1 < own.attemptNo)) = true := by
    decide +kernel
  cases reached : (system plainHandlers).exec savedState checkpointResumes with
  | none => simp [reached] at ran
  | some s' =>
    simp only [reached, Option.any_some, decide_eq_true_eq] at ran
    obtain ⟨succeeds, own, present, same, ownRun, ownGeneration, later⟩ := ran
    have reachable : Reachable plainHandlers savedState :=
      Machine.exec_run (Option.some_get checkpointSaves_runs).symm
    obtain ⟨events, earlier, calls⟩ := Reachable.no_dispatch_after_final reachable member
      (by rw [kind]; rfl) (Machine.exec_run reached)
    rw [run, generation, number] at events earlier
    refine ⟨s', rfl, succeeds, events, ⟨own, present, same, earlier own present
      ⟨ownRun, ownGeneration⟩ later⟩, ?_⟩
    obtain ⟨after, stepped, -⟩ := Option.map_eq_some_iff.mp succeeds
    rcases Machine.step_cases stepped with ⟨_, _, c, next, _, same, alive, performed, -⟩ |
      ⟨_, other, -⟩ | ⟨_, _, other, -⟩
    · cases same
      cases c with
      | store call => exact ⟨call, next, alive, calls _ call next alive⟩
      | _ => cases performed
    · cases other
    · cases other

end Checkpoints

section Markers

theorem RunStep.keeps_marked {rules : RunRules} {runID : String} {v v' : RunView}
    (step : RunStep rules runID v v') (proper : v.Proper)
    (saves : ∀ attempt, rules.saves attempt → attempt.checkpointKind = .none)
    (member : attempt ∈ v.attempts)
    (marked : attempt.providerDispatchUnresolved = true ∨ attempt.checkpointKind.final = true) :
    ∃ attempt' ∈ v'.attempts, attempt.SamePlace attempt' ∧
      (attempt'.providerDispatchUnresolved = true ∨ attempt'.checkpointKind.final = true ∨
        ∃ claim job run, rules.acts claim ∧ v.Locked claim false job run attempt ∧
          rules.clears attempt) := by
  rcases marked with unresolved | final
  · obtain ⟨attempt', there, marks | ⟨claim, job, run, acting, locked, mark⟩⟩ :=
      step.attempt_cases proper member
    · exact ⟨attempt', there, marks.place,
        .inl (marks.providerDispatchUnresolved.trans unresolved)⟩
    · refine ⟨attempt', there, mark.place, ?_⟩
      cases mark with
      | begun => exact .inl rfl
      | succeeded => exact .inl unresolved
      | cleared _ allowed => exact .inr (.inr ⟨claim, job, run, acting, locked, allowed⟩)
      | checkpointed checkpoint now =>
        cases final : checkpoint.kind.final with
        | true => exact .inr (.inl final)
        | false =>
          left
          simpa [DiagnosisAttempt.withCheckpoint, final] using unresolved
  · obtain ⟨attempt', there, place, kept⟩ := step.keeps_final proper saves member final
    exact ⟨attempt', there, place, .inr (.inl kept)⟩

theorem RunView.Locked.owner {v : RunView} {claim owner : Claim} {cancelled : Bool}
    {job : AnalysisJob} {run : DiagnosisRun} (locked : v.Locked claim cancelled job run attempt)
    (numbered : v.Numbered) (owned : v.Owned owner attempt.executionGeneration attempt.attemptNo) :
    claim = owner := by
  obtain ⟨held, held_eq, executed | beyond⟩ := owned
  · cases held_eq.symm.trans locked.job_eq
    exact locked.held.unique executed.1
  · cases held_eq.symm.trans locked.job_eq
    obtain ⟨generation, number⟩ := locked.current numbered
    rcases beyond with later | ⟨-, later | ⟨-, idle⟩⟩
    · omega
    · omega
    · exact absurd ⟨locked.held.running, locked.started⟩ idle

variable {execution : Execution} {log events : List Event}

def Event.Silent (event : Event) : Prop :=
  ∀ execution, event ≠ .dispatched execution ∧ Event.isReceived execution event = false

theorem countP_silent (execution : Execution) (log : List Event)
    (silent : ∀ event ∈ events, event.Silent) :
    (events ++ log).countP (fun event => event = .dispatched execution) =
        log.countP (fun event => event = .dispatched execution) ∧
      (events ++ log).countP (Event.isReceived execution) =
        log.countP (Event.isReceived execution) := by
  have none : events.countP (fun event => event = .dispatched execution) = 0 ∧
      events.countP (Event.isReceived execution) = 0 := by
    constructor
    · apply List.countP_eq_zero.mpr
      intro event member sent
      exact (silent event member execution).1 (of_decide_eq_true sent)
    · apply List.countP_eq_zero.mpr
      intro event member received
      rw [(silent event member execution).2] at received
      cases received
  simp [List.countP_append, none]

theorem AllDefinite.silent (silent : ∀ event ∈ events, event.Silent)
    (definite : AllDefinite execution log) : AllDefinite execution (events ++ log) := by
  obtain ⟨sent, received⟩ := countP_silent execution log silent
  refine ⟨by rw [sent, received, definite.1], fun reply member => ?_⟩
  rcases List.mem_append.mp member with new | old
  · have quiet := (silent _ new execution).2
    simp [Event.isReceived] at quiet
  · exact definite.2 reply old

/-- The provider calls that went out and what the attempts show of them. -/
structure World.Tracked (w : World) : Prop where
  paired : ∀ execution, w.log.countP (Event.isReceived execution) ≤
    w.log.countP fun event => event = .dispatched execution
  flying : ∀ execution rest, w.own execution.claim = .dispatched execution :: rest →
    w.log.countP (Event.isReceived execution) <
      w.log.countP fun event => event = .dispatched execution
  owned : ∀ execution, .dispatched execution ∈ w.log →
    (w.db.view execution.runID).Owned execution.claim execution.generation execution.attemptNo
  marked : ∀ execution, .dispatched execution ∈ w.log →
    ∃ attempt ∈ (w.db.view execution.runID).attempts, attempt.id = execution.attemptID ∧
      attempt.executionGeneration = execution.generation ∧
      attempt.attemptNo = execution.attemptNo ∧
      (attempt.providerDispatchUnresolved = true ∨ attempt.checkpointKind.final = true ∨
        AllDefinite execution w.log)

variable {handlers : Handlers} {claim : Claim} {w w' : World}

theorem World.own_cons {event : Event} (log : w'.log = event :: w.log) (other : Claim) :
    w'.own other = if event.claim = other then event :: w.own other else w.own other := by
  rw [World.own, log, List.filter_cons]
  by_cases mine : event.claim = other <;> simp [mine, World.own]

theorem World.Tracked.step {rules : RunRules} (tracked : w.Tracked) (inv : w.Inv)
    (views : ViewStep rules w.db w'.db) (log : w'.log = events ++ w.log)
    (silent : ∀ event ∈ events, event.Silent)
    (saves : ∀ attempt, rules.saves attempt → attempt.checkpointKind = .none)
    (clears : ∀ actor attempt, rules.acts actor → rules.clears attempt →
      ∀ other, other.claim = actor → other.attemptID = attempt.id → AllDefinite other w.log) :
    w'.Tracked := by
  have old : ∀ execution, .dispatched execution ∈ w'.log → .dispatched execution ∈ w.log := by
    intro execution sent
    rw [log] at sent
    rcases List.mem_append.mp sent with new | old
    · exact absurd rfl (silent _ new execution).1
    · exact old
  refine ⟨fun execution => ?_, fun execution rest own => ?_, fun execution sent => ?_,
    fun execution sent => ?_⟩
  · obtain ⟨sent, received⟩ := countP_silent execution w.log silent
    rw [log, sent, received]
    exact tracked.paired execution
  · obtain ⟨sent, received⟩ := countP_silent execution w.log silent
    rw [log, sent, received]
    apply tracked.flying execution rest
    -- The newest event of the claim is a provider call, so it is an old one.
    have split : w'.own execution.claim =
        events.filter (fun event => event.claim = execution.claim) ++ w.own execution.claim := by
      rw [World.own, log, List.filter_append]
      rfl
    cases mine : events.filter (fun event => event.claim = execution.claim) with
    | nil => rw [← own, split, mine, List.nil_append]
    | cons event others =>
      rw [split, mine, List.cons_append] at own
      have listed : event ∈ events :=
        (List.mem_filter.mp (mine ▸ List.mem_cons_self : event ∈ events.filter _)).1
      cases own
      exact absurd rfl (silent _ listed execution).1
  · rcases views execution.runID with same | step
    · rw [same]
      exact tracked.owned execution (old execution sent)
    · exact step.owned (tracked.owned execution (old execution sent))
  · obtain ⟨attempt, member, id, generation, number, marked⟩ :=
      tracked.marked execution (old execution sent)
    rw [log]
    rcases views execution.runID with same | step
    · rw [same]
      exact ⟨attempt, member, id, generation, number,
        marked.imp_right (.imp_right (AllDefinite.silent silent))⟩
    · have proper := w.db.view_proper execution.runID
      rcases or_assoc.mpr marked with shown | definite
      · obtain ⟨attempt', there, place, kept⟩ := step.keeps_marked proper saves member shown
        refine ⟨attempt', there, place.id.trans id, place.generation.trans generation,
          place.number.trans number, kept.imp_right (.imp_right ?_)⟩
        rintro ⟨actor, job, run, acting, locked, cleared⟩
        have owned := tracked.owned execution (old execution sent)
        rw [← generation, ← number] at owned
        have same := locked.owner (inv.sound execution.runID).numbered owned
        exact (clears actor attempt acting cleared execution same.symm id.symm).silent silent
      · obtain ⟨attempt', there, kept⟩ := step.attempt_cases proper member
        have place : attempt.SamePlace attempt' := by
          rcases kept with marks | ⟨_, _, _, -, -, mark⟩
          · exact marks.place
          · exact mark.place
        exact ⟨attempt', there, place.id.trans id, place.generation.trans generation,
          place.number.trans number, .inr (.inr (definite.silent silent))⟩

theorem World.Tracked.dispatch (tracked : w.Tracked) (authorized : w.Authorized claim execution) :
    (w.record (.dispatched execution)).Tracked := by
  have log : (w.record (.dispatched execution)).log = .dispatched execution :: w.log := rfl
  have received : ∀ other, (Event.dispatched execution :: w.log).countP (Event.isReceived other) =
      w.log.countP (Event.isReceived other) := by
    intro other
    simp [Event.isReceived]
  have sent : ∀ other, w.log.countP (fun event => event = .dispatched other) ≤
      (Event.dispatched execution :: w.log).countP fun event => event = .dispatched other := by
    intro other
    rw [List.countP_cons]
    omega
  refine ⟨fun other => ?_, fun other rest own => ?_, fun other member => ?_,
    fun other member => ?_⟩
  · rw [log, received]
    exact (tracked.paired other).trans (sent other)
  · rw [log, received]
    rw [World.own_cons log] at own
    split at own
    · cases own
      have paired := tracked.paired execution
      simp
      omega
    · exact (tracked.flying other rest own).trans_le (sent other)
  · rcases List.mem_cons.mp member with same | old
    · cases same
      rw [authorized.own]
      exact authorized.owned
    · exact tracked.owned other old
  · by_cases same : other = execution
    · subst same
      obtain ⟨attempt, there, id, generation, number, unresolved⟩ := authorized.marked
      exact ⟨attempt, there, id, generation, number, .inl unresolved⟩
    · have different : Event.dispatched execution ≠ .dispatched other :=
        fun equal => same (Event.dispatched.inj equal).symm
      have old := (List.mem_cons.mp member).resolve_left different.symm
      obtain ⟨attempt, there, id, generation, number, marked⟩ := tracked.marked other old
      exact ⟨attempt, there, id, generation, number, marked.imp_right (.imp_right fun definite =>
        definite.cons different fun _ => Event.noConfusion)⟩

theorem World.Tracked.receive {reply : ProviderReply} {rest : List Event} (tracked : w.Tracked)
    (out : w.own execution.claim = .dispatched execution :: rest) :
    (w.record (.received execution reply)).Tracked := by
  have log : (w.record (.received execution reply)).log =
      .received execution reply :: w.log := rfl
  have flying := tracked.flying execution rest out
  have sent : ∀ other, (Event.received execution reply :: w.log).countP
      (fun event => event = .dispatched other) =
      w.log.countP fun event => event = .dispatched other := by
    intro other
    simp
  have received : ∀ other, other ≠ execution →
      (Event.received execution reply :: w.log).countP (Event.isReceived other) =
        w.log.countP (Event.isReceived other) := by
    intro other apart
    simp [Event.isReceived, apart.symm]
  refine ⟨fun other => ?_, fun other later own => ?_, fun other member => ?_,
    fun other member => ?_⟩
  · rw [log, sent]
    by_cases same : other = execution
    · subst same
      simpa [Event.isReceived] using flying
    · rw [received other same]
      exact tracked.paired other
  · rw [World.own_cons log] at own
    split at own
    · cases own
    · next apart =>
        rw [log, sent, received other fun same => apart (same ▸ rfl)]
        exact tracked.flying other later own
  · exact tracked.owned other ((List.mem_cons.mp member).resolve_left Event.noConfusion)
  · have old := (List.mem_cons.mp member).resolve_left Event.noConfusion
    obtain ⟨attempt, there, id, generation, number, marked⟩ := tracked.marked other old
    refine ⟨attempt, there, id, generation, number, ?_⟩
    rcases or_assoc.mpr marked with shown | definite
    · exact shown.imp_right .inl
    · by_cases same : other = execution
      · subst same
        -- With a request out the calls were not all definite.
        have counts := definite.1
        omega
      · refine .inr (.inr (definite.cons Event.noConfusion fun _ equal => ?_))
        exact same (Event.received.inj equal).1.symm

theorem Call.recorded_silent {c : Call} {reply : c.Reply} (noDispatch : ∀ e, c ≠ .dispatch e)
    (noReceive : ∀ e, c ≠ .receive e) : ∀ event ∈ c.recorded claim reply, event.Silent := by
  intro event recorded
  cases c with
  | dispatch e => exact absurd rfl (noDispatch e)
  | receive e => exact absurd rfl (noReceive e)
  | invokeHandler | dropPolicy | recordFinalizationError =>
    cases List.mem_singleton.mp recorded
    exact fun _ => ⟨Event.noConfusion, rfl⟩
  | _ => cases recorded

theorem World.Tracked.perform {c : Call} {oracle : Oracle} {reply : c.Reply}
    (tracked : w.Tracked) (inv : w.Inv) (allowed : c.Allowed handlers.diagnosis claim w)
    (performed : World.perform claim c w oracle = some (reply, w')) : w'.Tracked := by
  by_cases store : ∃ call, c = .store call
  · obtain ⟨call, rfl⟩ := store
    have outcome := World.perform_store performed
    refine tracked.step inv (outcome.view (.refl _) (fun overridden _ _ _ _ => overridden) inv
      (call.aborting (fun _ => trivial) (fun _ => trivial) w.db) allowed.2.1) outcome.log
      (fun event recorded => ?_) (fun _ unsaved => unsaved) ?_
    · rcases StoreCall.events_cases recorded with ⟨_, _, _, _, rfl⟩ | ⟨_, rfl | rfl⟩ <;>
        exact fun _ => ⟨Event.noConfusion, rfl⟩
    · rintro actor attempt acting definite other rfl own
      exact definite other acting.1 own
  · have other : ∀ call, c ≠ .store call := fun call same => store ⟨call, same⟩
    rw [World.perform_other other performed]
    by_cases dispatch : ∃ e, c = .dispatch e
    · obtain ⟨e, rfl⟩ := dispatch
      exact tracked.dispatch allowed.2
    by_cases receive : ∃ e, c = .receive e
    · obtain ⟨e, rfl⟩ := receive
      obtain ⟨-, rfl, rest, out⟩ := allowed
      exact tracked.receive out
    have quiet : ViewStep RunRules.outside w.db w.db := fun _ => .inl rfl
    refine tracked.step inv quiet rfl (Call.recorded_silent (fun e same => dispatch ⟨e, same⟩)
      fun e same => receive ⟨e, same⟩) (fun _ saved => saved.elim) fun _ _ acting => acting.elim

theorem World.Tracked.moved {m : Move} {started : List (Claim × Prog Unit)} (tracked : w.Tracked)
    (inv : w.Inv) (moved : w.Moved handlers m w' started) : w'.Tracked := by
  have view : ViewStep RunRules.outside w.db w'.db := moved.view inv fun request outside _ =>
    request.granted (fun _ => trivial) (fun _ => trivial) (fun _ => trivial) (fun _ => trivial)
      w.db outside
  have log : w'.log = [] ++ w.log := moved.log
  exact tracked.step inv view log (fun _ member => absurd member List.not_mem_nil)
    (fun _ saved => saved.elim) fun _ _ acting => acting.elim

theorem Reachable.tracked {s : SystemState} (reachable : Reachable handlers s) :
    s.world.Tracked := by
  apply discipline_sound.preserves (P := World.Tracked) ?_ ?_ initial_holds ?_ reachable
  · exact fun _ _ inv tracked allowed performed => tracked.perform inv allowed performed
  · exact fun _ inv tracked moved => tracked.moved inv (World.move_moved moved)
  · exact ⟨fun _ => Nat.le_refl _, fun _ _ own => absurd own.symm (List.cons_ne_nil _ _),
      fun _ sent => absurd sent List.not_mem_nil, fun _ sent => absurd sent List.not_mem_nil⟩

end Markers

section Retries

abbrev Entry := (c : Call) × c.Reply

def Entry.sends : Entry → Bool
  | ⟨.dispatch _, _⟩ => true
  | _ => false

def Quiet (calls : List Entry) : Prop := ∀ entry ∈ calls, Entry.sends entry = false

variable {execution : Execution} {calls : List Entry}

@[simp]
theorem quiet_nil : Quiet [] := fun _ member => absurd member List.not_mem_nil

@[simp]
theorem quiet_cons {entry : Entry} :
    Quiet (entry :: calls) ↔ Entry.sends entry = false ∧ Quiet calls := by
  simp [Quiet]

theorem beginDispatch_trace (trace : (beginDispatch execution).Trace calls rest) :
    Quiet calls := by
  rcases trace.of_ask with ⟨rfl, -⟩ | ⟨answer, later, rfl, afterMark⟩
  · simp
  cases answer with
  | error err =>
    obtain ⟨rfl, -⟩ := afterMark.of_pure
    simp [Entry.sends]
  | ok u =>
    rcases afterMark.of_ask with ⟨rfl, -⟩ | ⟨checked, end_, rfl, afterCheck⟩
    · simp [Entry.sends]
    cases checked with
    | error err | ok u =>
      obtain ⟨rfl, -⟩ := afterCheck.of_pure
      simp [Entry.sends]

theorem settleDispatch_trace {callErr : Err}
    (trace : (settleDispatch execution callErr).Trace calls rest) :
    (Quiet calls) ∧
      ∀ err, rest = .done err → err ≠ .nil → err.isOutcomeUnknown = false →
        definiteFailure callErr = true ∧
          calls = [⟨.store (.providerDispatchFailedDefinitely execution), .ok true⟩] := by
  -- Every other end is a response or an unknown outcome.
  have ends : ∀ {out : Err}, out = .nil ∨ out.isOutcomeUnknown = true →
      ∀ err, (pure out : Prog Err) = .done err → err ≠ .nil → err.isOutcomeUnknown = false →
        definiteFailure callErr = true ∧
          calls = [⟨.store (.providerDispatchFailedDefinitely execution), .ok true⟩] := by
    intro out settled err ended failed known
    cases ended
    rcases settled with none | unknown
    · exact absurd none failed
    · cases known.symm.trans unknown
  unfold settleDispatch at trace
  split at trace
  · rcases trace.of_ask with ⟨rfl, rfl⟩ | ⟨answer, later, rfl, after⟩
    · exact ⟨by simp, fun _ ended => by cases ended⟩
    cases answer with
    | error err =>
      obtain ⟨rfl, rfl⟩ := after.of_pure
      exact ⟨by simp [Entry.sends], ends (.inr rfl)⟩
    | ok u =>
      obtain ⟨rfl, rfl⟩ := after.of_pure
      exact ⟨by simp [Entry.sends], ends (.inl rfl)⟩
  split at trace
  · next definite =>
    rcases trace.of_ask with ⟨rfl, rfl⟩ | ⟨answer, later, rfl, after⟩
    · exact ⟨by simp, fun _ ended => by cases ended⟩
    rcases answer with err | (_ | _)
    · obtain ⟨rfl, rfl⟩ := after.of_pure
      exact ⟨by simp [Entry.sends], ends (.inr rfl)⟩
    · obtain ⟨rfl, rfl⟩ := after.of_pure
      exact ⟨by simp [Entry.sends], ends (.inr rfl)⟩
    · obtain ⟨rfl, rfl⟩ := after.of_pure
      exact ⟨by simp [Entry.sends], fun _ _ _ _ => ⟨definite, rfl⟩⟩
  · obtain ⟨rfl, rfl⟩ := trace.of_pure
    exact ⟨by simp, ends (.inr rfl)⟩

def clearedAfter (execution : Execution) (reply : ProviderReply) : List Entry :=
  [⟨.receive execution, reply⟩,
    ⟨.store (.providerDispatchFailedDefinitely execution), .ok true⟩]

/-- One guarded call sends at most one request. -/
theorem guarded_trace (trace : ((Provider.guarded .concrete).generate execution).Trace calls rest) :
    (Quiet calls) ∨
      ∃ before after, calls = before ++ ⟨.dispatch execution, ()⟩ :: after ∧
        (Quiet before) ∧ (Quiet after) ∧
        ∀ err, rest = .done err → err ≠ .nil → err.isOutcomeUnknown = false →
          ∃ reply, after = clearedAfter execution reply ∧ definiteFailure reply.err = true := by
  rcases trace.of_bind with
    ⟨_, _, inside, -⟩ | ⟨refused, before, second, rfl, began, afterBegin⟩
  · exact .inl (beginDispatch_trace inside)
  have quiet := beginDispatch_trace began
  split at afterBegin
  · obtain ⟨rfl, -⟩ := afterBegin.of_pure
    rw [List.append_nil]
    exact .inl quiet
  rcases afterBegin.of_bind with
    ⟨_, _, inside, rfl⟩ | ⟨callErr, sent, settled, rfl, called, settles⟩
  · -- The provider call is out, or about to go out.
    rcases inside.of_ask with ⟨rfl, -⟩ | ⟨⟨⟩, back, rfl, afterSend⟩
    · rw [List.append_nil]
      exact .inl quiet
    refine .inr ⟨before, back, rfl, quiet, ?_, fun _ ended => by cases ended⟩
    rcases afterSend.of_ask with ⟨rfl, -⟩ | ⟨reply, end_, rfl, afterReply⟩
    · simp
    · obtain ⟨rfl, -⟩ := afterReply.of_pure
      simp [Entry.sends]
  · rcases called.of_ask with ⟨-, ended⟩ | ⟨⟨⟩, back, rfl, afterSend⟩
    · cases ended
    rcases afterSend.of_ask with ⟨-, ended⟩ | ⟨reply, end_, rfl, afterReply⟩
    · cases ended
    obtain ⟨rfl, ended⟩ := afterReply.of_pure
    cases ended
    obtain ⟨silent, conclusive⟩ := settleDispatch_trace settles
    refine .inr ⟨before, ⟨.receive execution, reply⟩ :: settled, rfl, quiet, ?_, ?_⟩
    · exact quiet_cons.mpr ⟨rfl, silent⟩
    · intro err ended failed known
      obtain ⟨definite, rfl⟩ := conclusive err ended failed known
      exact ⟨reply, rfl, definite⟩

def Careful (execution : Execution) (calls : List Entry) : Prop :=
  ∀ before other after, calls = before ++ ⟨.dispatch other, ()⟩ :: after →
    (∃ entry ∈ after, Entry.sends entry = true) →
    ∃ reply later, after = clearedAfter execution reply ++ later ∧
      definiteFailure reply.err = true

theorem Careful.of_count (once : calls.countP Entry.sends ≤ 1) : Careful execution calls := by
  rintro before other after rfl ⟨entry, member, sends⟩
  have later : 0 < after.countP Entry.sends := List.countP_pos_iff.mpr ⟨entry, member, sends⟩
  rw [List.countP_append, List.countP_cons_of_pos rfl] at once
  omega

theorem Careful.append {first : List Entry} (quiet : Quiet first)
    (careful : Careful execution calls) : Careful execution (first ++ calls) := by
  intro before other after split again
  rcases List.append_eq_append_iff.mp split with ⟨rest, rfl, same⟩ | ⟨rest, rfl, same⟩
  · exact careful rest other after same again
  · -- The request cannot be one of the quiet calls.
    cases rest with
    | nil => exact careful [] other after same.symm again
    | cons entry rest =>
      cases same
      have silent := quiet ⟨.dispatch other, ()⟩ (by simp)
      cases silent

theorem Careful.again {before : List Entry} {reply : ProviderReply} (quiet : Quiet before)
    (definite : definiteFailure reply.err = true) (careful : Careful execution calls) :
    Careful execution
      (before ++ ⟨.dispatch execution, ()⟩ :: (clearedAfter execution reply ++ calls)) := by
  apply Careful.append quiet
  intro earlier other after split again
  cases earlier with
  | nil =>
    cases split
    exact ⟨reply, calls, rfl, definite⟩
  | cons entry earlier =>
    obtain ⟨rfl, same⟩ := List.cons.inj split
    have pause : Quiet (clearedAfter execution reply) := by simp [clearedAfter, Entry.sends]
    exact careful.append pause earlier other after same again

theorem countP_quiet {first : List Entry} (quiet : Quiet first) :
    first.countP Entry.sends = 0 := by
  apply List.countP_eq_zero.mpr
  intro entry member sends
  rw [quiet entry member] at sends
  cases sends

theorem guarded_once (trace : ((Provider.guarded .concrete).generate execution).Trace calls rest) :
    calls.countP Entry.sends ≤ 1 := by
  rcases guarded_trace trace with quiet | ⟨before, after, rfl, quietBefore, quietAfter, -⟩
  · rw [countP_quiet quiet]
    omega
  · rw [List.countP_append, List.countP_cons_of_pos rfl, countP_quiet quietBefore,
      countP_quiet quietAfter]

theorem retryLoop_trace {left attempt : Nat}
    (trace : (retryLoop ((Provider.guarded .concrete).generate execution) left attempt).Trace calls
      rest) :
    calls.countP Entry.sends ≤ left + 1 ∧ Careful execution calls := by
  induction left generalizing attempt calls with
  | zero =>
    have once : calls.countP Entry.sends ≤ 1 := by
      rcases trace.of_bind with ⟨_, _, inside, -⟩ | ⟨err, first, second, rfl, ended, after⟩
      · exact guarded_once inside
      · obtain ⟨rfl, -⟩ := after.of_pure
        rw [List.append_nil]
        exact guarded_once ended
    exact ⟨once, .of_count once⟩
  | succ left ih =>
    rcases trace.of_bind with ⟨_, _, inside, -⟩ | ⟨err, first, second, rfl, ended, after⟩
    · have once := guarded_once inside
      exact ⟨by omega, .of_count once⟩
    have once := guarded_once ended
    -- Whatever follows without another call of the client sends nothing.
    have stops : (Quiet second) →
        (first ++ second).countP Entry.sends ≤ left + 1 + 1 ∧
          Careful execution (first ++ second) := by
      intro quiet
      have total : (first ++ second).countP Entry.sends ≤ 1 := by
        rw [List.countP_append, countP_quiet quiet]
        exact once
      exact ⟨by omega, .of_count total⟩
    split at after
    · obtain ⟨rfl, -⟩ := after.of_pure
      exact stops (by simp)
    next failed =>
    split at after
    · obtain ⟨rfl, -⟩ := after.of_pure
      exact stops (by simp)
    next retry =>
    rcases after.of_ask with ⟨rfl, -⟩ | ⟨cause, afterCause, rfl, waits⟩
    · exact stops (by simp)
    split at waits
    · obtain ⟨rfl, -⟩ := waits.of_pure
      exact stops (by simp [Entry.sends])
    rcases waits.of_ask with ⟨rfl, -⟩ | ⟨waitEnded, again, rfl, loops⟩
    · exact stops (by simp [Entry.sends])
    split at loops
    · obtain ⟨rfl, -⟩ := loops.of_pure
      exact stops (by simp [Entry.sends])
    obtain ⟨bound, careful⟩ := ih loops
    have pause : Quiet [⟨.cause, cause⟩, ⟨.waitEnded, waitEnded⟩] := by simp [Entry.sends]
    have known : err.isOutcomeUnknown = false :=
      shouldRetryProvider_known (by simpa using retry)
    have later : Careful execution (⟨.cause, cause⟩ :: ⟨.waitEnded, waitEnded⟩ :: again) :=
      Careful.append pause careful
    constructor
    · rw [List.countP_append, List.countP_cons_of_neg (by simp [Entry.sends]),
        List.countP_cons_of_neg (by simp [Entry.sends])]
      omega
    · rcases guarded_trace ended with quiet | ⟨before, cleared, rfl, quiet, -, conclusive⟩
      · exact later.append quiet
      · obtain ⟨reply, rfl, definite⟩ := conclusive err rfl failed known
        rw [List.append_assoc, List.cons_append]
        exact later.again quiet definite

end Retries

section System

variable {handlers : Handlers} {s s' : SystemState}

theorem Reachable.keeps_seen (reachable : Reachable handlers s)
    (continued : (system handlers).Run s s') (member : attempt ∈ s.world.db.attempts.rows)
    (seen : attempt.providerDispatchSuccessSeen = true)
    (unresolved : attempt.providerDispatchUnresolved = true) :
    ∃ row ∈ s'.world.db.attempts.rows, row.id = attempt.id ∧
      ((row.providerDispatchSuccessSeen = true ∧ row.providerDispatchUnresolved = true) ∨
        row.checkpointKind.final = true) := by
  obtain ⟨row, present, place, kept⟩ := reachable.keeps_where
    (P := fun v => ∃ row ∈ v.attempts, attempt.SamePlace row ∧
      ((row.providerDispatchSuccessSeen = true ∧ row.providerDispatchUnresolved = true) ∨
        row.checkpointKind.final = true)) continued
          (fun there _ stepped => there.step_saving stepped)
    (fun v v' proper _ step holds => by
      obtain ⟨row, present, place, ⟨seen, unresolved⟩ | final⟩ := holds
      · obtain ⟨row', present', place', kept⟩ := step.keeps_seen proper present seen unresolved
        exact ⟨row', present', place.trans place', kept⟩
      · obtain ⟨row', present', place', kept⟩ :=
          step.keeps_final proper (fun _ saves => saves) present final
        exact ⟨row', present', place.trans place', .inr kept⟩)
    ⟨attempt, view_attempt.mpr ⟨member, rfl⟩, ⟨rfl, rfl, rfl⟩, .inl ⟨seen, unresolved⟩⟩
  exact ⟨row, (view_attempt.mp present).1, place.id, kept⟩

/-- The dispatch markers are sound: a request goes out only after its marker and authority check
under the same claim, it shows in its attempt, a seen success stays, and the retries of a call
follow definite failures only. -/
theorem Reachable.dispatch_markers_sound (reachable : Reachable handlers s) :
    (∀ claim execution next, s.procs claim = some (.call (.dispatch execution) next) →
      execution.claim = claim ∧
      (∃ rest, s.world.own claim = .authorized execution :: .begun execution :: rest) ∧
      ∃ attempt ∈ s.world.db.attempts.rows, attempt.id = execution.attemptID ∧
        attempt.providerDispatchUnresolved = true) ∧
    (∀ execution, .dispatched execution ∈ s.world.log →
      ∃ attempt ∈ s.world.db.attempts.rows, attempt.id = execution.attemptID ∧
        attempt.Of execution.runID execution.generation ∧
        (attempt.providerDispatchUnresolved = true ∨ attempt.checkpointKind.final = true ∨
          AllDefinite execution s.world.log)) ∧
    (∀ s', (system handlers).Run s s' → ∀ attempt ∈ s.world.db.attempts.rows,
      attempt.providerDispatchSuccessSeen = true → attempt.providerDispatchUnresolved = true →
      ∃ row ∈ s'.world.db.attempts.rows, row.id = attempt.id ∧
        ((row.providerDispatchSuccessSeen = true ∧ row.providerDispatchUnresolved = true) ∨
          row.checkpointKind.final = true)) ∧
    (∀ maxRetry execution calls rest,
      ((guardProvider (.retrying .concrete maxRetry)).generate execution).Trace calls rest →
      calls.countP Entry.sends ≤ maxRetry + 1 ∧ Careful execution calls) := by
  refine ⟨fun claim execution next live => ?_, fun execution sent => ?_,
    fun s' continued attempt member seen unresolved =>
      reachable.keeps_seen continued member seen unresolved,
    fun maxRetry execution calls rest trace => retryLoop_trace trace⟩
  · obtain ⟨⟨-, authorized⟩, -⟩ := reachable.holds.safe claim _ live s.world
      discipline_sound.rely_refl reachable.holds.inv
    obtain ⟨attempt, present, id, -, -, unresolved⟩ := authorized.marked
    exact ⟨authorized.own, authorized.confirmed, attempt, (view_attempt.mp present).1, id,
      unresolved⟩
  · obtain ⟨attempt, present, id, generation, -, marked⟩ := reachable.tracked.marked execution sent
    obtain ⟨member, own⟩ := view_attempt.mp present
    exact ⟨attempt, member, id, ⟨own, generation⟩, marked⟩

theorem provider_call_marked :
    ∃ attempt ∈ savedState.world.db.attempts.rows, attempt.id = "attempt" ∧ attempt.Of "run" 1 ∧
      (attempt.providerDispatchUnresolved = true ∨ attempt.checkpointKind.final = true ∨
        AllDefinite ⟨sampleClaim "token", 1, "run", "attempt", 1⟩ savedState.world.log) := by
  have reachable : Reachable plainHandlers savedState :=
    Machine.exec_run (Option.some_get checkpointSaves_runs).symm
  have sent : ∃ event ∈ savedState.world.log,
      event = .dispatched ⟨sampleClaim "token", 1, "run", "attempt", 1⟩ := by
    decide +kernel
  obtain ⟨event, member, rfl⟩ := sent
  exact (Reachable.dispatch_markers_sound reachable).2.1 _ member

end System

end RepoLens
