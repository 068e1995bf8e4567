import RepoLens.Following

/-!
The provider side of an attempt keeps to the discipline. While the agent runs,
either a success of this attempt has been seen or every provider call so far has
come back with a definite failure; that is what allows the guard to clear the
dispatch marker, and what is lost with the first unknown outcome.
-/

namespace RepoLens

open Relational Transaction Interleaving

def Event.execution : Event → Option Execution
  | .begun execution | .authorized execution | .dispatched execution => some execution
  | .received execution _ => some execution
  | _ => none

section History

variable {execution : Execution} {log : List Event}

def Awaiting (execution : Execution) (log : List Event) : Prop :=
  log.countP (fun event => event = .dispatched execution) =
      log.countP (Event.isReceived execution) + 1 ∧
    ∀ reply, .received execution reply ∈ log → definiteFailure reply.err = true

theorem AllDefinite.dispatched (definite : AllDefinite execution log) :
    Awaiting execution (.dispatched execution :: log) := by
  obtain ⟨counts, replies⟩ := definite
  refine ⟨?_, fun reply member => ?_⟩
  · simp [Event.isReceived, counts]
  · exact replies reply (by simpa using member)

theorem Awaiting.received {reply : ProviderReply} (awaiting : Awaiting execution log)
    (failure : definiteFailure reply.err = true) :
    AllDefinite execution (.received execution reply :: log) := by
  obtain ⟨counts, replies⟩ := awaiting
  refine ⟨?_, fun other member => ?_⟩
  · simp [Event.isReceived, counts]
  · rcases List.mem_cons.mp member with same | old
    · cases same
      exact failure
    · exact replies other old

theorem AllDefinite.cons {event : Event} (definite : AllDefinite execution log)
    (other : event ≠ .dispatched execution) (quiet : ∀ reply, event ≠ .received execution reply) :
    AllDefinite execution (event :: log) := by
  obtain ⟨counts, replies⟩ := definite
  have silent : Event.isReceived execution event = false := by
    cases event with
    | received about reply =>
      refine decide_eq_false fun same => ?_
      exact quiet reply (same ▸ rfl)
    | _ => rfl
  refine ⟨?_, fun reply member => ?_⟩
  · simp [other, silent, counts]
  · rcases List.mem_cons.mp member with same | old
    · exact absurd same.symm (quiet reply)
    · exact replies reply old

theorem AllDefinite.of_other {about : Execution}
    (only : ∀ event ∈ log, ∀ other, event.execution = some other → other = about)
    (apart : execution ≠ about) : AllDefinite execution log := by
  have none : ∀ event ∈ log, event.execution ≠ some execution :=
    fun event member same => apart (only event member execution same)
  refine ⟨?_, fun reply member => absurd rfl (none _ member)⟩
  rw [List.countP_eq_zero.mpr, List.countP_eq_zero.mpr]
  · intro event member received
    cases event with
    | received about reply =>
      exact none _ member (congrArg some (of_decide_eq_true received))
    | _ => cases received
  · intro event member dispatched
    exact none event member (of_decide_eq_true dispatched ▸ rfl)

theorem allDefinite_own {w : World} :
    AllDefinite execution (w.own execution.claim) ↔ AllDefinite execution w.log := by
  have dispatches : (w.own execution.claim).countP (fun event => event = .dispatched execution) =
      w.log.countP fun event => event = .dispatched execution := by
    rw [World.own, List.countP_filter]
    refine List.countP_congr fun event _ => ?_
    by_cases same : event = .dispatched execution <;> simp [same, Event.claim]
  have receipts : (w.own execution.claim).countP (Event.isReceived execution) =
      w.log.countP (Event.isReceived execution) := by
    rw [World.own, List.countP_filter]
    refine List.countP_congr fun event _ => ?_
    cases event <;> simp [Event.isReceived, Event.claim]
    rintro rfl
    exact decide_eq_true rfl
  rw [AllDefinite, AllDefinite, dispatches, receipts]
  simp [World.own, Event.claim]

end History

structure World.Attempting (w : World) (job : AnalysisJob) (execution : Execution)
    (row : DiagnosisAttempt) : Prop where
  handling : w.Handling job
  own : execution.Of job
  runs : w.Runs execution row
  fresh : row.checkpointKind = .none

structure World.Active (w : World) (job : AnalysisJob) (execution : Execution)
    (row : DiagnosisAttempt) : Prop extends w.Attempting job execution row where
  unsaved : w.Unsaved execution
  only : ∀ event ∈ w.own execution.claim, ∀ other, event.execution = some other →
    other = execution

structure World.Ready (w : World) (job : AnalysisJob) (execution : Execution)
    (row : DiagnosisAttempt) : Prop extends w.Active job execution row where
  known : row.providerDispatchSuccessSeen = true ∨
    AllDefinite execution (w.own execution.claim)

section Attempts

variable {handlers : Handlers} {job : AnalysisJob} {execution : Execution}
  {row : DiagnosisAttempt} {w w' : World}

theorem World.Attempting.rely (attempting : w.Attempting job execution row)
    (rely : World.Rely job.claim w w') : w'.Attempting job execution row :=
  ⟨attempting.handling.stays rely.stays, attempting.own,
    attempting.runs.rely (attempting.own.claim ▸ rely), attempting.fresh⟩

theorem World.Active.own_rely (active : w.Active job execution row)
    (rely : World.Rely job.claim w w') : w'.own execution.claim = w.own execution.claim := by
  rw [active.own.claim]
  exact rely.own

theorem World.Active.rely (active : w.Active job execution row)
    (rely : World.Rely job.claim w w') : w'.Active job execution row :=
  ⟨active.toAttempting.rely rely, active.unsaved.rely active.runs (active.own.claim ▸ rely),
    active.own_rely rely ▸ active.only⟩

theorem World.Ready.rely (ready : w.Ready job execution row)
    (rely : World.Rely job.claim w w') : w'.Ready job execution row :=
  ⟨ready.toActive.rely rely, ready.own_rely rely ▸ ready.known⟩

theorem World.Attempting.acting (attempting : w.Attempting job execution row) :
    w.Acting job.claim execution.claim :=
  ⟨attempting.own.claim, attempting.handling.undropped⟩

theorem World.own_events {claim : Claim} {events : List Event}
    (log : w'.log = events ++ w.log) (mine : ∀ event ∈ events, event.claim = claim) :
    w'.own claim = events ++ w.own claim := by
  have all : events.filter (fun event => event.claim = claim) = events :=
    List.filter_eq_self.mpr fun event member => decide_eq_true (mine event member)
  rw [World.own, log, List.filter_append, all, World.own]

theorem guard_events {events log : List Event}
    (about : ∀ event ∈ events, event = .begun execution ∨ event = .authorized execution)
    (only : ∀ event ∈ log, ∀ other, event.execution = some other → other = execution) :
    (∀ event ∈ events ++ log, ∀ other, event.execution = some other → other = execution) ∧
      (AllDefinite execution log → AllDefinite execution (events ++ log)) := by
  induction events with
  | nil => exact ⟨only, id⟩
  | cons event rest ih =>
    obtain ⟨onlyRest, definite⟩ :=
      ih fun other member => about other (List.mem_cons_of_mem _ member)
    have kind := about event List.mem_cons_self
    constructor
    · intro other member about other_eq
      rcases List.mem_cons.mp member with rfl | later
      · rcases kind with rfl | rfl <;> exact (Option.some.inj other_eq).symm
      · exact onlyRest other later about other_eq
    · intro all
      refine (definite all).cons ?_ ?_ <;> rcases kind with rfl | rfl <;> simp

theorem World.Active.outcome {call : StoreCall} {answer : Except Err call.Answer}
    (row' : DiagnosisAttempt) (active : w.Active job execution row)
    (outcome : call.Outcome w answer w') (allowed : call.Allowed job.claim w)
    (uncharged : ∀ actor generation, call ≠ .markExecutionStarted actor generation)
    (about : ∀ event ∈ call.events w.db w'.db answer,
      event = .begun execution ∨ event = .authorized execution)
    (runs : w'.Runs execution row') (unsaved : w'.Unsaved execution)
    (kind : row'.checkpointKind = .none) :
    w'.Active job execution row' ∧ (AllDefinite execution (w.own execution.claim) →
      AllDefinite execution (w'.own execution.claim)) := by
  have own : w'.own execution.claim =
      call.events w.db w'.db answer ++ w.own execution.claim := by
    refine World.own_events outcome.log fun event member => ?_
    rw [active.own.claim]
    exact StoreCall.events_claim allowed member
  obtain ⟨only, definite⟩ := guard_events about active.only
  exact ⟨{ handling := active.handling.stays (outcome.stays allowed uncharged)
           own := active.own
           runs := runs
           fresh := kind
           unsaved := unsaved
           only := own ▸ only }, own ▸ definite⟩

theorem World.Active.marked {attempt attempt' : DiagnosisAttempt}
    (active : w.Active job execution row) (inv : w.Inv) (follows : World.Follows job.claim w w')
    (marked : Marked execution attempt attempt' w.db w'.db) (step : AttemptStep attempt attempt')
    (worker : attempt'.workerID = attempt.workerID)
    (kind : attempt'.checkpointKind = attempt.checkpointKind) :
    attempt.content = row ∧ w'.Runs execution attempt'.content ∧ w'.Unsaved execution ∧
      attempt'.checkpointKind = .none := by
  obtain ⟨same, runs⟩ := marked.runs active.runs follows inv step worker
  have unset : attempt.content.checkpointKind = .none := same ▸ active.fresh
  have fresh : attempt'.checkpointKind = .none := kind.trans unset
  exact ⟨same, runs, marked.unsaved active.unsaved (by rw [fresh]; rfl), fresh⟩

theorem Marked.unclosed {attempt attempt' : DiagnosisAttempt} {db db' : Database}
    (marked : Marked execution attempt attempt' db db') : attempt.status = .running := by
  obtain ⟨_, _, locked, _⟩ := marked.locked
  exact locked.unclosed

theorem World.Ready.stable :
    Stable (discipline handlers) job.claim fun w => ∃ row, w.Ready job execution row :=
  fun _ _ rely _ ⟨row, ready⟩ => ⟨row, ready.rely rely⟩

theorem World.Ready.begun {answer : Except Err Unit} (ready : w.Ready job execution row)
    (inv : w.Inv) (outcome : (StoreCall.beginProviderDispatch execution).Outcome w answer w') :
    ∃ row', w'.Ready job execution row' ∧ (answer.isOk = true →
      row'.providerDispatchUnresolved = true ∧
        ∃ rest, w'.own job.claim = .begun execution :: rest) := by
  have allowed : (StoreCall.beginProviderDispatch execution).Allowed job.claim w := ready.acting
  have about : ∀ event ∈ (StoreCall.beginProviderDispatch execution).events w.db w'.db answer,
      event = .begun execution ∨ event = .authorized execution := by
    intro event member
    simp only [StoreCall.events] at member
    split at member
    · exact .inl (List.mem_singleton.mp member)
    · cases member
  have uncharged : ∀ actor generation, StoreCall.beginProviderDispatch execution ≠
      .markExecutionStarted actor generation := fun _ _ => StoreCall.noConfusion
  have own := World.own_events outcome.log fun event => StoreCall.events_claim allowed
  rcases outcome.effect.inv with ⟨outside, u, ran, seen⟩ | ⟨same, err, rfl, -⟩
  · obtain ⟨attempt, marked⟩ := beginProviderDispatch_ok ran
    obtain ⟨same, runs, unsaved, fresh⟩ := ready.marked inv (outcome.follows inv allowed) marked
      ⟨rfl, rfl, rfl, .inr (.inl marked.unclosed)⟩ rfl rfl
    obtain ⟨active, definite⟩ :=
      ready.toActive.outcome _ outcome allowed uncharged about runs unsaved fresh
    refine ⟨_, ⟨active, ready.known.imp (fun before => ?_) definite⟩, fun ok => ⟨rfl, ?_⟩⟩
    · rw [← same] at before
      exact before
    · rcases seen with rfl | ⟨fault, rfl⟩
      · exact ⟨_, own⟩
      · cases ok
  · obtain ⟨active, definite⟩ := ready.toActive.outcome _ outcome allowed uncharged about
      (ready.runs.congr same) (ready.unsaved.congr same) ready.fresh
    exact ⟨row, ⟨active, ready.known.imp_right definite⟩, fun ok => absurd ok Bool.false_ne_true⟩

theorem checkProviderDispatchAuthority_ok {now : Time} {u : Unit} {db db' : Database}
    (ran : checkProviderDispatchAuthority execution now db = .ok (u, db')) :
    db' = db ∧ ∃ attempt ∈ db.attempts.rows, attempt.id = execution.attemptID ∧
      attempt.providerDispatchUnresolved = true := by
  obtain ⟨attempt, db₁, lock, ran₁⟩ := bind_ok.mp ran
  obtain ⟨rfl, own, -, _, _, locked, -⟩ := lockLiveDiagnosisExecutionTx_ok lock
  obtain ⟨unresolved, rfl⟩ := require_ok.mp ran₁
  exact ⟨rfl, attempt, (view_attempt.mp locked.member).1, own, unresolved⟩

theorem World.Ready.checked {answer : Except Err Unit} {rest : List Event}
    (ready : w.Ready job execution row) (begun : w.own job.claim = .begun execution :: rest)
    (outcome : (StoreCall.checkProviderDispatchAuthority execution).Outcome w answer w') :
    w'.Ready job execution row ∧ (answer.isOk = true → w'.Authorized job.claim execution) := by
  have allowed : (StoreCall.checkProviderDispatchAuthority execution).Allowed job.claim w :=
    ready.acting
  have about : ∀ event ∈
      (StoreCall.checkProviderDispatchAuthority execution).events w.db w'.db answer,
      event = .begun execution ∨ event = .authorized execution := by
    intro event member
    simp only [StoreCall.events] at member
    split at member
    · exact .inr (List.mem_singleton.mp member)
    · cases member
  have own := World.own_events outcome.log fun event => StoreCall.events_claim allowed
  have db : w'.db = w.db := outcome.effect.cases (P := fun db => db = w.db) rfl
    fun _ _ ran => (checkProviderDispatchAuthority_ok ran).1
  obtain ⟨active, definite⟩ := ready.toActive.outcome _ outcome allowed
    (fun _ _ => StoreCall.noConfusion) about (ready.runs.congr db) (ready.unsaved.congr db)
    ready.fresh
  have ready' : w'.Ready job execution row := ⟨active, ready.known.imp_right definite⟩
  refine ⟨ready', fun ok => ?_⟩
  rcases outcome.effect.inv with ⟨outside, u, ran, rfl | ⟨fault, rfl⟩⟩ | ⟨-, err, rfl, -⟩
  · obtain ⟨-, attempt, member, mine, unresolved⟩ := checkProviderDispatchAuthority_ok ran
    have content := ready.runs.attempt member mine
    obtain ⟨found, present, same, generation, -⟩ :=
      RunView.mem_contentsUpTo.mp ready'.runs.content
    have marked : found.content.providerDispatchUnresolved = true := by
      rw [same, ← content]
      exact unresolved
    have number : found.content.attemptNo = execution.attemptNo := by
      rw [same]
      exact ready.runs.number
    have id : found.content.id = execution.attemptID := by
      rw [same]
      exact ready.runs.id
    refine ⟨ready.own.claim, ready'.handling.undropped, ⟨rest, own.trans (begun ▸ rfl)⟩,
      ready.own.claim ▸ ready'.runs.owned, ⟨found, present, id, generation, number, marked⟩, ?_⟩
    exact fun other member same below => ready'.unsaved other.content
      (RunView.mem_contentsUpTo.mpr ⟨other, member, rfl, same, below⟩)
  · cases ok
  · cases ok

theorem beginDispatch_obeys (ready : ∃ row, w.Ready job execution row) :
    Obeys handlers job.claim (beginDispatch execution)
      (fun refused w => (∃ row, w.Ready job execution row) ∧ refused.Plain ∧
        (refused = .nil → w.Authorized job.claim execution)) w := by
  refine Safe.bind (Obeys.store World.Ready.stable ready ?_ ?_)
  · exact fun w _ ⟨row, ready⟩ => ⟨ready.handling.issued, ready.acting, trivial⟩
  · intro w answer w' inv ⟨row, ready⟩ outcome inv'
    obtain ⟨row', ready', marked⟩ := ready.begun inv outcome
    cases answer with
    | error err =>
      have genuine := outcome.effect.genuine fun outside => beginProviderDispatch_genuine _ _
      exact ⟨⟨row', ready'⟩, genuine.plain, fun none => absurd none genuine.ne_nil⟩
    | ok u =>
      obtain ⟨-, rest, begun⟩ := marked rfl
      refine Safe.bind (Obeys.store (P := fun w => (∃ row, w.Ready job execution row) ∧
        w.own job.claim = .begun execution :: rest) ?_ ⟨⟨row', ready'⟩, begun⟩ ?_ ?_)
      · exact fun _ _ rely _ ⟨⟨row, ready⟩, begun⟩ =>
          ⟨⟨row, ready.rely rely⟩, rely.own.trans begun⟩
      · exact fun w _ ⟨⟨row, ready⟩, _⟩ => ⟨ready.handling.issued, ready.acting, trivial⟩
      · intro w answer w' inv ⟨⟨row, ready⟩, begun⟩ outcome inv'
        obtain ⟨ready', authorized⟩ := ready.checked begun outcome
        cases answer with
        | error err =>
          have genuine := outcome.effect.genuine fun outside =>
            checkProviderDispatchAuthority_genuine _ _
          exact ⟨⟨row, ready'⟩, genuine.plain, fun none => absurd none genuine.ne_nil⟩
        | ok u => exact ⟨⟨row, ready'⟩, rfl, fun _ => authorized rfl⟩

theorem World.Authorized.rely {claim : Claim} (authorized : w.Authorized claim execution)
    (rely : World.Rely claim w w') : w'.Authorized claim execution := by
  obtain ⟨own, undropped, ⟨rest, confirmed⟩, owned, ⟨attempt, present, id, same, number, marked⟩,
    unsaved⟩ := authorized
  obtain ⟨owned', contents⟩ := rely.owned owned
  have content : attempt.content ∈
      (w'.db.view execution.runID).contentsUpTo execution.generation execution.attemptNo :=
    contents ▸ RunView.mem_contentsUpTo.mpr ⟨attempt, present, rfl, same, Nat.le_of_eq number⟩
  obtain ⟨found, member, equal, generation, -⟩ := RunView.mem_contentsUpTo.mp content
  have marks := DiagnosisAttempt.sameMarks_of_content equal
  refine ⟨own, rely.stays.undropped undropped, ⟨rest, rely.own.trans confirmed⟩, owned',
    ⟨found, member, marks.id.trans id, generation, marks.attemptNo.trans number,
      marks.providerDispatchUnresolved.trans marked⟩, fun other otherMember otherSame below => ?_⟩
  have kept := RunView.mem_contentsUpTo.mpr ⟨other, otherMember, rfl, otherSame, below⟩
  rw [contents] at kept
  obtain ⟨before, memberBefore, equalBefore, sameBefore, belowBefore⟩ :=
    RunView.mem_contentsUpTo.mp kept
  have kind := (DiagnosisAttempt.sameMarks_of_content equalBefore).checkpointKind
  rw [← kind]
  exact unsaved before memberBefore sameBefore belowBefore

theorem World.Active.record (event : Event) (active : w.Active job execution row)
    (about : event.execution = some execution) (mine : event.claim = job.claim)
    (kept : ∀ policy cause, event ≠ .policyDropped job.claim policy cause) :
    (w.record event).Active job execution row ∧
      (w.record event).own execution.claim = event :: w.own execution.claim := by
  have own : (w.record event).own execution.claim = event :: w.own execution.claim :=
    World.own_events (show (w.record event).log = [event] ++ w.log from rfl)
      (by simpa using mine.trans active.own.claim.symm)
  refine ⟨⟨⟨⟨active.handling.issued, active.handling.same, ?_⟩, active.own,
    active.runs.congr rfl, active.fresh⟩, active.unsaved.congr rfl, own ▸ ?_⟩, own⟩
  · rintro ⟨policy, cause, member⟩
    rcases List.mem_cons.mp member with same | old
    · exact kept policy cause same.symm
    · exact active.handling.undropped ⟨policy, cause, old⟩
  · intro other member other' same
    rcases List.mem_cons.mp member with rfl | old
    · exact Option.some.inj (same.symm.trans about)
    · exact active.only other old other' same

theorem concrete_obeys (ready : ∃ row, w.Ready job execution row)
    (authorized : w.Authorized job.claim execution) :
    Obeys handlers job.claim (Provider.concrete.generate execution)
      (fun err w => (∃ row, w.Active job execution row ∧ (definiteFailure err = true →
        row.providerDispatchSuccessSeen = true ∨
          AllDefinite execution (w.own execution.claim))) ∧ err.Plain) w := by
  refine Safe.bind (Safe.ask (P := fun w => (∃ row, w.Ready job execution row) ∧
    w.Authorized job.claim execution) ?_ ⟨ready, authorized⟩ ?_ ?_)
  · exact fun _ _ rely _ ⟨⟨row, ready⟩, authorized⟩ =>
      ⟨⟨row, ready.rely rely⟩, authorized.rely rely⟩
  · exact fun w _ ⟨⟨row, ready⟩, authorized⟩ => ⟨ready.handling.issued, authorized⟩
  intro w oracle u w₁ inv ⟨⟨row, ready⟩, _⟩ performed _
  cases World.perform_other (fun _ => Call.noConfusion) performed
  obtain ⟨active, own⟩ := ready.toActive.record (.dispatched execution) rfl
    ready.own.claim (fun _ _ => Event.noConfusion)
  have pending : row.providerDispatchSuccessSeen = true ∨ Awaiting execution
      ((w.record (.dispatched execution)).own execution.claim) :=
    own ▸ ready.known.imp_right AllDefinite.dispatched
  refine Safe.bind (Safe.ask (P := fun w => ∃ row, w.Active job execution row ∧
    (row.providerDispatchSuccessSeen = true ∨ Awaiting execution (w.own execution.claim)) ∧
    ∃ rest, w.own execution.claim = .dispatched execution :: rest)
    ?_ ⟨row, active, pending, _, own⟩ ?_ ?_)
  · exact fun _ _ rely _ ⟨row, active, pending, sent⟩ =>
      ⟨row, active.rely rely, active.own_rely rely ▸ pending, active.own_rely rely ▸ sent⟩
  · exact fun w _ ⟨row, active, _, sent⟩ =>
      ⟨active.handling.issued, active.own.claim, active.own.claim ▸ sent⟩
  intro w oracle reply w₁ inv ⟨row, active, pending, _⟩ performed _
  cases World.perform_other (fun _ => Call.noConfusion) performed
  obtain ⟨active, own⟩ := active.record (.received execution reply) rfl
    active.own.claim (fun _ _ => Event.noConfusion)
  exact ⟨⟨row, active, fun definite => own ▸ pending.imp_right fun awaiting =>
    awaiting.received definite⟩, reply.plain⟩

def World.Rounded (job : AnalysisJob) (execution : Execution) (err : Err) (w : World) : Prop :=
  (∃ row, w.Active job execution row) ∧ err.Plain ∧
    (err.isOutcomeUnknown = false → ∃ row, w.Ready job execution row)

theorem World.Rounded.unknown {cause : Err} (active : ∃ row, w.Active job execution row)
    (plain : cause.Plain) : w.Rounded job execution (.outcomeUnknown cause) :=
  ⟨active, plain.outcomeUnknown, fun known => nomatch known⟩

theorem World.Rounded.ready {err : Err} (ready : ∃ row, w.Ready job execution row)
    (plain : err.Plain) : w.Rounded job execution err := by
  obtain ⟨row, ready⟩ := ready
  exact ⟨⟨row, ready.toActive⟩, plain, fun _ => ⟨row, ready⟩⟩

theorem settleSuccess_obeys (active : ∃ row, w.Active job execution row) :
    Obeys handlers job.claim (settleDispatch execution .nil) (World.Rounded job execution) w := by
  refine Safe.bind (Obeys.store (P := fun w => ∃ row, w.Active job execution row) ?_ active ?_ ?_)
  · exact fun _ _ rely _ ⟨row, active⟩ => ⟨row, active.rely rely⟩
  · exact fun w _ ⟨row, active⟩ => ⟨active.handling.issued, active.acting, trivial⟩
  intro w answer w' inv ⟨row, active⟩ outcome _
  have allowed : (StoreCall.providerDispatchSucceeded execution).Allowed job.claim w :=
    active.acting
  have step := fun row' => active.outcome row' outcome allowed
    (fun _ _ => StoreCall.noConfusion) (fun _ member => nomatch member)
  have seen : ∀ outside a, providerDispatchSucceeded execution outside w.db = .ok (a, w'.db) →
      ∃ row, w'.Ready job execution row := by
    intro outside a ran
    obtain ⟨attempt, unresolved, marked⟩ := providerDispatchSucceeded_ok ran
    obtain ⟨-, runs, unsaved, fresh⟩ := active.marked inv (outcome.follows inv allowed) marked
      ⟨rfl, rfl, rfl, .inr (.inl marked.unclosed)⟩ rfl rfl
    exact ⟨_, (step _ runs unsaved fresh).1, .inl rfl⟩
  cases answer with
  | ok u =>
    rcases outcome.effect.inv with ⟨outside, a, ran, -⟩ | ⟨-, err, error, -⟩
    · exact .ready (seen outside.now a ran) rfl
    · cases error
  | error err =>
    have genuine := outcome.effect.genuine fun outside => providerDispatchSucceeded_genuine _ _
    refine .unknown ?_ genuine.plain
    rcases outcome.effect.inv with ⟨outside, a, ran, -⟩ | ⟨same, -⟩
    · obtain ⟨row, ready⟩ := seen outside.now a ran
      exact ⟨row, ready.toActive⟩
    · exact ⟨row, (step _ (active.runs.congr same) (active.unsaved.congr same) active.fresh).1⟩

theorem World.Ready.clearable (ready : w.Ready job execution row) :
    (StoreCall.providerDispatchFailedDefinitely execution).Allowed job.claim w := by
  refine ⟨ready.acting, fun attempt member own unseen other mine _ => ?_⟩
  have content := ready.runs.attempt member own
  have unseenRow : row.providerDispatchSuccessSeen = false := by
    rw [← content]
    exact unseen
  by_cases same : other = execution
  · subst same
    rw [← allDefinite_own]
    exact ready.known.resolve_left (by simp [unseenRow])
  · rw [← allDefinite_own, mine, ← ready.own.claim]
    exact .of_other ready.only same

theorem settleFailure_obeys {callErr : Err} (failure : callErr ≠ .nil) (plain : callErr.Plain)
    (definite : definiteFailure callErr = true) (ready : ∃ row, w.Ready job execution row) :
    Obeys handlers job.claim (settleDispatch execution callErr)
      (World.Rounded job execution) w := by
  rw [settleDispatch, if_neg failure, if_pos definite]
  refine Safe.bind (Obeys.store World.Ready.stable ready ?_ ?_)
  · exact fun w _ ⟨row, ready⟩ => ⟨ready.handling.issued, ready.clearable, trivial⟩
  intro w answer w' inv ⟨row, ready⟩ outcome _
  have step := fun row' => ready.toActive.outcome row' outcome ready.clearable
    (fun _ _ => StoreCall.noConfusion) (fun _ member => nomatch member)
  -- Whatever became of the call, what was seen and what came back stays known.
  have ready' : ∃ row, w'.Ready job execution row := by
    have unchanged : w'.db = w.db → ∃ row, w'.Ready job execution row := fun same =>
      have ⟨active, kept⟩ := step _ (ready.runs.congr same) (ready.unsaved.congr same) ready.fresh
      ⟨row, active, ready.known.imp_right kept⟩
    rcases outcome.effect.inv with ⟨outside, a, ran, -⟩ | ⟨same, -⟩
    · rcases providerDispatchFailedDefinitely_ok ran with ⟨-, same⟩ | ⟨attempt, unseen, marked⟩
      · exact unchanged same
      · obtain ⟨content, runs, unsaved, fresh⟩ := ready.marked inv
          (outcome.follows inv ready.clearable) marked ⟨rfl, rfl, rfl, .inr (.inl marked.unclosed)⟩
          rfl rfl
        obtain ⟨active, kept⟩ := step _ runs unsaved fresh
        refine ⟨_, active, ready.known.imp (fun seen => ?_) kept⟩
        rw [← content] at seen
        exact seen
    · exact unchanged same
  have active : ∃ row, w'.Active job execution row := by
    obtain ⟨row, ready⟩ := ready'
    exact ⟨row, ready.toActive⟩
  match answer with
  | .error err =>
    have genuine := outcome.effect.genuine fun outside =>
      providerDispatchFailedDefinitely_genuine _ _
    exact .unknown active (plain.join genuine.plain)
  | .ok true => exact .ready ready' plain
  | .ok false => exact .unknown active plain

theorem guarded_obeys (ready : ∃ row, w.Ready job execution row) :
    Obeys handlers job.claim ((Provider.guarded .concrete).generate execution)
      (World.Rounded job execution) w := by
  refine Safe.bind ((beginDispatch_obeys ready).weaken
    fun refused w ⟨ready, plain, authorized⟩ => ?_)
  by_cases stopped : refused = .nil
  · subst stopped
    refine Safe.bind ((concrete_obeys ready (authorized rfl)).weaken fun callErr w after => ?_)
    obtain ⟨⟨row, active, known⟩, plain⟩ := after
    by_cases success : callErr = .nil
    · subst success
      exact settleSuccess_obeys ⟨row, active⟩
    · cases definite : definiteFailure callErr with
      | true => exact settleFailure_obeys success plain definite ⟨row, active, known definite⟩
      | false =>
        rw [settleDispatch, if_neg success, if_neg (by simp [definite])]
        exact .unknown ⟨row, active⟩ plain
  · rw [if_pos stopped]
    exact .ready ready plain

theorem shouldRetryProvider_known {err : Err} (retry : shouldRetryProvider err = true) :
    err.isOutcomeUnknown = false := by
  unfold shouldRetryProvider at retry
  split at retry
  · cases retry
  · next known => simpa using known

theorem retryLoop_obeys {delegate : Prog Err}
    (round : ∀ w, (∃ row, w.Ready job execution row) →
      Obeys handlers job.claim delegate (World.Rounded job execution) w)
    (left attempt : Nat) (w : World) (ready : ∃ row, w.Ready job execution row) :
    Obeys handlers job.claim (retryLoop delegate left attempt) (World.Rounded job execution) w := by
  -- Another call is made only after a known failure, which leaves the agent ready.
  induction left generalizing attempt w with
  | zero =>
    refine Safe.bind ((round w ready).weaken fun err w rounded => ?_)
    by_cases success : err = .nil
    · rw [if_pos success]
      exact success ▸ rounded
    · rw [if_neg success]
      exact ⟨rounded.1, rounded.2.1.call, rounded.2.2⟩
  | succ left ih =>
    refine Safe.bind ((round w ready).weaken fun err w rounded => ?_)
    obtain ⟨active, plain, known⟩ := rounded
    by_cases success : err = .nil
    · rw [if_pos success]
      exact success ▸ ⟨active, plain, known⟩
    rw [if_neg success]
    cases retry : shouldRetryProvider err with
    | false => exact ⟨active, plain.call, known⟩
    | true =>
      have issued : ∀ w : World, (∃ row, w.Ready job execution row) → job.claim ∈ w.issued :=
        fun w ⟨_, ready⟩ => ready.handling.issued
      have ready := known (shouldRetryProvider_known retry)
      refine Safe.bind (Obeys.cause World.Ready.stable ready issued fun w inv ready => ?_)
      by_cases stopped : w.cause job.claim ≠ .nil
      · rw [if_pos stopped]
        exact .ready ready plain.call
      rw [if_neg stopped]
      refine Safe.bind (Obeys.ask World.Ready.stable ready issued
        (fun w issued => ⟨issued, trivial⟩) (fun _ => Call.noConfusion) (fun _ => rfl)
        fun w ended inv ready => ?_)
      cases ended with
      | true => exact .ready ready rfl
      | false => exact ih _ w ready

theorem generate_obeys (retries : Nat) (w : World) (ready : ∃ row, w.Ready job execution row) :
    Obeys handlers job.claim
      ((guardProvider (newRetryingProvider .concrete retries)).generate execution)
      (World.Rounded job execution) w := by
  unfold newRetryingProvider
  split
  · exact guarded_obeys ready
  · exact retryLoop_obeys (fun w => guarded_obeys) retries 1 w ready

def World.Executed (job : AnalysisJob) (execution : Execution)
    (executed : Option ExecutionResult × Err) (w : World) : Prop :=
  executed.2.Plain ∧ ∃ row, w.Active job execution row ∧
    (executed.1 = none → executed.2.is .invalidStructuredReport = true →
      row.providerDispatchUnresolved = false)

theorem agentLoop_obeys {generate : Prog Err}
    (round : ∀ w, (∃ row, w.Ready job execution row) →
      Obeys handlers job.claim generate (World.Rounded job execution) w)
    (rounds : Nat) (w : World) (ready : ∃ row, w.Ready job execution row) :
    Obeys handlers job.claim (agentLoop generate rounds) (World.Executed job execution) w := by
  have issued : ∀ w : World, (∃ row, w.Ready job execution row) → job.claim ∈ w.issued :=
    fun w ⟨_, ready⟩ => ready.handling.issued
  have activeIssued : ∀ w : World, (∃ row, w.Active job execution row) → job.claim ∈ w.issued :=
    fun w ⟨_, active⟩ => active.handling.issued
  induction rounds generalizing w with
  | zero =>
    obtain ⟨row, ready⟩ := ready
    exact ⟨rfl, row, ready.toActive, fun _ invalid => nomatch invalid⟩
  | succ rounds ih =>
    refine Safe.bind (Obeys.ask World.Ready.stable ready issued
      (fun w issued => ⟨issued, trivial⟩) (fun _ => Call.noConfusion) (fun _ => rfl)
      fun w step inv ready => ?_)
    cases step with
    | finish result =>
      obtain ⟨row, ready⟩ := ready
      exact ⟨rfl, row, ready.toActive, fun none => nomatch none⟩
    | fail result failure =>
      obtain ⟨row, ready⟩ := ready
      exact ⟨failure.plain.wrap.execution, row, ready.toActive, fun none => nomatch none⟩
    | stop fault =>
      obtain ⟨row, ready⟩ := ready
      refine ⟨fault.genuine.plain.wrap, row, ready.toActive, fun _ invalid => ?_⟩
      cases fault <;> cases invalid
    | generate =>
      refine Safe.bind ((round w ready).weaken fun err w rounded => ?_)
      obtain ⟨active, plain, known⟩ := rounded
      by_cases success : err = .nil
      · rw [if_pos success]
        exact ih w (known (success ▸ rfl))
      rw [if_neg success]
      refine Safe.bind (Obeys.ask (P := fun w => ∃ row, w.Active job execution row)
        (fun _ _ rely _ ⟨row, active⟩ => ⟨row, active.rely rely⟩) active activeIssued
        (fun w issued => ⟨issued, trivial⟩) (fun _ => Call.noConfusion) (fun _ => rfl)
        fun w result inv active => ?_)
      obtain ⟨row, active⟩ := active
      exact ⟨plain.wrap.execution, row, active, fun none => nomatch none⟩

theorem executeAgent_obeys (retries rounds : Nat)
    (ready : ∃ row, w.Ready job execution row ∧ row.providerDispatchUnresolved = false) :
    Obeys handlers job.claim
      (executeAgent (newRetryingProvider .concrete retries) rounds execution)
      (World.Executed job execution) w := by
  refine Safe.bind (Obeys.ask (P := fun w => ∃ row, w.Ready job execution row ∧
    row.providerDispatchUnresolved = false)
    (fun _ _ rely _ ⟨row, ready, resolved⟩ => ⟨row, ready.rely rely, resolved⟩) ready
    (fun w ⟨_, ready, _⟩ => ready.handling.issued) (fun w issued => ⟨issued, trivial⟩)
    (fun _ => Call.noConfusion) (fun _ => rfl) fun w setup inv ready => ?_)
  obtain ⟨row, ready, resolved⟩ := ready
  cases setup with
  | some failure => exact ⟨failure.plain, row, ready.toActive, fun _ _ => resolved⟩
  | none => exact agentLoop_obeys (generate_obeys retries) rounds w ⟨row, ready⟩

end Attempts

end RepoLens
