import RepoLens.AgentLoop

/-!
The budgets of a run. The guard counts what the loop does; its counters are tied to the
log, and each bound of the configuration then holds of the log.
-/

namespace RepoLens

namespace Agent

open Evidence Loops AgentLoop

namespace AgentGuard

variable {cfg : GuardConfig} {guard next : AgentGuard}

theorem recordStep_ok (accepted : guard.recordStep cfg = .ok next) :
    (guard.stepCount + 1 : Int) ≤ cfg.maxSteps ∧
      next = { guard with stepCount := guard.stepCount + 1 } := by
  simp only [recordStep] at accepted
  split at accepted
  · cases accepted
  · next within =>
      cases accepted
      exact ⟨by push_cast at within; omega, rfl⟩

theorem recordSearchCall_ok (accepted : guard.recordSearchCall cfg = .ok next) :
    (0 < cfg.maxSearchCalls → (guard.searchCallCount + 1 : Int) ≤ cfg.maxSearchCalls) ∧
      next = { guard with searchCallCount := guard.searchCallCount + 1 } := by
  simp only [recordSearchCall] at accepted
  split at accepted
  · cases accepted
  · next within =>
      cases accepted
      exact ⟨by push_cast at within; omega, rfl⟩

def counted (guard : AgentGuard) (callHash : String) : AgentGuard :=
  ({ guard with toolCallCount := guard.toolCallCount + 1 }.countSame callHash).countCall callHash

theorem counted_same {callHash : String} (same : callHash = guard.lastCallHash) :
    (guard.counted callHash).consecutiveSame = guard.consecutiveSame + 1 := by
  simp [counted, countCall, countSame, same]

theorem counted_other {callHash : String} (other : callHash ≠ guard.lastCallHash) :
    (guard.counted callHash).consecutiveSame = 0 := by
  simp [counted, countCall, countSame, other]

@[simp] theorem counted_lastCallHash (callHash : String) :
    (guard.counted callHash).lastCallHash = callHash := by
  by_cases same : callHash = guard.lastCallHash <;> simp [counted, countCall, countSame, same]

@[simp] theorem counted_callHistory (callHash : String) : (guard.counted callHash).callHistory =
    Function.update guard.callHistory callHash (guard.callHistory callHash + 1) := by
  by_cases same : callHash = guard.lastCallHash <;> simp [counted, countCall, countSame, same]

@[simp] theorem counted_toolCallCount (callHash : String) :
    (guard.counted callHash).toolCallCount = guard.toolCallCount + 1 := by
  by_cases same : callHash = guard.lastCallHash <;> simp [counted, countCall, countSame, same]

@[simp] theorem counted_stepCount (callHash : String) :
    (guard.counted callHash).stepCount = guard.stepCount := by
  by_cases same : callHash = guard.lastCallHash <;> simp [counted, countCall, countSame, same]

@[simp] theorem counted_searchCallCount (callHash : String) :
    (guard.counted callHash).searchCallCount = guard.searchCallCount := by
  by_cases same : callHash = guard.lastCallHash <;> simp [counted, countCall, countSame, same]

theorem recordToolCall_ok {sha : Sha256} {name argsJSON : Bytes}
    (accepted : guard.recordToolCall cfg sha name argsJSON = .ok next) :
    (guard.toolCallCount + 1 : Int) ≤ cfg.maxToolCalls ∧
      guard.callHistory (sha.hex (name ++ text ":" ++ argsJSON)) < 3 ∧
      (sha.hex (name ++ text ":" ++ argsJSON) = guard.lastCallHash →
        (guard.consecutiveSame + 1 : Int) < cfg.maxRepeatCalls) ∧
      next = guard.counted (sha.hex (name ++ text ":" ++ argsJSON)) := by
  generalize hashed : sha.hex (name ++ text ":" ++ argsJSON) = callHash
  simp only [recordToolCall, hashed] at accepted
  split at accepted
  · cases accepted
  next within =>
  split at accepted
  · cases accepted
  next fresh =>
  split at accepted
  · cases accepted
  next few =>
  cases accepted
  refine ⟨by push_cast at within; omega, ?_, ?_, rfl⟩
  · by_cases same : callHash = guard.lastCallHash <;>
      simp [countCall, countSame, same] at few ⊢ <;> omega
  · intro same
    simp [countSame, same] at fresh
    omega

end AgentGuard

variable {Report : Type} {loop : AgentLoop Report} {world : World}

def AgentLoop.callHash (loop : AgentLoop Report) (call : Bytes × Bytes) : String :=
  loop.sha.hex (call.1 ++ text ":" ++ call.2)

structure Counted (loop : AgentLoop Report) (guard : AgentGuard) (calls : List (Bytes × Bytes)) :
    Prop where
  count : guard.toolCallCount = calls.length
  within : (guard.toolCallCount : Int) ≤ max 0 loop.guardCfg.maxToolCalls
  history : ∀ hash, calls.countP (loop.callHash · = hash) ≤ guard.callHistory hash
  few : ∀ hash, guard.callHistory hash ≤ 3
  /-- The row that the calls end with. -/
  last : ∀ call n, List.replicate (n + 1) call <:+ calls →
    loop.callHash call = guard.lastCallHash ∧ n ≤ guard.consecutiveSame
  short : (guard.consecutiveSame + 1 : Int) ≤ max 1 loop.guardCfg.maxRepeatCalls
  row : ∀ call n, List.replicate n call <:+: calls → (n : Int) ≤ max 1 loop.guardCfg.maxRepeatCalls

theorem counted_new : Counted loop newAgentGuard [] where
  count := rfl
  within := by simp [newAgentGuard]
  history := by simp
  few := by simp [newAgentGuard]
  last := by simp
  short := by simp [newAgentGuard]
  row := by
    intro call n row
    have : n = 0 := by simpa using row
    omega

namespace Counted

variable {guard : AgentGuard} {calls : List (Bytes × Bytes)} {name arguments : Bytes}

theorem last_counted (counted : Counted loop guard calls) {call : Bytes × Bytes} {n : Nat}
    (row : List.replicate (n + 1) call <:+ calls ++ [(name, arguments)]) :
    loop.callHash call = loop.callHash (name, arguments) ∧
      n ≤ (guard.counted (loop.callHash (name, arguments))).consecutiveSame := by
  rw [List.replicate_succ', List.suffix_concat_iff] at row
  obtain empty | ⟨before, same, row⟩ := row
  · simp at empty
  obtain ⟨rfl, rfl⟩ : List.replicate n call = before ∧ call = (name, arguments) := by
    simpa using List.append_inj' same rfl
  refine ⟨rfl, ?_⟩
  cases n with
  | zero => exact Nat.zero_le _
  | succ n =>
    obtain ⟨same, le⟩ := counted.last _ n row
    rw [AgentGuard.counted_same same]
    omega

theorem accept (counted : Counted loop guard calls) {next : AgentGuard}
    (accepted : guard.recordToolCall loop.guardCfg loop.sha name arguments = .ok next) :
    Counted loop next (calls ++ [(name, arguments)]) := by
  obtain ⟨within, few, fresh, rfl⟩ := AgentGuard.recordToolCall_ok accepted
  change guard.callHistory (loop.callHash (name, arguments)) < 3 at few
  change loop.callHash (name, arguments) = guard.lastCallHash → _ at fresh
  change Counted loop (guard.counted (loop.callHash (name, arguments))) _
  have short : ((guard.counted (loop.callHash (name, arguments))).consecutiveSame + 1 : Int) ≤
      max 1 loop.guardCfg.maxRepeatCalls := by
    by_cases same : loop.callHash (name, arguments) = guard.lastCallHash
    · have := fresh same
      rw [AgentGuard.counted_same same]
      omega
    · rw [AgentGuard.counted_other same]
      omega
  constructor
  case count => simp [counted.count]
  case within =>
    simp only [AgentGuard.counted_toolCallCount]
    omega
  case history =>
    intro hash
    have := counted.history hash
    by_cases same : loop.callHash (name, arguments) = hash
    · subst same
      simpa using this
    · simpa [same, Function.update_of_ne (Ne.symm same)] using this
  case few =>
    intro hash
    by_cases same : hash = loop.callHash (name, arguments)
    · subst same
      simpa using few
    · simpa [Function.update_of_ne same] using counted.few hash
  case last =>
    intro call n row
    rw [AgentGuard.counted_lastCallHash]
    exact counted.last_counted row
  case short => exact short
  case row =>
    intro call n row
    rw [List.infix_concat_iff] at row
    rcases row with last | earlier
    · cases n with
      | zero => omega
      | succ n =>
        have := (counted.last_counted last).2
        push_cast
        omega
    · exact counted.row call n earlier

theorem quiet (counted : Counted loop guard calls) {next : AgentGuard}
    (same : next.toolCallCount = guard.toolCallCount ∧ next.callHistory = guard.callHistory ∧
      next.lastCallHash = guard.lastCallHash ∧ next.consecutiveSame = guard.consecutiveSame) :
    Counted loop next calls := by
  obtain ⟨count, history, last, row⟩ := same
  constructor
  · rw [count, counted.count]
  · rw [count]
    exact counted.within
  · rw [history]
    exact counted.history
  · rw [history]
    exact counted.few
  · rw [last, row]
    exact counted.last
  · rw [row]
    exact counted.short
  · exact counted.row

end Counted

def AgentLoop.Phase.searching : Phase → Nat
  | .guarded _ call _ => if call.name = searchCode then 1 else 0
  | _ => 0

def AgentLoop.Phase.unexecuted (loop : AgentLoop Report) : Phase → List (Bytes × Bytes)
  | .accepted _ call _ => [(call.name, call.arguments)].filter fun call => (loop.get call.1).isSome
  | _ => []

/-- Since the guard has refused, a run has only recorded steps. -/
def Refused (log : List Event) : Prop :=
  ∃ before reason after, log = before ++ .stopped reason :: after ∧ stops before = [] ∧
    stops after = [] ∧ requests after = [] ∧ executions after = []

theorem refused_stop {log : List Event} (running : stops log = []) (reason : String) :
    Refused (log ++ [.stopped reason]) :=
  ⟨log, reason, [], rfl, running, rfl, rfl, rfl⟩

theorem Refused.record {log : List Event} (refused : Refused log) (step : AgentStep) :
    Refused (world.record log step) := by
  obtain ⟨before, reason, after, rfl, running, once, idle, still⟩ := refused
  refine ⟨before, reason, world.record after step, ?_, running, ?_, ?_, ?_⟩
  · simp only [World.record]
    split <;> simp
  all_goals simp [once, idle, still]

def AgentLoop.Phase.Stops (log : List Event) : Phase → Prop
  | .stopped _ => Refused log
  | _ => stops log = []

structure Kept (loop : AgentLoop Report) (phase : Phase) (guard : AgentGuard) (log : List Event) :
    Prop where
  rounds : guard.stepCount = (requests log).length
  within : (guard.stepCount : Int) ≤ max 0 loop.guardCfg.maxSteps
  counted : Counted loop guard (calls log)
  searches : (calls log).countP (·.1 = searchCode) + phase.searching ≤ guard.searchCallCount
  searched : 0 < loop.guardCfg.maxSearchCalls →
    (guard.searchCallCount : Int) ≤ loop.guardCfg.maxSearchCalls
  executed : (calls log).filter (fun call => (loop.get call.1).isSome) =
    executions log ++ phase.unexecuted loop
  stopping : phase.Stops log

/-- The budgets of the configuration, of what a run has done. -/
structure WithinBudgets (loop : AgentLoop Report) (log : List Event) : Prop where
  generations : ((requests log).length : Int) ≤ max 0 loop.guardCfg.maxSteps + 1
  tools : ((executions log).length : Int) ≤ max 0 loop.guardCfg.maxToolCalls
  searches : 0 < loop.guardCfg.maxSearchCalls →
    ((executions log).countP (·.1 = searchCode) : Int) ≤ loop.guardCfg.maxSearchCalls
  total : ∀ call, (executions log).count call ≤ 3
  /-- The row of equal calls; a call of an unknown tool also ends a row. -/
  row : ∀ call n, List.replicate n call <:+: calls log →
    (n : Int) ≤ max 1 loop.guardCfg.maxRepeatCalls
  executed : executions log = (calls log).filter fun call => (loop.get call.1).isSome
  /-- After the guard has refused a round, a search or a call. -/
  stop : ∀ before reason after, log = before ++ .stopped reason :: after →
    ∃ request, requests after = [request] ∧ request.tools = [] ∧ executions after = []

namespace Kept

variable {phase : Phase} {guard : AgentGuard} {log later : List Event}

theorem budgets (kept : Kept loop phase guard log) (idle : phase.unexecuted loop = [])
    (generations : (requests later).length ≤ (requests log).length + 1)
    (same : calls later = calls log) (done : executions later = executions log)
    (stop : ∀ before reason after, later = before ++ .stopped reason :: after →
      ∃ request, requests after = [request] ∧ request.tools = [] ∧ executions after = []) :
    WithinBudgets loop later := by
  have executed : executions later = (calls later).filter fun call => (loop.get call.1).isSome := by
    rw [same, done, kept.executed, idle, List.append_nil]
  have sublist : (executions later).Sublist (calls later) := executed ▸ List.filter_sublist
  have counted := same ▸ kept.counted
  constructor
  · have := kept.rounds
    have := kept.within
    omega
  · have := counted.count
    have := counted.within
    have := sublist.length_le
    omega
  · intro limited
    have := kept.searched limited
    have := kept.searches
    have := sublist.countP_le (p := fun call => decide (call.1 = searchCode))
    rw [same] at this
    omega
  · intro call
    calc (executions later).count call ≤ (calls later).count call := sublist.count_le call
      _ ≤ (calls later).countP (loop.callHash · = loop.callHash call) :=
        List.countP_mono_left (by simp +contextual)
      _ ≤ _ := counted.history _
      _ ≤ 3 := counted.few _
  · exact counted.row
  · exact executed
  · exact stop

theorem unstopped (kept : Kept loop phase guard log) (idle : phase.unexecuted loop = [])
    (running : stops log = [])
    (same : requests later = requests log ∧ calls later = calls log ∧
      executions later = executions log ∧ stops later = stops log) : WithinBudgets loop later := by
  obtain ⟨sent, called, done, stopped⟩ := same
  refine kept.budgets idle (by simp [sent]) called done ?_
  rintro before reason after rfl
  simp [running] at stopped

theorem ends (kept : Kept loop phase guard log) (idle : phase.unexecuted loop = [])
    (running : stops log = []) {seq : Nat} {outcome : Outcome Report}
    (ends : Ends world log seq outcome) : WithinBudgets loop outcome.log := by
  obtain ⟨step, _, same⟩ := ends
  exact kept.unstopped idle running (by simp [same])

theorem stop_unique {before after rest : List Event} {reason other : String}
    (running : stops log = []) (once : stops rest = [])
    (split : log ++ .stopped reason :: rest = before ++ .stopped other :: after) :
    after = rest := by
  have stopped : ∀ one two : List Event, stops (one ++ .stopped other :: two) ≠ [] := by simp
  rcases List.append_eq_append_iff.mp split with ⟨more, rfl, same⟩ | ⟨more, rfl, same⟩
  · cases more with
    | nil => exact (List.cons.inj same).2.symm
    | cons event more =>
      have again : rest = more ++ .stopped other :: after := (List.cons.inj same).2
      exact absurd (again ▸ once) (stopped more after)
  · cases more with
    | nil => exact (List.cons.inj same).2
    | cons event more => exact absurd ((List.cons.inj same).1 ▸ running) (stopped before more)

theorem final {messages : List Message} (kept : Kept loop (.stopped messages) guard log) {seq : Nat}
    {outcome : Outcome Report} (ends : Ends world (loop.finalLog log messages) seq outcome) :
    WithinBudgets loop outcome.log := by
  obtain ⟨step, _, same⟩ := ends
  obtain ⟨earlier, reason, rest, rfl, running, once, idle, still⟩ := kept.stopping
  let request := loop.finalizeRequest messages
  have split : outcome.log =
      earlier ++ .stopped reason :: world.record (rest ++ [.request request]) step := by
    simp only [same, World.record, finalLog]
    split <;> simp [request]
  refine kept.budgets rfl ?_ ?_ ?_ ?_
  · rw [same, requests_record, finalLog, requests_append, List.length_append]
    rfl
  · simp [same, finalLog]
  · simp [same, finalLog]
  · intro before other after again
    have unique := stop_unique running (by simp [once]) (split ▸ again)
    exact ⟨request, by simp [unique, idle], rfl, by simp [unique, still]⟩

section Actions

variable {next : AgentGuard} {resp : GenerateResponse} {call : ToolCall} {pending : List ToolCall}

theorem quiet (kept : Kept loop phase guard log) {after : Phase}
    (same : requests later = requests log ∧ calls later = calls log ∧
      executions later ++ after.unexecuted loop = executions log ++ phase.unexecuted loop)
    (stopping : after.Stops later) (searching : after.searching ≤ phase.searching) :
    Kept loop after guard later := by
  obtain ⟨sent, called, done⟩ := same
  constructor
  · rw [sent, kept.rounds]
  · exact kept.within
  · rw [called]
    exact kept.counted
  · rw [called]
    exact (Nat.add_le_add_left searching _).trans kept.searches
  · exact kept.searched
  · rw [called, done, kept.executed]
  · exact stopping

theorem ask (kept : Kept loop .round guard log)
    (accepted : guard.recordStep loop.guardCfg = .ok next)
    (answer : Except CallError GenerateResponse) {request : Request}
    (sent : requests later = requests log ++ [request])
    (same : calls later = calls log ∧ executions later = executions log ∧ stops later = stops log) :
    Kept loop (.asked answer) next later := by
  obtain ⟨within, rfl⟩ := AgentGuard.recordStep_ok accepted
  obtain ⟨called, done, running⟩ := same
  constructor
  · simp [sent, kept.rounds]
  · exact within.trans (le_max_right _ _)
  · rw [called]
    exact kept.counted.quiet ⟨rfl, rfl, rfl, rfl⟩
  · rw [called]
    exact kept.searches
  · exact kept.searched
  · rw [called, done]
    exact kept.executed
  · exact running.trans kept.stopping

theorem search (kept : Kept loop (.calls resp (call :: pending)) guard log)
    (accepted : guard.recordSearchCall loop.guardCfg = .ok next) :
    Kept loop (.guarded resp call pending) next log := by
  obtain ⟨within, rfl⟩ := AgentGuard.recordSearchCall_ok accepted
  have searches := kept.searches
  constructor
  · exact kept.rounds
  · exact kept.within
  · exact kept.counted.quiet ⟨rfl, rfl, rfl, rfl⟩
  · simp only [Phase.searching] at searches ⊢
    split <;> omega
  · exact within
  · exact kept.executed
  · exact kept.stopping

theorem accept (kept : Kept loop (.guarded resp call pending) guard log)
    (accepted : guard.recordToolCall loop.guardCfg loop.sha call.name call.arguments = .ok next)
    (called : calls later = calls log ++ [(call.name, call.arguments)])
    (same : requests later = requests log ∧ executions later = executions log ∧
      stops later = stops log) :
    Kept loop (.accepted resp call pending) next later := by
  have counted := kept.counted.accept accepted
  obtain ⟨-, -, -, rfl⟩ := AgentGuard.recordToolCall_ok accepted
  obtain ⟨sent, done, running⟩ := same
  have searches := kept.searches
  have executed := kept.executed
  constructor
  · simpa [sent] using kept.rounds
  · simpa using kept.within
  · rwa [called]
  · simpa [called, Phase.searching, List.countP_append, List.countP_cons] using searches
  · simpa using kept.searched
  · simpa [called, done, Phase.unexecuted] using executed
  · exact running.trans kept.stopping

end Actions

end Kept

theorem outline_budgets :
    Outline loop world (fun phase state => Kept loop phase state.guard state.log)
      (fun outcome => WithinBudgets loop outcome.log) where
  context _ kept := kept.unstopped rfl kept.stopping ⟨rfl, rfl, rfl, rfl⟩
  ask {s guard} kept accepted := by
    apply kept.ask accepted
    · simp [AgentLoop.ask, beginRound]
      rfl
    · simp [AgentLoop.ask, beginRound]
  rounds {s} kept := kept.quiet (by simp [Phase.unexecuted])
    (refused_stop kept.stopping _) le_rfl
  fail kept := kept.ends rfl kept.stopping (fail_ends _ _)
  truncate {s resp} kept := kept.ends rfl kept.stopping (truncate_ends resp (s.account resp))
  finish {s resp} kept := kept.ends rfl kept.stopping (finish_ends resp (s.account resp))
  batch kept := kept.quiet ⟨rfl, rfl, rfl⟩ kept.stopping le_rfl
  exhausted {s resp call pending} kept :=
    kept.quiet (by simp [LoopState.countSearch, Phase.unexecuted])
    (refused_stop kept.stopping _) le_rfl
  search kept accepted := kept.search accepted
  other kept other := kept.quiet ⟨rfl, rfl, rfl⟩ kept.stopping (by simp [Phase.searching, other])
  refuse {s resp call pending err} kept := by
    refine kept.quiet (by simp [refuseCall, LoopState.countCall, Phase.unexecuted]) ?_
      (by simp [Phase.searching])
    exact (refused_stop kept.stopping _).record _
  accept kept accepted := kept.accept accepted (by simp [acceptCall, LoopState.countCall])
    (by simp [acceptCall, LoopState.countCall])
  skip kept unknown := kept.quiet (by simp [skipCall, Phase.unexecuted, unknown])
    kept.stopping (by simp [Phase.searching])
  run kept known := kept.quiet (by simp [runCall, Phase.unexecuted, known])
    (by simpa [runCall, Phase.Stops] using kept.stopping) (by simp [Phase.searching])
  final {s messages} reason kept := kept.final (finalizeOnly_ends s messages reason)

theorem outline_rounds (count : Nat) :
    Outline loop world
      (fun phase state => match phase with
        | .round => state.guard.stepCount = count
        | .stopped _ => True
        | _ => state.guard.stepCount = count + 1 ∧ (count + 1 : Int) ≤ loop.guardCfg.maxSteps)
      (fun _ => True) where
  context _ _ := trivial
  ask same accepted := by
    obtain ⟨within, rfl⟩ := AgentGuard.recordStep_ok accepted
    exact ⟨congrArg (· + 1) same, by rwa [same] at within⟩
  rounds _ := trivial
  fail _ := trivial
  truncate _ := trivial
  finish _ := trivial
  batch counted := counted
  exhausted _ := trivial
  search counted accepted := by
    obtain ⟨_, rfl⟩ := AgentGuard.recordSearchCall_ok accepted
    exact counted
  other counted _ := counted
  refuse _ := trivial
  accept counted accepted := by
    obtain ⟨_, _, _, rfl⟩ := AgentGuard.recordToolCall_ok accepted
    exact ⟨(AgentGuard.counted_stepCount _).trans counted.1, counted.2⟩
  skip counted _ := counted
  run counted _ := counted
  final _ _ := trivial

theorem run_returns (loop : AgentLoop Report) (world : World) (spec : ExecutionSpec) :
    ∃ outcome, loop.run world spec (loop.guardCfg.maxSteps.toNat + 1) = some outcome := by
  apply @iterate_some _ _ (fun _ => True) _
    fun state => loop.guardCfg.maxSteps.toNat - state.guard.stepCount
  · intro state _
    have outline : Outline loop world _ _ := outline_rounds state.guard.stepCount
    refine (outline.round_leads rfl).imp (fun _ done => done) fun next ⟨_, counted, within⟩ =>
      ⟨trivial, ?_⟩
    omega
  · trivial
  · simp [AgentLoop.start, newAgentGuard]

/-- Every run of every loop returns, and keeps to the budgets. -/
theorem run_within_budgets (loop : AgentLoop Report) (world : World) (spec : ExecutionSpec) :
    ∃ outcome, loop.run world spec (loop.guardCfg.maxSteps.toNat + 1) = some outcome ∧
      WithinBudgets loop outcome.log := by
  obtain ⟨outcome, done⟩ := run_returns loop world spec
  have start : Kept loop .round (loop.start spec).guard (loop.start spec).log := by
    constructor
    · rfl
    · simp [AgentLoop.start, newAgentGuard]
    · exact counted_new
    · simp [AgentLoop.start, Phase.searching]
    · exact fun limited => limited.le
    · rfl
    · rfl
  have again : ∀ resp (state : LoopState), Kept loop (.calls resp []) state.guard state.log →
      Kept loop .round state.guard state.log :=
    fun _ _ kept => kept.quiet ⟨rfl, rfl, rfl⟩ kept.stopping le_rfl
  exact ⟨outcome, done, outline_budgets.run_post start again done⟩

/-- Two equal executions follow each other although the configuration allows one: the call
of an unknown tool between them has ended the row. -/
theorem run_row_interrupted :
    ∃ outcome, (oneToolLoop ⟨3, 9, 9, 1, 0, 0⟩).run
        (.ofResponses [callingTools ["read_file", "others", "read_file"]]) emptySpec 4 =
          some outcome ∧
      List.replicate 2 (text "read_file", []) <:+: executions outcome.log ∧
        ¬((2 : Int) ≤ max 1 1) := by
  have twice : ((oneToolLoop ⟨3, 9, 9, 1, 0, 0⟩).run
      (.ofResponses [callingTools ["read_file", "others", "read_file"]]) emptySpec 4).map
        (fun outcome => executions outcome.log) =
          some (List.replicate 2 (text "read_file", [])) := by
    decide +kernel
  obtain ⟨outcome, done, row⟩ := Option.map_eq_some_iff.mp twice
  exact ⟨outcome, done, row ▸ List.infix_rfl, by decide⟩

end Agent

end RepoLens
