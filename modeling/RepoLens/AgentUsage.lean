import RepoLens.AgentLoop

/-!
The usage that a run reports, against the answers of the provider. The tokens are exact on every
exit.
-/

namespace RepoLens

namespace Agent

open Loops AgentLoop

def attempts : Except CallError GenerateResponse → Int
  | .error err => max 1 err.attempts
  | .ok resp => max 1 resp.providerAttempts

def tokensOf : Except CallError GenerateResponse → Tokens
  | .error _ => .zero
  | .ok resp => resp.tokens

def totalAttempts (answers : List (Except CallError GenerateResponse)) : Int :=
  (answers.map attempts).sum

def totalTokens (answers : List (Except CallError GenerateResponse)) : Tokens :=
  answers.foldl (fun tokens answer => tokens.add (tokensOf answer)) .zero

def Truncated (cfg : GuardConfig) : Except CallError GenerateResponse → Prop
  | .error _ => False
  | .ok resp => isTruncatedResponse resp cfg.maxOutputTokens = true

def Retryless (cfg : GuardConfig) (answers : List (Except CallError GenerateResponse)) : Prop :=
  ∀ before last, answers = before ++ [last] →
    (∀ answer ∈ before, attempts answer = 1) ∧ (Truncated cfg last → attempts last = 1)

theorem retries_attempts (reported : Int) : 1 + retries reported = max 1 reported := by
  simp only [retries]
  split <;> omega

theorem Tokens.add_zero (tokens : Tokens) : tokens.add .zero = tokens := by
  simp [Tokens.add, Tokens.zero]

section Totals

variable (before : List (Except CallError GenerateResponse))
    (last : Except CallError GenerateResponse)

@[simp] theorem totalAttempts_append :
    totalAttempts (before ++ [last]) = totalAttempts before + attempts last := by
  simp [totalAttempts]

@[simp] theorem totalTokens_append :
    totalTokens (before ++ [last]) = (totalTokens before).add (tokensOf last) := by
  simp [totalTokens]

theorem attempts_pos : 1 ≤ attempts last := by
  cases last <;> exact le_max_left _ _

theorem length_le_totalAttempts : (before.length : Int) ≤ totalAttempts before ∧
    ((before.length : Int) = totalAttempts before ↔ ∀ answer ∈ before, attempts answer = 1) := by
  induction before with
  | nil => simp [totalAttempts]
  | cons answer rest ih =>
    have pos := attempts_pos answer
    have total : totalAttempts (answer :: rest) = attempts answer + totalAttempts rest := by
      simp [totalAttempts]
    obtain ⟨le, iff⟩ := ih
    rw [List.forall_mem_cons, ← iff, total]
    simp only [List.length_cons]
    constructor <;> omega

theorem final_total_iff (cfg : GuardConfig) (counted : Int)
    (truncated : Truncated cfg last → counted = before.length + 1)
    (complete : ¬Truncated cfg last → counted = before.length + attempts last) :
    counted = totalAttempts (before ++ [last]) ↔ Retryless cfg (before ++ [last]) := by
  obtain ⟨le, iff⟩ := length_le_totalAttempts before
  have pos := attempts_pos last
  have same : Retryless cfg (before ++ [last]) ↔
      (before.length : Int) = totalAttempts before ∧ (Truncated cfg last → attempts last = 1) := by
    rw [iff]
    constructor
    · exact fun retryless => retryless before last rfl
    · rintro retryless _ _ split
      obtain ⟨rfl, rfl⟩ : before = _ ∧ last = _ := by simpa using List.append_inj' split rfl
      exact retryless
  rw [same, totalAttempts_append]
  by_cases cut : Truncated cfg last
  · have := truncated cut
    simp only [cut, forall_const]
    omega
  · have := complete cut
    simp only [cut, false_imp_iff, and_true]
    omega

end Totals

theorem answers_request {world : World} {log later : List Event} {request : Request}
    (sent : requests later = requests log ++ [request]) :
    answers world later = answers world log ++ [world.answer log] := by
  simp [answers, sent, List.range_succ, World.answer]

theorem answers_quiet {world : World} {log later : List Event}
    (same : requests later = requests log) :
    answers world later = answers world log := by
  simp [answers, same]

variable {Report : Type} {loop : AgentLoop Report} {world : World}

structure Tally (answered : List (Except CallError GenerateResponse)) (state : LoopState) :
    Prop where
  rounds : state.agentRounds = answered.length
  tokens : state.tokens = totalTokens answered
  calls : state.providerCalls = totalAttempts answered

/-- The counters while the last answer is not yet accounted for. -/
structure Pending (before : List (Except CallError GenerateResponse)) (state : LoopState) :
    Prop where
  rounds : state.agentRounds = before.length + 1
  tokens : state.tokens = totalTokens before
  calls : state.providerCalls = totalAttempts before + 1

def AgentLoop.Phase.Usage (world : World) (state : LoopState) : Phase → Prop
  | .asked answer => ∃ before, answers world state.log = before ++ [answer] ∧ Pending before state
  | _ => Tally (answers world state.log) state

def AgentLoop.Phase.Running (log : List Event) : Phase → Prop
  | .stopped _ => stops log ≠ []
  | _ => stops log = []

def ExactUsage (cfg : GuardConfig) (world : World) (outcome : Outcome Report) : Prop :=
  ∀ result, outcome.result = some result →
    result.tokens = totalTokens (answers world outcome.log) ∧
    (result.providerCalls = totalAttempts (answers world outcome.log) ↔
      (stops outcome.log ≠ [] → Retryless cfg (answers world outcome.log)))

theorem Pending.account {before : List (Except CallError GenerateResponse)} {state : LoopState}
    (pending : Pending before state) (resp : GenerateResponse) :
    Tally (before ++ [.ok resp]) (state.account resp) where
  rounds := by simp [LoopState.account, pending.rounds]
  tokens := by simp [LoopState.account, pending.tokens, tokensOf]
  calls := by
    have := retries_attempts resp.providerAttempts
    simp only [LoopState.account, pending.calls, totalAttempts_append, attempts]
    omega

theorem Pending.fail {before : List (Except CallError GenerateResponse)} {state : LoopState}
    (pending : Pending before state) (err : CallError) :
    Tally (before ++ [.error err]) { state with
      providerCalls := state.providerCalls + retries err.attempts } where
  rounds := by simp [pending.rounds]
  tokens := by simp [pending.tokens, tokensOf, Tokens.add_zero]
  calls := by
    have := retries_attempts err.attempts
    simp only [pending.calls, totalAttempts_append, attempts]
    omega

theorem Tally.quiet {state next : LoopState} (tally : Tally (answers world state.log) state)
    (same : requests next.log = requests state.log)
    (counters : next.agentRounds = state.agentRounds ∧ next.tokens = state.tokens ∧
      next.providerCalls = state.providerCalls) : Tally (answers world next.log) next := by
  obtain ⟨rounds, tokens, calls⟩ := counters
  rw [answers_quiet same]
  exact ⟨rounds.trans tally.rounds, tokens.trans tally.tokens, calls.trans tally.calls⟩

theorem Tally.exact {answered : List (Except CallError GenerateResponse)} {state : LoopState}
    (tally : Tally answered state) (cfg : GuardConfig) {outcome : Outcome Report}
    {log : List Event} {seq : Nat} (ends : Ends world log seq outcome)
    (same : answers world log = answered) (running : stops log = [])
    (reported : ∀ result, outcome.result = some result →
      result.tokens = state.tokens ∧ result.providerCalls = state.providerCalls) :
    ExactUsage cfg world outcome := by
  intro result returned
  obtain ⟨tokens, calls⟩ := reported result returned
  rw [answers_quiet ends.requests_eq, ends.stops_eq, same, running, tokens, calls, tally.tokens,
    tally.calls]
  simp

theorem finish_reported (resp : GenerateResponse) (state : LoopState) (result : LoopResult Report)
    (returned : (loop.finish world resp state).result = some result) :
    result.tokens = state.tokens ∧ result.providerCalls = state.providerCalls := by
  simp only [finish] at returned
  split at returned <;> cases returned <;> exact ⟨rfl, rfl⟩

theorem finalizeOnly_reported (state : LoopState) (messages : List Message) (reason : String)
    (result : LoopResult Report)
    (returned : (loop.finalizeOnly world state messages reason).result = some result) :
    result.tokens = state.tokens.add (tokensOf (world.answer state.log)) ∧
    (Truncated loop.guardCfg (world.answer state.log) →
      result.providerCalls = state.agentRounds + 1) ∧
    (¬Truncated loop.guardCfg (world.answer state.log) →
      result.providerCalls = state.agentRounds + attempts (world.answer state.log)) := by
  cases answered : world.answer state.log with
  | error err =>
    simp only [finalizeOnly, answered, Option.some.injEq] at returned
    subst returned
    refine ⟨(Tokens.add_zero _).symm, False.elim, fun _ => ?_⟩
    simp only [LoopState.finalResult, maxProviderAttempts, attempts]
    split <;> omega
  | ok resp =>
    have calls : (if 1 < resp.providerAttempts then (state.agentRounds : Int) +
      resp.providerAttempts
        else state.agentRounds + 1) = state.agentRounds + max 1 resp.providerAttempts := by
      split <;> omega
    simp only [finalizeOnly, answered] at returned
    split at returned
    · next cut =>
        cases returned
        exact ⟨rfl, fun _ => rfl, fun complete => absurd cut complete⟩
    · next complete =>
        simp only [finalReport, calls] at returned
        split at returned <;> cases returned <;>
          exact ⟨rfl, fun cut => absurd cut complete, fun _ => rfl⟩

theorem Tally.final {state : LoopState} (tally : Tally (answers world state.log) state)
    (refused : stops state.log ≠ []) (messages : List Message) (reason : String) :
    ExactUsage loop.guardCfg world (loop.finalizeOnly world state messages reason) := by
  intro result returned
  obtain ⟨tokens, truncated, complete⟩ :=
    finalizeOnly_reported state messages reason result returned
  have ends : Ends world _ _ (loop.finalizeOnly world state messages reason) :=
    finalizeOnly_ends state messages reason
  have all : answers world (loop.finalizeOnly world state messages reason).log =
      answers world state.log ++ [world.answer state.log] := by
    rw [answers_quiet ends.requests_eq]
    apply answers_request
    simp [finalLog]
    rfl
  have stopped : stops (loop.finalizeOnly world state messages reason).log ≠ [] := by
    simpa [ends.stops_eq, finalLog] using refused
  rw [all]
  constructor
  · rw [tokens, tally.tokens, totalTokens_append]
  · rw [tally.rounds] at truncated complete
    simp only [stopped, ne_eq, not_false_eq_true, forall_const]
    exact final_total_iff _ _ _ _ truncated complete

theorem outline_usage :
    Outline loop world (fun phase state => phase.Running state.log ∧ phase.Usage world state)
      (ExactUsage loop.guardCfg world) where
  context _ := fun _ _ returned => by cases returned
  ask {s guard} := fun ⟨running, tally⟩ _ => by
    refine ⟨by simpa [AgentLoop.ask, beginRound, Phase.Running] using running,
      answers world s.log, ?_, ?_⟩
    · apply answers_request
      simp [AgentLoop.ask, beginRound]
      rfl
    · exact ⟨congrArg (· + 1) tally.rounds, tally.tokens, congrArg (· + 1) tally.calls⟩
  rounds := fun ⟨_, tally⟩ => ⟨by simp [Phase.Running], tally.quiet (by simp) ⟨rfl, rfl, rfl⟩⟩
  fail {s err} := fun ⟨running, _, same, pending⟩ =>
    (pending.fail err).exact _ (fail_ends err s) same running fun _ returned => by
      cases returned
      exact ⟨rfl, rfl⟩
  truncate {s resp} := fun ⟨running, _, same, pending⟩ =>
    (pending.account resp).exact _ (truncate_ends resp (s.account resp)) same running
      fun _ returned => by
      cases returned
      exact ⟨rfl, rfl⟩
  finish {s resp} := fun ⟨running, _, same, pending⟩ =>
    (pending.account resp).exact _ (finish_ends resp (s.account resp)) same running
      (finish_reported resp (s.account resp))
  batch {s resp} := fun ⟨running, before, same, pending⟩ => by
    have tally : Tally (answers world s.log) (s.account resp) := same ▸ pending.account resp
    exact ⟨running, tally.rounds, tally.tokens, tally.calls⟩
  exhausted := fun ⟨_, tally⟩ =>
    ⟨by simp [Phase.Running], tally.quiet (by simp [LoopState.countSearch]) ⟨rfl, rfl, rfl⟩⟩
  search := fun ⟨running, tally⟩ _ => ⟨running, tally.quiet rfl ⟨rfl, rfl, rfl⟩⟩
  other := fun holds _ => holds
  refuse := fun ⟨_, tally⟩ => ⟨by simp [Phase.Running, refuseCall],
    tally.quiet (by simp [refuseCall, LoopState.countCall]) ⟨rfl, rfl, rfl⟩⟩
  accept := fun ⟨running, tally⟩ _ =>
    ⟨by simpa [acceptCall, LoopState.countCall, Phase.Running] using running,
    tally.quiet (by simp [acceptCall, LoopState.countCall]) ⟨rfl, rfl, rfl⟩⟩
  skip := fun ⟨running, tally⟩ _ => ⟨running, tally.quiet rfl ⟨rfl, rfl, rfl⟩⟩
  run := fun ⟨running, tally⟩ _ => ⟨by simpa [runCall, Phase.Running] using running,
    tally.quiet (by simp [runCall]) ⟨rfl, rfl, rfl⟩⟩
  final {s messages} reason := fun ⟨refused, tally⟩ => tally.final refused messages reason

/-- On every exit with a result. -/
theorem run_usage_exact_iff {spec : ExecutionSpec} {fuel : Nat} {outcome : Outcome Report}
    {result : LoopResult Report} (done : loop.run world spec fuel = some outcome)
    (returned : outcome.result = some result) :
    result.tokens = totalTokens (answers world outcome.log) ∧
    (result.providerCalls = totalAttempts (answers world outcome.log) ↔
      (stops outcome.log ≠ [] → Retryless loop.guardCfg (answers world outcome.log))) := by
  have start : Tally (answers world (loop.start spec).log) (loop.start spec) := ⟨rfl, rfl, rfl⟩
  exact outline_usage.run_post ⟨rfl, start⟩ (fun _ _ holds => holds) done result returned

/-- Three attempts for a response that ends the run. -/
theorem run_usage_exact_iff_retried :
    ∃ outcome result, (oneToolLoop ⟨3, 3, 3, 3, 0, 0⟩).run
        (.ofResponses [{ callingTools [] with providerAttempts := 3 }]) emptySpec 1 = some outcome ∧
      outcome.result = some result ∧ result.providerCalls = 3 ∧
      (result.providerCalls = totalAttempts (answers (.ofResponses
          [{ callingTools [] with providerAttempts := 3 }]) outcome.log) ↔
        (stops outcome.log ≠ [] → Retryless ⟨3, 3, 3, 3, 0, 0⟩ (answers (.ofResponses
          [{ callingTools [] with providerAttempts := 3 }]) outcome.log))) := by
  have calls : ((oneToolLoop ⟨3, 3, 3, 3, 0, 0⟩).run
      (.ofResponses [{ callingTools [] with providerAttempts := 3 }]) emptySpec 1).bind
        (fun outcome => outcome.result.map (·.providerCalls)) = some 3 := by decide +kernel
  obtain ⟨outcome, done, reported⟩ := Option.bind_eq_some_iff.mp calls
  obtain ⟨result, returned, three⟩ := Option.map_eq_some_iff.mp reported
  exact ⟨outcome, result, done, returned, three, (run_usage_exact_iff done returned).2⟩

/-- The only round needs three attempts, then `finalizeOnly` makes the fourth: two calls are
reported. -/
theorem run_usage_forgets_retries :
    ∃ outcome result, (oneToolLoop ⟨1, 3, 3, 3, 0, 0⟩).run
        (.ofResponses [{ callingTools ["read_file"] with providerAttempts := 3 }, callingTools []])
        emptySpec 2 = some outcome ∧
      outcome.result = some result ∧ result.providerCalls = 2 ∧
      totalAttempts (answers (.ofResponses
        [{ callingTools ["read_file"] with providerAttempts := 3 }, callingTools []]) outcome.log) =
          4 := by
  have calls : ((oneToolLoop ⟨1, 3, 3, 3, 0, 0⟩).run
      (.ofResponses [{ callingTools ["read_file"] with providerAttempts := 3 }, callingTools []])
      emptySpec 2).bind (fun outcome => outcome.result.map fun result =>
        (result.providerCalls, (requests outcome.log).length)) = some (2, 2) := by decide +kernel
  obtain ⟨outcome, done, reported⟩ := Option.bind_eq_some_iff.mp calls
  obtain ⟨result, returned, counts⟩ := Option.map_eq_some_iff.mp reported
  obtain ⟨two, sent⟩ : result.providerCalls = 2 ∧ (requests outcome.log).length = 2 := by
    simpa using counts
  refine ⟨outcome, result, done, returned, two, ?_⟩
  rw [answers, sent]
  decide

end Agent

end RepoLens
