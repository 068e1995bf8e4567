import RepoLens.Lib.Loops
import RepoLens.ToolResults

/-!
`AgentLoop.Run` of `internal/agent` with its guard, its tool registry and the finalization call.
-/

namespace RepoLens

namespace Agent

open Evidence Loops

def text (s : String) : Bytes := Utf8.ofString s

def number (n : Int) : Bytes := Utf8.ofString (toString n)

/-- `llm.Role`; the provider chooses the role of its messages. -/
inductive Role where
  | system
  | user
  | assistant
  | tool
  | other (name : Bytes)
  deriving DecidableEq, Repr

structure ToolCall where
  id : Bytes
  name : Bytes
  arguments : Bytes
  deriving DecidableEq, Repr

structure Message where
  role : Role
  content : Bytes
  toolCalls : List ToolCall
  toolCallID : Bytes
  deriving DecidableEq, Repr

/-- The four token counts of a response. They are not wrapped: the sums of one run stay far below
the range of Go's `int` unless the provider reports counts of that size. -/
structure Tokens where
  prompt : Int
  completion : Int
  cached : Int
  reasoning : Int
  deriving DecidableEq, Repr

def Tokens.zero : Tokens := ⟨0, 0, 0, 0⟩

def Tokens.add (one two : Tokens) : Tokens :=
  ⟨one.prompt + two.prompt, one.completion + two.completion, one.cached + two.cached,
    one.reasoning + two.reasoning⟩

structure GenerateResponse where
  message : Message
  finishReason : Bytes
  tokens : Tokens
  providerAttempts : Int
  deriving DecidableEq, Repr

/-- An error of `Generate`: its text and `llm.ProviderAttempts` of it. -/
structure CallError where
  error : Bytes
  attempts : Int
  deriving DecidableEq, Repr

/-- `llm.GenerateRequest`; a tool definition is given by its name. -/
structure Request where
  messages : List Message
  tools : List String
  maxTokens : Int
  deriving DecidableEq, Repr

structure GuardConfig where
  maxSteps : Int
  maxToolCalls : Int
  maxSearchCalls : Int
  maxRepeatCalls : Int
  maxToolResultBytes : Int
  maxOutputTokens : Int
  deriving DecidableEq, Repr

structure AgentGuard where
  stepCount : Nat
  toolCallCount : Nat
  searchCallCount : Nat
  callHistory : String → Nat
  lastCallHash : String
  consecutiveSame : Nat

def newAgentGuard : AgentGuard := ⟨0, 0, 0, fun _ => 0, "", 0⟩

namespace AgentGuard

variable (cfg : GuardConfig) (guard : AgentGuard)

def recordStep : Except Bytes AgentGuard :=
  let guard := { guard with stepCount := guard.stepCount + 1 }
  if cfg.maxSteps < guard.stepCount then
    .error (text "agent step limit exceeded (max: " ++ number cfg.maxSteps ++ text ")")
  else .ok guard

def recordSearchCall : Except Bytes AgentGuard :=
  let guard := { guard with searchCallCount := guard.searchCallCount + 1 }
  if 0 < cfg.maxSearchCalls ∧ cfg.maxSearchCalls < guard.searchCallCount then
    .error (text "search_code budget exceeded (max: " ++ number cfg.maxSearchCalls ++ text ")")
  else .ok guard

def countSame (callHash : String) : AgentGuard :=
  if callHash = guard.lastCallHash then { guard with consecutiveSame := guard.consecutiveSame + 1 }
  else { guard with consecutiveSame := 0, lastCallHash := callHash }

def countCall (callHash : String) : AgentGuard :=
  { guard with
    callHistory := Function.update guard.callHistory callHash (guard.callHistory callHash + 1) }

def recordToolCall (sha : Sha256) (name argsJSON : Bytes) : Except Bytes AgentGuard :=
  let guard := { guard with toolCallCount := guard.toolCallCount + 1 }
  if cfg.maxToolCalls < guard.toolCallCount then
    .error (text "agent tool call limit exceeded (max: " ++ number cfg.maxToolCalls ++ text ")")
  else
    let callHash := sha.hex (name ++ text ":" ++ argsJSON)
    let same := decide (callHash = guard.lastCallHash)
    let guard := guard.countSame callHash
    if same ∧ cfg.maxRepeatCalls ≤ guard.consecutiveSame then
      .error (text "repeated identical tool call detected: " ++ name)
    else
      let guard := guard.countCall callHash
      if 3 < guard.callHistory callHash then
        .error (text "duplicate tool call threshold exceeded for " ++ name)
      else .ok guard

end AgentGuard

inductive StepType where
  | thinking
  | error
  | toolCall
  | toolResult
  | finalOutput
  deriving DecidableEq, Repr

/-- `trace.AgentStep` without its ids and times. -/
structure AgentStep where
  seq : Nat
  stepType : StepType
  toolName : Bytes
  toolArgsSummary : Bytes
  toolResultSummary : Bytes
  status : String
  inputTokens : Int
  outputTokens : Int
  errorCode : Bytes
  finishReason : Bytes
  deriving DecidableEq, Repr

/-- What a run does. -/
inductive Event where
  | request (request : Request)
  /-- The guard has accepted a call. -/
  | call (name arguments : Bytes)
  /-- A tool is executed. -/
  | execution (name arguments : Bytes)
  | step (step : AgentStep)
  /-- The guard refuses to go on. -/
  | stopped (reason : String)
  deriving DecidableEq, Repr

/-- The answers that a run is given. -/
structure World where
  contextErr : Nat → Option Bytes
  generate : Nat → Except CallError GenerateResponse
  execute : Nat → Except Bytes Bytes
  persists : Nat → Bool

/-- The parts of `DiagnosisExecutionSpec` that the first message is made of. -/
structure ExecutionSpec where
  repositoryID : Bytes
  snapshotID : Bytes
  title : Bytes
  description : Bytes
  errorLog : Bytes

/-- `AgentLoop`; `systemPrompt` is the whole text of the system message, and the registry
is given by the names of its tools. -/
structure AgentLoop (Report : Type) where
  sha : Sha256
  systemPrompt : Bytes
  registry : List String
  guardCfg : GuardConfig
  initialQuery : Bytes
  initialEvidence : Bytes
  parseReportJSON : Bytes → Except Bytes Report

structure LoopResult (Report : Type) where
  report : Option Report
  rawOutput : Bytes
  tokens : Tokens
  toolCallsCount : Nat
  toolNames : List Bytes
  agentRounds : Nat
  searchCalls : Nat
  providerCalls : Int
  finishReason : Bytes
  structuredReport : Bool
  parseError : Bytes
  finalizationReason : String

inductive RunErr where
  | context (error : Bytes)
  | provider (error : CallError)
  | truncated (finishReason : Bytes) (completionTokens reasoningTokens maxOutputTokens : Int)
  | parse (error : Bytes)
  deriving DecidableEq, Repr

structure Outcome (Report : Type) where
  result : Option (LoopResult Report)
  err : Option RunErr
  log : List Event

/-- The variables of `Run`, and the log. -/
structure LoopState where
  guard : AgentGuard
  messages : List Message
  tokens : Tokens
  toolCallsCount : Nat
  searchCalls : Nat
  providerCalls : Int
  lastFinishReason : Bytes
  toolNames : List Bytes
  agentRounds : Nat
  seq : Nat
  log : List Event

def requests (log : List Event) : List Request :=
  log.filterMap fun
    | .request request => some request
    | _ => none

def calls (log : List Event) : List (Bytes × Bytes) :=
  log.filterMap fun
    | .call name arguments => some (name, arguments)
    | _ => none

def executions (log : List Event) : List (Bytes × Bytes) :=
  log.filterMap fun
    | .execution name arguments => some (name, arguments)
    | _ => none

def steps (log : List Event) : List AgentStep :=
  log.filterMap fun
    | .step step => some step
    | _ => none

def stops (log : List Event) : List String :=
  log.filterMap fun
    | .stopped reason => some reason
    | _ => none

def searchCode : Bytes := text "search_code"

def toolAnswer (call : ToolCall) (content : Bytes) : Message := ⟨.tool, content, [], call.id⟩

def appendBudgetResults (messages : List Message) (calls : List ToolCall) (reason : String) :
    List Message :=
  messages ++ calls.map fun call => toolAnswer call (text ("Tool was not executed: " ++ reason))

def isTruncatedResponse (resp : GenerateResponse) (maxOutputTokens : Int) : Bool :=
  (Utf8.decode (Utf8.trimBytes resp.finishReason)).map (fun rune => rune.value.toLower) ==
      "length".toList ||
    (decide (0 < maxOutputTokens) && Utf8.trimBytes resp.message.content == [] &&
      resp.message.toolCalls.isEmpty && decide (maxOutputTokens ≤ resp.tokens.completion))

def errCodeModelOutputTruncated : Bytes := text "MODEL_OUTPUT_TRUNCATED"

def AgentStep.redacted (step : AgentStep) : AgentStep :=
  { step with
    toolName := redactSecrets step.toolName
    toolArgsSummary := redactSecrets step.toolArgsSummary
    toolResultSummary := redactSecrets step.toolResultSummary
    errorCode := redactSecrets step.errorCode
    finishReason := redactSecrets step.finishReason }

@[simp] theorem AgentStep.redacted_seq (step : AgentStep) : step.redacted.seq = step.seq := by
  simp only [AgentStep.redacted]

namespace World

variable (world : World)

def record (log : List Event) (step : AgentStep) : List Event :=
  if world.persists step.seq then log ++ [.step step.redacted] else log

def answer (log : List Event) : Except CallError GenerateResponse :=
  world.generate (requests log).length

def toolResult (log : List Event) : Except Bytes Bytes := world.execute (executions log).length

end World

/-- What the provider has answered in a run with this log. -/
def answers (world : World) (log : List Event) : List (Except CallError GenerateResponse) :=
  (List.range (requests log).length).map world.generate

/-- The attempts beyond the first that an answer reports. -/
def retries (attempts : Int) : Int := if 1 < attempts then attempts - 1 else 0

def maxProviderAttempts (err : CallError) : Int := if 0 < err.attempts then err.attempts else 1

namespace LoopState

variable (state : LoopState)

def result (Report : Type) : LoopResult Report :=
  ⟨none, [], state.tokens, state.toolCallsCount, state.toolNames, state.agentRounds,
    state.searchCalls,
    state.providerCalls, state.lastFinishReason, false, [], ""⟩

def finalResult (Report : Type) (tokens : Tokens) (rounds : Nat) (providerCalls : Int)
    (finishReason : Bytes) (reason : String) : LoopResult Report :=
  ⟨none, [], tokens, state.toolCallsCount, state.toolNames, rounds, state.searchCalls,
    providerCalls,
    finishReason, false, [], reason⟩

def recordNext (world : World) (step : Nat → AgentStep) : LoopState :=
  { state with
    seq := state.seq + 1
    log := world.record state.log (step (state.seq + 1)) }

def account (resp : GenerateResponse) : LoopState :=
  { state with
    providerCalls := state.providerCalls + retries resp.providerAttempts
    tokens := state.tokens.add resp.tokens
    lastFinishReason := resp.finishReason }

def append (message : Message) : LoopState := { state with messages := state.messages ++ [message] }

def note (event : Event) : LoopState := { state with log := state.log ++ [event] }

def countSearch : LoopState := { state with searchCalls := state.searchCalls + 1 }

def countCall (name : Bytes) : LoopState :=
  { state with
    toolCallsCount := state.toolCallsCount + 1
    toolNames := state.toolNames ++ [name] }

end LoopState

namespace AgentLoop

variable {Report : Type} (loop : AgentLoop Report) (world : World)

def get (name : Bytes) : Option String := loop.registry.find? fun tool => text tool == name

def notRegistered (name : Bytes) : Bytes := text "Error: tool " ++ name ++ text " not registered"

def generateRequest (messages : List Message) (tools : List String) : Request :=
  ⟨messages, tools, loop.guardCfg.maxOutputTokens⟩

def modelOutputTruncatedError (resp : GenerateResponse) : RunErr :=
  .truncated resp.finishReason resp.tokens.completion resp.tokens.reasoning
    loop.guardCfg.maxOutputTokens

def finalizeMessage : Message :=
  ⟨.user,
    text
    ("FINALIZE_ONLY: exploration budget is exhausted. Do not request tools. Return the best " ++
    "evidence-backed structured JSON now, clearly separating confirmed facts, likely explanation, " ++
    "uncertainty, and next checks."), [], []⟩

def finalizeRequest (messages : List Message) : Request :=
  loop.generateRequest (messages ++ [finalizeMessage]) []

def finalReport (state : LoopState) (resp : GenerateResponse) (reason : String) (log : List Event) :
    Outcome Report :=
  let result := { state.finalResult Report (state.tokens.add resp.tokens) (state.agentRounds + 1)
      (if 1 < resp.providerAttempts then state.agentRounds + resp.providerAttempts
        else state.agentRounds + 1) resp.finishReason reason with
    rawOutput := redactSecrets resp.message.content }
  match loop.parseReportJSON resp.message.content with
  | .error err => ⟨some { result with parseError := err }, some (.parse err), log⟩
  | .ok report => ⟨some { result with report := some report, structuredReport := true }, none, log⟩

def finalizeOnly (state : LoopState) (messages : List Message) (reason : String) : Outcome Report :=
  let seq := state.seq + 1
  let asked := state.log ++ [.request (loop.finalizeRequest messages)]
  let code := text ("FINALIZATION_" ++ reason)
  match world.answer state.log with
  | .error err =>
    ⟨some (state.finalResult Report state.tokens state.agentRounds
        (state.agentRounds + maxProviderAttempts err) [] reason),
      some (.provider err),
      world.record asked ⟨seq, .error, [], [], [], "FAILED", 0, 0, code, []⟩⟩
  | .ok resp =>
    if isTruncatedResponse resp loop.guardCfg.maxOutputTokens then
      ⟨some { state.finalResult Report (state.tokens.add resp.tokens) (state.agentRounds + 1)
          (state.agentRounds + 1) resp.finishReason reason with
          parseError := errCodeModelOutputTruncated },
        some (loop.modelOutputTruncatedError resp),
        world.record asked ⟨seq, .error, [], [], [], "FAILED", resp.tokens.prompt,
          resp.tokens.completion, errCodeModelOutputTruncated, resp.finishReason⟩⟩
    else
      loop.finalReport state resp reason
        (world.record asked ⟨seq, .finalOutput, [], [], redactSecrets resp.message.content,
          "COMPLETED",
          resp.tokens.prompt, resp.tokens.completion, code, resp.finishReason⟩)

def toolContent (tool : String) (log : List Event) : Bytes :=
  toolMessage tool
    (match world.toolResult log with
      | .error err => text "Tool Execution Error: " ++ err
      | .ok result => result)
    loop.guardCfg.maxToolResultBytes

def acceptCall (resp : GenerateResponse) (call : ToolCall) (state : LoopState) : LoopState :=
  (state.note (.call call.name call.arguments)).recordNext world fun seq =>
    ⟨seq, .toolCall, call.name,
    redactSecrets call.arguments, [], "COMPLETED", resp.tokens.prompt, resp.tokens.completion, [],
    resp.finishReason⟩

def skipCall (call : ToolCall) (state : LoopState) : LoopState :=
  state.append (toolAnswer call (notRegistered call.name))

def runCall (resp : GenerateResponse) (call : ToolCall) (tool : String) (state : LoopState) :
    LoopState :=
  let content := loop.toolContent world tool state.log
  let state := (state.note (.execution call.name call.arguments)).recordNext world fun seq =>
    ⟨seq, .toolResult, call.name, [], content, "COMPLETED", 0, 0, [], resp.finishReason⟩
  state.append (toolAnswer call content)

/-- The answer to a call that the guard has accepted. -/
def executeCall (resp : GenerateResponse) (call : ToolCall) (state : LoopState) : LoopState :=
  match loop.get call.name with
  | none => skipCall call state
  | some tool => loop.runCall world resp call tool state

def refuseCall (resp : GenerateResponse) (call : ToolCall) (err : Bytes) (state : LoopState) :
    LoopState :=
  (state.note (.stopped "TOOL_BUDGET")).recordNext world fun seq => ⟨seq, .error, call.name,
    redactSecrets call.arguments, [], "FAILED", resp.tokens.prompt, resp.tokens.completion,
    text "GUARD_LIMIT: " ++ redactSecrets err, resp.finishReason⟩

def guardCall (resp : GenerateResponse) (call : ToolCall) (rest : List ToolCall)
    (state : LoopState) :
    Outcome Report ⊕ LoopState :=
  let state := state.countCall call.name
  match state.guard.recordToolCall loop.guardCfg loop.sha call.name call.arguments with
  | .error err =>
    .inl (loop.finalizeOnly world (refuseCall world resp call err state)
      (appendBudgetResults state.messages (call :: rest) "tool budget exhausted") "TOOL_BUDGET")
  | .ok guard =>
    .inr (loop.executeCall world resp call (acceptCall world resp call { state with guard }))

def answerCall (resp : GenerateResponse) (call : ToolCall) (rest : List ToolCall)
    (state : LoopState) :
    Outcome Report ⊕ LoopState :=
  if call.name = searchCode then
    let state := state.countSearch
    match state.guard.recordSearchCall loop.guardCfg with
    | .error _ =>
      .inl (loop.finalizeOnly world (state.note (.stopped "SEARCH_BUDGET"))
        (appendBudgetResults state.messages (call :: rest) "search_code budget exhausted")
        "SEARCH_BUDGET")
    | .ok guard => loop.guardCall world resp call rest { state with guard }
  else loop.guardCall world resp call rest state

/-- The end of a run with a response that calls no tool. -/
def finish (resp : GenerateResponse) (state : LoopState) : Outcome Report :=
  let state := state.recordNext world fun seq => ⟨seq, .finalOutput, [], [],
    redactSecrets resp.message.content, "COMPLETED", resp.tokens.prompt, resp.tokens.completion, [],
    resp.finishReason⟩
  let result := { state.result Report with rawOutput := redactSecrets resp.message.content }
  match loop.parseReportJSON resp.message.content with
  | .error err => ⟨some { result with parseError := err }, some (.parse err), state.log⟩
  | .ok report =>
    ⟨some { result with report := some report, structuredReport := true }, none, state.log⟩

def truncate (resp : GenerateResponse) (state : LoopState) : Outcome Report :=
  let state := state.recordNext world fun seq => ⟨seq, .error, [], [], [], "FAILED",
    resp.tokens.prompt, resp.tokens.completion, errCodeModelOutputTruncated, resp.finishReason⟩
  ⟨some { state.result Report with parseError := errCodeModelOutputTruncated },
    some (loop.modelOutputTruncatedError resp), state.log⟩

def fail (err : CallError) (state : LoopState) : Outcome Report :=
  let state := { state with providerCalls := state.providerCalls + retries err.attempts }
  let state := state.recordNext world fun seq => ⟨seq, .error, [], [], [], "FAILED", 0, 0,
    text "LLM_ERROR: " ++ redactSecrets err.error, []⟩
  ⟨some (state.result Report), some (.provider err), state.log⟩

def respond (state : LoopState) : Except CallError GenerateResponse → Outcome Report ⊕ LoopState
  | .error err => .inl (fail world err state)
  | .ok resp =>
    let state := state.account resp
    if isTruncatedResponse resp loop.guardCfg.maxOutputTokens then
      .inl (loop.truncate world resp state)
    else if resp.message.toolCalls = [] then .inl (loop.finish world resp state)
    else forEach (loop.answerCall world resp) resp.message.toolCalls (state.append resp.message)

def beginRound (guard : AgentGuard) (state : LoopState) : LoopState :=
  { state with
    guard
    agentRounds := state.agentRounds + 1
    providerCalls := state.providerCalls + 1 }.recordNext world fun seq =>
      ⟨seq, .thinking, [], [], [], "STARTED", 0, 0, [], []⟩

def ask (state : LoopState) : LoopState :=
  state.note (.request (loop.generateRequest state.messages loop.registry))

/-- The body of the loop of `Run`. -/
def round (state : LoopState) : Outcome Report ⊕ LoopState :=
  match world.contextErr state.agentRounds with
  | some err => .inl ⟨none, some (.context err), state.log⟩
  | none =>
    match state.guard.recordStep loop.guardCfg with
    | .error _ =>
      .inl (loop.finalizeOnly world (state.note (.stopped "AGENT_ROUND_BUDGET")) state.messages
        "AGENT_ROUND_BUDGET")
    | .ok guard =>
      let state := beginRound world guard state
      loop.respond world (loop.ask state) (world.answer state.log)

def initialUserMsg (spec : ExecutionSpec) : Bytes :=
  let message :=
    redactSecrets (text "Repository ID: " ++ spec.repositoryID ++ text "\nSnapshot ID: " ++
    spec.snapshotID ++ text "\nIssue Title: " ++ spec.title ++ text "\n\nIssue Description:\n" ++
    spec.description ++ text "\n\nError Log / CI Log:\n" ++ spec.errorLog)
  if loop.initialQuery ≠ [] ∨ loop.initialEvidence ≠ [] then
    message ++ text "\n\nDeterministic initial retrieval query:\n" ++
      redactSecrets loop.initialQuery ++
      text "\n\nEvidence Packet (candidate evidence only; verify before concluding):\n" ++
      redactSecrets loop.initialEvidence
  else message

def start (spec : ExecutionSpec) : LoopState :=
  ⟨newAgentGuard, [⟨.system, loop.systemPrompt, [], []⟩, ⟨.user, loop.initialUserMsg spec, [], []⟩],
    .zero, 0, 0, 0, [], [], 0, 0, []⟩

def run (spec : ExecutionSpec) (fuel : Nat) : Option (Outcome Report) :=
  iterate (loop.round world) fuel (loop.start spec)

/-- The points between two actions of a run. -/
inductive Phase where
  | round
  | asked (answer : Except CallError GenerateResponse)
  /-- These calls of the response are not answered yet. -/
  | calls (resp : GenerateResponse) (pending : List ToolCall)
  /-- The search budget has let the first call pass. -/
  | guarded (resp : GenerateResponse) (call : ToolCall) (pending : List ToolCall)
  | accepted (resp : GenerateResponse) (call : ToolCall) (pending : List ToolCall)
  | stopped (messages : List Message)

variable {loop} {world}

/-- What has to be shown of each action in order to have `inv` at every point of a run and
`post` at its end. -/
structure Outline (loop : AgentLoop Report) (world : World) (inv : Phase → LoopState → Prop)
    (post : Outcome Report → Prop) : Prop where
  context : ∀ {s} err, inv .round s → post ⟨none, some (.context err), s.log⟩
  ask : ∀ {s guard}, inv .round s → s.guard.recordStep loop.guardCfg = .ok guard →
    inv (.asked (world.answer s.log)) (loop.ask (beginRound world guard s))
  rounds : ∀ {s}, inv .round s →
    inv (.stopped s.messages) (s.note (.stopped "AGENT_ROUND_BUDGET"))
  fail : ∀ {s err}, inv (.asked (.error err)) s → post (AgentLoop.fail world err s)
  truncate : ∀ {s resp}, inv (.asked (.ok resp)) s →
    post (loop.truncate world resp (s.account resp))
  finish : ∀ {s resp}, inv (.asked (.ok resp)) s → post (loop.finish world resp (s.account resp))
  batch : ∀ {s resp}, inv (.asked (.ok resp)) s →
    inv (.calls resp resp.message.toolCalls) ((s.account resp).append resp.message)
  exhausted : ∀ {s resp call pending}, inv (.calls resp (call :: pending)) s →
    inv (.stopped (appendBudgetResults s.messages (call :: pending) "search_code budget exhausted"))
      (s.countSearch.note (.stopped "SEARCH_BUDGET"))
  search : ∀ {s resp call pending guard}, inv (.calls resp (call :: pending)) s →
    s.guard.recordSearchCall loop.guardCfg = .ok guard →
    inv (.guarded resp call pending) { s.countSearch with guard }
  other : ∀ {s resp call pending}, inv (.calls resp (call :: pending)) s → call.name ≠ searchCode →
    inv (.guarded resp call pending) s
  refuse : ∀ {s resp call pending err}, inv (.guarded resp call pending) s →
    inv (.stopped (appendBudgetResults s.messages (call :: pending) "tool budget exhausted"))
      (refuseCall world resp call err (s.countCall call.name))
  accept : ∀ {s resp call pending guard}, inv (.guarded resp call pending) s →
    s.guard.recordToolCall loop.guardCfg loop.sha call.name call.arguments = .ok guard →
    inv (.accepted resp call pending)
      (acceptCall world resp call { s.countCall call.name with guard })
  skip : ∀ {s resp call pending}, inv (.accepted resp call pending) s → loop.get call.name = none →
    inv (.calls resp pending) (skipCall call s)
  run : ∀ {s resp call pending tool}, inv (.accepted resp call pending) s →
    loop.get call.name = some tool → inv (.calls resp pending) (loop.runCall world resp call tool s)
  final : ∀ {s messages} reason, inv (.stopped messages) s →
    post (loop.finalizeOnly world s messages reason)

@[simp] theorem requests_append (one two : List Event) :
    requests (one ++ two) = requests one ++ requests two := List.filterMap_append

@[simp] theorem calls_append (one two : List Event) : calls (one ++ two) = calls one ++ calls two :=
  List.filterMap_append

@[simp] theorem executions_append (one two : List Event) :
    executions (one ++ two) = executions one ++ executions two := List.filterMap_append

@[simp] theorem steps_append (one two : List Event) : steps (one ++ two) = steps one ++ steps two :=
  List.filterMap_append

@[simp] theorem stops_append (one two : List Event) : stops (one ++ two) = stops one ++ stops two :=
  List.filterMap_append

@[simp] theorem requests_nil : requests [] = [] := rfl

@[simp] theorem requests_cons (event : Event) (log : List Event) :
    requests (event :: log) = match event with
      | .request request => request :: requests log
      | _ => requests log := by
  cases event <;> rfl

@[simp] theorem calls_nil : calls [] = [] := rfl

@[simp] theorem calls_cons (event : Event) (log : List Event) :
    calls (event :: log) = match event with
      | .call name arguments => (name, arguments) :: calls log
      | _ => calls log := by
  cases event <;> rfl

@[simp] theorem executions_nil : executions [] = [] := rfl

@[simp] theorem executions_cons (event : Event) (log : List Event) :
    executions (event :: log) = match event with
      | .execution name arguments => (name, arguments) :: executions log
      | _ => executions log := by
  cases event <;> rfl

@[simp] theorem steps_nil : steps [] = [] := rfl

@[simp] theorem steps_cons (event : Event) (log : List Event) :
    steps (event :: log) = match event with
      | .step step => step :: steps log
      | _ => steps log := by
  cases event <;> rfl

@[simp] theorem stops_nil : stops [] = [] := rfl

@[simp] theorem stops_cons (event : Event) (log : List Event) :
    stops (event :: log) = match event with
      | .stopped reason => reason :: stops log
      | _ => stops log := by
  cases event <;> rfl

section Record

variable (log : List Event) (step : AgentStep)

@[simp] theorem requests_record : requests (world.record log step) = requests log := by
  simp only [World.record]
  split <;> simp

@[simp] theorem calls_record : calls (world.record log step) = calls log := by
  simp only [World.record]
  split <;> simp

@[simp] theorem executions_record : executions (world.record log step) = executions log := by
  simp only [World.record]
  split <;> simp

@[simp] theorem stops_record : stops (world.record log step) = stops log := by
  simp only [World.record]
  split <;> simp

end Record

section Logs

variable (resp : GenerateResponse) (call : ToolCall) (state : LoopState)

@[simp] theorem LoopState.recordNext_log (step : Nat → AgentStep) :
    (state.recordNext world step).log = world.record state.log (step (state.seq + 1)) := rfl

@[simp] theorem LoopState.note_log (event : Event) :
    (state.note event).log = state.log ++ [event] := rfl

@[simp] theorem LoopState.append_log (message : Message) :
    (state.append message).log = state.log := rfl

end Logs

/-- One more step after `log`, and the run is over. -/
def Ends (world : World) (log : List Event) (seq : Nat) (outcome : Outcome Report) : Prop :=
  ∃ step : AgentStep, step.seq = seq + 1 ∧ outcome.log = world.record log step

theorem fail_ends (err : CallError) (state : LoopState) :
    Ends world state.log state.seq (fail world err state : Outcome Report) :=
  ⟨_, rfl, rfl⟩

theorem truncate_ends (resp : GenerateResponse) (state : LoopState) :
    Ends world state.log state.seq (loop.truncate world resp state) :=
  ⟨_, rfl, rfl⟩

theorem finish_ends (resp : GenerateResponse) (state : LoopState) :
    Ends world state.log state.seq (loop.finish world resp state) := by
  simp only [finish]
  split <;> exact ⟨_, rfl, rfl⟩

/-- The log of a run when `finalizeOnly` has asked the provider. -/
def finalLog (loop : AgentLoop Report) (log : List Event) (messages : List Message) : List Event :=
  log ++ [.request (loop.finalizeRequest messages)]

theorem finalizeOnly_ends (state : LoopState) (messages : List Message) (reason : String) :
    Ends world (loop.finalLog state.log messages) state.seq
      (loop.finalizeOnly world state messages reason) := by
  simp only [finalizeOnly]
  split
  · exact ⟨_, rfl, rfl⟩
  split
  · exact ⟨_, rfl, rfl⟩
  · simp only [finalReport]
    split <;> exact ⟨_, rfl, rfl⟩

variable {outcome : Outcome Report} {state : LoopState}

theorem Ends.requests_eq {log : List Event} {seq : Nat} (ends : Ends world log seq outcome) :
    requests outcome.log = requests log := by
  obtain ⟨step, _, same⟩ := ends
  rw [same, requests_record]

theorem Ends.stops_eq {log : List Event} {seq : Nat} (ends : Ends world log seq outcome) :
    stops outcome.log = stops log := by
  obtain ⟨step, _, same⟩ := ends
  rw [same, stops_record]

namespace Outline

variable {inv : Phase → LoopState → Prop} {post : Outcome Report → Prop}

theorem guardCall_leads (outline : Outline loop world inv post) {resp : GenerateResponse}
    {call : ToolCall} {pending : List ToolCall} (holds : inv (.guarded resp call pending) state) :
    Leads post (inv (.calls resp pending)) (loop.guardCall world resp call pending state) := by
  simp only [guardCall]
  split
  · next => exact outline.final _ (outline.refuse holds)
  · next guard accepted =>
      have holds := outline.accept holds accepted
      simp only [executeCall]
      split
      · next unknown => exact outline.skip holds unknown
      · next tool known => exact outline.run holds known

theorem answerCall_leads (outline : Outline loop world inv post) {resp : GenerateResponse}
    {call : ToolCall} {pending : List ToolCall}
    (holds : inv (.calls resp (call :: pending)) state) :
    Leads post (inv (.calls resp pending)) (loop.answerCall world resp call pending state) := by
  simp only [answerCall]
  split
  · split
    · next => exact outline.final _ (outline.exhausted holds)
    · next guard accepted => exact outline.guardCall_leads (outline.search holds accepted)
  · next other => exact outline.guardCall_leads (outline.other holds other)

theorem respond_leads (outline : Outline loop world inv post)
    {answer : Except CallError GenerateResponse} (holds : inv (.asked answer) state) :
    Leads post (fun next => ∃ resp,
      inv (.calls resp []) next) (loop.respond world state answer) := by
  cases answer with
  | error err => exact outline.fail holds
  | ok resp =>
    simp only [respond]
    split
    · exact outline.truncate holds
    split
    · exact outline.finish holds
    · have leads := forEach_post (fun pending => inv (.calls resp pending))
        (fun _ _ _ => outline.answerCall_leads) (outline.batch holds)
      exact leads.imp (fun _ done => done) (fun _ holds => ⟨resp, holds⟩)

theorem round_leads (outline : Outline loop world inv post) (holds : inv .round state) :
    Leads post (fun next => ∃ resp, inv (.calls resp []) next) (loop.round world state) := by
  simp only [round]
  split
  · next err _ => exact outline.context err holds
  split
  · exact outline.final _ (outline.rounds holds)
  · next guard accepted =>
      have same : world.answer (beginRound world guard state).log = world.answer state.log := by
        simp [World.answer, beginRound]
      rw [same]
      exact outline.respond_leads (outline.ask holds accepted)

theorem run_post (outline : Outline loop world inv post) {spec : ExecutionSpec} {fuel : Nat}
    (start : inv .round (loop.start spec)) (again : ∀ resp s, inv (.calls resp []) s → inv .round s)
    (done : loop.run world spec fuel = some outcome) : post outcome := by
  refine iterate_post (fun state holds => ?_) start done
  exact (outline.round_leads holds).imp (fun _ done => done)
    (fun next ⟨resp, holds⟩ => again resp next holds)

end Outline

def oneToolLoop (guardCfg : GuardConfig) : AgentLoop Unit :=
  ⟨sizeDigest, [], ["read_file"], guardCfg, [], [], fun _ => .ok ()⟩

end AgentLoop

def emptySpec : ExecutionSpec := ⟨[], [], [], [], []⟩

/-- A provider that gives these responses and then fails. -/
def World.ofResponses (responses : List GenerateResponse) : World where
  contextErr _ := none
  generate n := match responses[n]? with
    | some resp => .ok resp
    | none => .error ⟨[], 0⟩
  execute _ := .ok []
  persists _ := true

def callingTools (names : List String) : GenerateResponse :=
  ⟨⟨.assistant, [], names.map fun name => ⟨text name, text name, []⟩, []⟩, text "tool_calls",
    .zero, 1⟩

end Agent

end RepoLens
