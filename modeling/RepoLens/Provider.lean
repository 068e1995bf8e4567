import RepoLens.Runtime

/-!
The provider side of an attempt: `internal/llm` (the dispatch guard and the retrying provider),
the guard of `internal/worker/provider_dispatch.go`, and the rounds of the agent loop.
-/

namespace RepoLens

open Interleaving

/-- `llm.Provider`: a concrete client and its two wrappers. -/
inductive Provider where
  | concrete
  | retrying (delegate : Provider) (maxRetry : Nat)
  | guarded (delegate : Provider)
  deriving DecidableEq, Repr

def newRetryingProvider (delegate : Provider) (maxRetry : Nat) : Provider :=
  if maxRetry = 0 then delegate else .retrying delegate maxRetry

def guardProvider : Provider → Provider
  | .retrying delegate maxRetry => .retrying (guardProvider delegate) maxRetry
  | .concrete => .guarded .concrete
  | .guarded delegate => .guarded (.guarded delegate)

def isDefiniteHTTPResponse (err : Err) : Bool :=
  err.asHTTP.any fun statusCode => decide (100 ≤ statusCode ∧ statusCode ≤ 599)

def isDefinitelyPreDispatch (err : Err) : Bool :=
  (err.as fun
    | .preDispatch text => some text
    | _ => none).isSome

/-- A failure after which the provider has certainly done no work. -/
def definiteFailure (err : Err) : Bool :=
  isDefinitelyPreDispatch err || isDefiniteHTTPResponse err

def shouldRetryProvider (err : Err) : Bool :=
  if err.isOutcomeUnknown then false
  else match err.asHTTP with
    | some statusCode => decide (statusCode = 429 ∨ (500 ≤ statusCode ∧ statusCode ≤ 599))
    | none =>
      containsLower err.error "rate limit exceeded (429)" ||
        containsLower err.error "provider server error (5"

/-- `diagnosisProviderDispatchGuard.BeginProviderDispatch`: the marker, then the
authority check; nil if both pass. -/
def beginDispatch (execution : Execution) : Prog Err := do
  match ← (askStore (.beginProviderDispatch execution) : Prog (Except Err Unit)) with
  | .error err => pure err
  | .ok _ =>
    match ← (askStore (.checkProviderDispatchAuthority execution) : Prog (Except Err Unit)) with
    | .error err => pure err
    | .ok _ => pure .nil

def settleDispatch (execution : Execution) (callErr : Err) : Prog Err :=
  if callErr = .nil then do
    match ← (askStore (.providerDispatchSucceeded execution) : Prog (Except Err Unit)) with
    | .error err => pure (.outcomeUnknown err)
    | .ok _ => pure .nil
  else if definiteFailure callErr then do
    match ←
      (askStore (.providerDispatchFailedDefinitely execution) : Prog (Except Err Bool)) with
    | .error err => pure (.outcomeUnknown (.join "\n" callErr err))
    | .ok true => pure callErr
    -- An earlier response of this attempt is not checkpointed yet: a later
    -- definite failure does not make its work safe to repeat.
    | .ok false => pure (.outcomeUnknown callErr)
  else pure (.outcomeUnknown callErr)

def guardedGenerate (execution : Execution) (delegate : Prog Err) : Prog Err := do
  let refused ← beginDispatch execution
  if refused ≠ .nil then pure refused
  else
    let callErr ← delegate
    settleDispatch execution callErr

def retryLoop (delegate : Prog Err) : (left attempt : Nat) → Prog Err
  | 0, attempt => do
      let err ← delegate
      pure (if err = .nil then .nil else .call err attempt)
  | left + 1, attempt => do
      let err ← delegate
      if err = .nil then pure .nil
      else if shouldRetryProvider err = false then pure (.call err attempt)
      else
        let cause : Err ← ask .cause
        if cause ≠ .nil then pure (.call err attempt)
        else
          let ended : Bool ← ask .waitEnded
          if ended then pure (.call (.sentinel .contextCanceled) attempt)
          else retryLoop delegate left (attempt + 1)

/-- `Generate`; nil is a response. -/
def Provider.generate (execution : Execution) : Provider → Prog Err
  | .concrete => do
      let _ : Unit ← ask (.dispatch execution)
      let reply : ProviderReply ← ask (.receive execution)
      pure reply.err
  | .guarded delegate => guardedGenerate execution (delegate.generate execution)
  | .retrying delegate maxRetry => retryLoop (delegate.generate execution) maxRetry 1

def ExecutionResult.progressed (result : ExecutionResult) : Bool :=
  0 < result.usage.toolCalls ∨ 0 < result.usage.promptTokens ∨ 0 < result.usage.completionTokens

def loopErr (err : Err) : Err := .wrap "agent loop execution failed: " err

def executionErr (result : ExecutionResult) (err : Err) : Err :=
  .execution (loopErr err) result.progressed

def agentLoop (generate : Prog Err) : (rounds : Nat) → Prog (Option ExecutionResult × Err)
  | 0 => pure (none, loopErr (.message "agent round budget exhausted"))
  | rounds + 1 => do
      match ← (ask .agentStep : Prog AgentStep) with
      | .finish result => pure (some result, .nil)
      | .fail result failure => pure (some result, executionErr result failure.err)
      | .stop fault => pure (none, loopErr fault.err)
      | .generate =>
        let err ← generate
        if err = .nil then agentLoop generate rounds
        else
          let partialResult : ExecutionResult ← ask .agentPartial
          pure (some partialResult, executionErr partialResult err)

def executeAgent (provider : Provider) (rounds : Nat) (execution : Execution) :
    Prog (Option ExecutionResult × Err) := do
  match ← (ask .agentSetup : Prog (Option AgentFailure)) with
  | some failure => pure (none, failure.err)
  | none => agentLoop ((guardProvider provider).generate execution) rounds

end RepoLens
