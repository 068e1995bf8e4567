import RepoLens.AgentLoop

/-!
The message lists of the requests: each batch of tool calls is answered completely and in its
order before anything else follows, also where a budget ends a batch in its middle.
-/

namespace RepoLens

namespace Agent

open Evidence Loops AgentLoop

def Matching (calls : List ToolCall) (answers : List Message) : Prop :=
  answers.map (fun answer => (answer.role, answer.toolCallID)) = calls.map fun call =>
    (Role.tool, call.id)

/-- Messages without tool calls, and assistant messages each with the answers to all its calls right
behind it. -/
inductive Transcript : List Message → Prop where
  | empty : Transcript []
  | plain {messages : List Message} {message : Message} : Transcript messages →
      message.role ≠ .tool → message.toolCalls = [] → Transcript (messages ++ [message])
  | batch {messages answers : List Message} {message : Message} : Transcript messages →
      message.role = .assistant → Matching message.toolCalls answers →
      Transcript (messages ++ message :: answers)

def Answering (message : Message) (pending : List ToolCall) (messages : List Message) : Prop :=
  ∃ before done answers, messages = before ++ message :: answers ∧ Transcript before ∧
    message.role = .assistant ∧ message.toolCalls = done ++ pending ∧ Matching done answers

variable {pending : List ToolCall} {more : List Message}

theorem Matching.append {done : List ToolCall} {answers : List Message}
    (matching : Matching done answers) (rest : Matching pending more) :
    Matching (done ++ pending) (answers ++ more) := by
  simp only [Matching, List.map_append] at matching rest ⊢
  rw [matching, rest]

theorem matching_answers (pending : List ToolCall) (content : ToolCall → Bytes) :
    Matching pending (pending.map fun call => toolAnswer call (content call)) := by
  simp [Matching, toolAnswer]

namespace Answering

variable {message : Message} {messages : List Message}

theorem first (before : Transcript messages) (assistant : message.role = .assistant) :
    Answering message message.toolCalls (messages ++ [message]) :=
  ⟨messages, [], [], rfl, before, assistant, rfl, rfl⟩

theorem next {call : ToolCall} (content : Bytes)
    (answering : Answering message (call :: pending) messages) :
    Answering message pending (messages ++ [toolAnswer call content]) := by
  obtain ⟨before, done, answers, rfl, transcript, assistant, split, matching⟩ := answering
  refine ⟨before, done ++ [call], answers ++ [toolAnswer call content], ?_, transcript, assistant,
    ?_, ?_⟩
  · simp
  · simp [split]
  · exact matching.append (matching_answers [call] fun _ => content)

theorem complete (answering : Answering message pending messages) (rest : Matching pending more) :
    Transcript (messages ++ more) := by
  obtain ⟨before, done, answers, rfl, transcript, assistant, split, matching⟩ := answering
  rw [List.append_assoc, List.cons_append]
  exact .batch transcript assistant (split ▸ matching.append rest)

theorem all (answering : Answering message [] messages) : Transcript messages := by
  simpa using answering.complete (matching_answers [] fun _ => [])

end Answering

structure Numbered (log : List Event) (seq : Nat) : Prop where
  increasing : ((steps log).map AgentStep.seq).Pairwise (· < ·)
  below : ∀ step ∈ steps log, step.seq ≤ seq

theorem Numbered.record {world : World} {log : List Event} {seq : Nat} {step : AgentStep}
    (numbered : Numbered log seq) (number : step.seq = seq + 1) :
    Numbered (world.record log step) (seq + 1) := by
  have below := numbered.below
  simp only [World.record]
  split
  · constructor
    · simp only [steps_append, steps_cons, steps_nil, List.map_append, List.pairwise_append]
      refine ⟨numbered.increasing, by simp, ?_⟩
      simpa [number, Nat.lt_succ_iff] using below
    · intro other member
      simp only [steps_append, steps_cons, steps_nil, List.mem_append, List.mem_singleton] at member
      rcases member with earlier | rfl
      · exact Nat.le_succ_of_le (below other earlier)
      · rw [AgentStep.redacted_seq, number]
  · exact ⟨numbered.increasing, fun other member => Nat.le_succ_of_le (below other member)⟩

structure Recorded (messages : List Message) (log : List Event) (seq : Nat) : Prop where
  formed : ∀ request ∈ requests log, Transcript request.messages
  extended : ∀ request ∈ requests log, request.messages <+: messages
  ordered : (requests log).Pairwise fun one two => one.messages <+: two.messages
  numbered : Numbered log seq

namespace Recorded

variable {messages : List Message} {log : List Event} {seq : Nat}

theorem grow (recorded : Recorded messages log seq) :
    Recorded (messages ++ more) log seq where
  formed := recorded.formed
  extended := fun request sent => (recorded.extended request sent).trans (List.prefix_append _ _)
  ordered := recorded.ordered
  numbered := recorded.numbered

theorem note {event : Event} (recorded : Recorded messages log seq) (silent : requests [event] = [])
    (untraced : steps [event] = []) : Recorded messages (log ++ [event]) seq := by
  constructor
  · simpa [silent] using recorded.formed
  · simpa [silent] using recorded.extended
  · simpa [silent] using recorded.ordered
  · exact ⟨by simpa [untraced] using recorded.numbered.increasing,
      by simpa [untraced] using recorded.numbered.below⟩

theorem record {world : World} {step : AgentStep} (recorded : Recorded messages log seq)
    (number : step.seq = seq + 1) : Recorded messages (world.record log step) (seq + 1) := by
  constructor
  · simpa using recorded.formed
  · simpa using recorded.extended
  · simpa using recorded.ordered
  · exact recorded.numbered.record number

theorem ends {Report : Type} {world : World} {outcome : Outcome Report}
    (recorded : Recorded messages log seq) (ends : Ends world log seq outcome) :
    Recorded messages outcome.log (seq + 1) := by
  obtain ⟨step, number, same⟩ := ends
  rw [same]
  exact recorded.record number

theorem request (tools : List String) (maxTokens : Int) (recorded : Recorded messages log seq)
    (transcript : Transcript messages) :
    Recorded messages (log ++ [.request ⟨messages, tools, maxTokens⟩]) seq := by
  constructor
  · simpa [or_imp, forall_and] using ⟨recorded.formed, transcript⟩
  · simpa [or_imp, forall_and] using recorded.extended
  · simp only [requests_append, requests_cons, requests_nil, List.pairwise_append,
      List.pairwise_singleton]
    exact ⟨recorded.ordered, trivial, by simpa using recorded.extended⟩
  · exact ⟨by simpa using recorded.numbered.increasing,
      by simpa using recorded.numbered.below⟩

end Recorded

theorem recorded_start (messages : List Message) : Recorded messages [] 0 := by
  exact ⟨by simp, by simp, by simp, by simp, by simp⟩

def AgentLoop.Phase.next (state : LoopState) : Phase → List Message
  | .stopped messages => messages
  | _ => state.messages

def AgentLoop.Phase.Shape (messages : List Message) : Phase → Prop
  | .round => Transcript messages
  | .asked answer =>
    Transcript messages ∧ ∀ resp, answer = .ok resp → resp.message.role = .assistant
  | .calls resp pending => Answering resp.message pending messages
  | .guarded resp call pending => Answering resp.message (call :: pending) messages
  | .accepted resp call pending => Answering resp.message (call :: pending) messages
  | .stopped messages => Transcript messages

section Run

variable {Report : Type} {loop : AgentLoop Report} {world : World}

theorem outline_transcripts
    (assistant : ∀ n resp, world.generate n = .ok resp → resp.message.role = .assistant) :
    Outline loop world
      (fun phase state => phase.Shape state.messages ∧
        Recorded (phase.next state) state.log state.seq)
      (fun outcome => ∃ messages seq, Recorded messages outcome.log seq) where
  context _ := fun ⟨_, recorded⟩ => ⟨_, _, recorded⟩
  ask := fun ⟨shape, recorded⟩ _ =>
    ⟨⟨shape, fun resp answered => assistant _ resp answered⟩,
      (recorded.record rfl).request _ _ shape⟩
  rounds := fun ⟨shape, recorded⟩ => ⟨shape, recorded.note rfl rfl⟩
  fail := fun ⟨_, recorded⟩ => ⟨_, _, recorded.ends (fail_ends _ _)⟩
  truncate {s resp} := fun ⟨_, recorded⟩ =>
    ⟨_, _, recorded.ends (truncate_ends resp (s.account resp))⟩
  finish {s resp} := fun ⟨_, recorded⟩ => ⟨_, _, recorded.ends (finish_ends resp (s.account resp))⟩
  batch := fun ⟨⟨transcript, role⟩, recorded⟩ => ⟨.first transcript (role _ rfl), recorded.grow⟩
  exhausted := fun ⟨answering, recorded⟩ =>
    ⟨answering.complete (matching_answers _ _), (recorded.note rfl rfl).grow⟩
  search := fun ⟨answering, recorded⟩ _ => ⟨answering, recorded⟩
  other := fun ⟨answering, recorded⟩ _ => ⟨answering, recorded⟩
  refuse := fun ⟨answering, recorded⟩ =>
    ⟨answering.complete (matching_answers _ _), ((recorded.note rfl rfl).record rfl).grow⟩
  accept := fun ⟨answering, recorded⟩ _ => ⟨answering, (recorded.note rfl rfl).record rfl⟩
  skip := fun ⟨answering, recorded⟩ _ => ⟨answering.next _, recorded.grow⟩
  run := fun ⟨answering, recorded⟩ _ =>
    ⟨answering.next _, ((recorded.note rfl rfl).record rfl).grow⟩
  final {s messages} reason := fun ⟨transcript, recorded⟩ => by
    have asked : Recorded (messages ++ [finalizeMessage]) (loop.finalLog s.log messages) s.seq := by
      simpa [finalLog, finalizeRequest, generateRequest, Phase.next] using
        recorded.grow.request [] _ (transcript.plain (by simp [finalizeMessage]) rfl)
    exact ⟨_, _, asked.ends (finalizeOnly_ends s messages reason)⟩

/-- For any provider whose messages have the role assistant. -/
theorem run_transcripts {spec : ExecutionSpec} {fuel : Nat} {outcome : Outcome Report}
    (assistant : ∀ n resp, world.generate n = .ok resp → resp.message.role = .assistant)
    (done : loop.run world spec fuel = some outcome) :
    (∀ request ∈ requests outcome.log, Transcript request.messages) ∧
    (requests outcome.log).Pairwise (fun one two => one.messages <+: two.messages) ∧
    ((steps outcome.log).map AgentStep.seq).Pairwise (· < ·) := by
  have start : Transcript (loop.start spec).messages := by
    apply @Transcript.plain [_]
    · exact Transcript.empty.plain (by simp) rfl
    · simp
    · rfl
  obtain ⟨messages, seq, recorded⟩ := (outline_transcripts assistant).run_post
    ⟨start, recorded_start _⟩ (fun _ _ ⟨answering, recorded⟩ => ⟨answering.all, recorded⟩) done
  exact ⟨recorded.formed, recorded.ordered, recorded.numbered.increasing⟩

/-- The second request answers the two calls of the first response. -/
theorem run_transcripts_two_calls :
    ∃ outcome, (oneToolLoop ⟨3, 3, 3, 3, 0, 0⟩).run
        (.ofResponses [callingTools ["read_file", "other"]]) emptySpec 2 = some outcome ∧
      (requests outcome.log).map (·.messages.length) = [2, 5] ∧
      (∀ request ∈ requests outcome.log, Transcript request.messages) ∧
      (requests outcome.log).Pairwise (fun one two => one.messages <+: two.messages) ∧
      ((steps outcome.log).map AgentStep.seq).Pairwise (· < ·) := by
  have assistant : ∀ n resp,
      (World.ofResponses [callingTools ["read_file", "other"]]).generate n = .ok resp →
      resp.message.role = .assistant := by
    intro n resp answered
    cases n <;> simp [World.ofResponses] at answered
    exact answered ▸ rfl
  have ends : ((oneToolLoop ⟨3, 3, 3, 3, 0, 0⟩).run
      (.ofResponses [callingTools ["read_file", "other"]]) emptySpec 2).isSome := by decide +kernel
  obtain ⟨outcome, done⟩ := Option.isSome_iff_exists.mp ends
  refine ⟨outcome, done, ?_, run_transcripts assistant done⟩
  have lengths : ((oneToolLoop ⟨3, 3, 3, 3, 0, 0⟩).run
      (.ofResponses [callingTools ["read_file", "other"]]) emptySpec 2).map
        (fun outcome => (requests outcome.log).map (·.messages.length)) = some [2, 5] := by
    decide +kernel
  simpa [done] using lengths

end Run

def notices : List Bytes :=
  [text "Tool was not executed: search_code budget exhausted",
    text "Tool was not executed: tool budget exhausted",
    text ("\x7b\"error\":\"TOOL_RESULT_TOO_LARGE\",\"message\":\"tool output exceeded the " ++
      "configured limit; narrow the file range or search query\"\x7d"),
    text "Tool output exceeded the configured limit; narrow the request."]

def GuardConfig.resultLimit (cfg : GuardConfig) : Int :=
  if cfg.maxToolResultBytes ≤ 0 then 32 * 1024 else cfg.maxToolResultBytes

def Filtered (limit : Int) (content : Bytes) : Prop :=
  (∃ original, content = redactSecrets original) ∧ (content.length : Int) ≤ limit

def Contained (limit : Int) (message : Message) : Prop :=
  message.role = .tool → message.content ∈ notices ∨ Filtered limit message.content

theorem toolMessage_resultLimit (cfg : GuardConfig) (tool : String) (result : Bytes) :
    toolMessage tool result cfg.maxToolResultBytes =
      boundToolResult tool (redactSecrets result) cfg.resultLimit := rfl

theorem boundToolResult_cases (tool : String) (result : Bytes) {limit : Int} (set : 0 < limit) :
    boundToolResult tool result limit ∈ notices ∨
      boundToolResult tool result limit = result ∧ (result.length : Int) ≤ limit := by
  simp only [boundToolResult]
  split
  · exact .inr ⟨rfl, by omega⟩
  · left
    split <;> simp [notices, text]

theorem toolContent_contained {Report : Type} (loop : AgentLoop Report) (world : World)
    (tool : String)
    (log : List Event) : loop.toolContent world tool log ∈ notices ∨
      Filtered loop.guardCfg.resultLimit (loop.toolContent world tool log) := by
  have set : 0 < loop.guardCfg.resultLimit := by
    simp only [GuardConfig.resultLimit]
    split <;> omega
  rw [toolContent, toolMessage_resultLimit]
  rcases boundToolResult_cases tool _ set with notice | ⟨same, fits⟩
  · exact .inl notice
  · refine .inr ⟨⟨_, same⟩, ?_⟩
    rw [same]
    exact fits

section Contents

variable {Report : Type} (loop : AgentLoop Report)

def Answerable (call : ToolCall) : Prop :=
  loop.get call.name = none → Filtered loop.guardCfg.resultLimit (notRegistered call.name)

structure Harmless (message : Message) : Prop where
  contained : Contained loop.guardCfg.resultLimit message
  answerable : ∀ call ∈ message.toolCalls, Answerable loop call

def AgentLoop.Phase.Harmless : Phase → Prop
  | .asked answer => ∀ resp, answer = .ok resp → Agent.Harmless loop resp.message
  | .calls _ pending => ∀ call ∈ pending, Answerable loop call
  | .guarded _ call pending => ∀ other ∈ call :: pending, Answerable loop other
  | .accepted _ call pending => ∀ other ∈ call :: pending, Answerable loop other
  | _ => True

structure Sound (messages : List Message) (log : List Event) : Prop where
  sent : ∀ request ∈ requests log, ∀ message ∈ request.messages,
    Contained loop.guardCfg.resultLimit message
  held : ∀ message ∈ messages, Contained loop.guardCfg.resultLimit message

variable {loop}

namespace Sound

variable {messages : List Message} {log later : List Event}

theorem quiet (sound : Sound loop messages log) (same : requests later = requests log) :
    Sound loop messages later where
  sent := same ▸ sound.sent
  held := sound.held

theorem append (sound : Sound loop messages log)
    (contained : ∀ message ∈ more, Contained loop.guardCfg.resultLimit message) :
    Sound loop (messages ++ more) log where
  sent := sound.sent
  held := by simpa [or_imp, forall_and] using ⟨sound.held, contained⟩

theorem request (sound : Sound loop messages log) (tools : List String) (maxTokens : Int) :
    Sound loop messages (log ++ [.request ⟨messages, tools, maxTokens⟩]) where
  sent := by
    simpa [or_imp, forall_and] using ⟨sound.sent, sound.held⟩
  held := sound.held

end Sound

theorem contained_of_notice {message : Message} (limit : Int) (notice : message.content ∈ notices) :
    Contained limit message := fun _ => .inl notice

theorem contained_notices (pending : List ToolCall) {reason : String} (limit : Int)
    (notice : text ("Tool was not executed: " ++ reason) ∈ notices) :
    ∀ message ∈ pending.map fun call =>
      toolAnswer call (text ("Tool was not executed: " ++ reason)),
      Contained limit message := by
  intro message member
  obtain ⟨call, _, rfl⟩ := List.mem_map.mp member
  exact contained_of_notice limit notice

variable {world : World}

/-- For a run of at most `count` requests, of which only the answers to these matter. -/
theorem outline_contents (count : Nat)
    (harmless : ∀ n < count, ∀ resp, world.generate n = .ok resp → Harmless loop resp.message) :
    Outline loop world
      (fun phase state => (requests state.log).length ≤ count →
        phase.Harmless loop ∧ Sound loop (phase.next state) state.log)
      (fun outcome => (requests outcome.log).length ≤ count →
        ∃ messages, Sound loop messages outcome.log) where
  context _ holds few := ⟨_, (holds few).2⟩
  ask {s guard} holds _ few := by
    have more : (requests s.log).length < count := by
      simpa [AgentLoop.ask, beginRound] using few
    exact ⟨fun resp answered => harmless _ more resp answered,
      ((holds more.le).2.quiet (requests_record _ _)).request _ _⟩
  rounds holds few := ⟨trivial, (holds (by simpa using few)).2.quiet (by simp)⟩
  fail {s err} holds few := by
    have same : requests (AgentLoop.fail world err s : Outcome Report).log = requests s.log :=
      (fail_ends err s).requests_eq
    exact ⟨_, (holds (same ▸ few)).2.quiet same⟩
  truncate {s resp} holds few := by
    have same : requests (loop.truncate world resp (s.account resp)).log = requests s.log :=
      (truncate_ends resp (s.account resp)).requests_eq
    exact ⟨_, (holds (same ▸ few)).2.quiet same⟩
  finish {s resp} holds few := by
    have same : requests (loop.finish world resp (s.account resp)).log = requests s.log :=
      (finish_ends resp (s.account resp)).requests_eq
    exact ⟨_, (holds (same ▸ few)).2.quiet same⟩
  batch holds few := by
    obtain ⟨answer, sound⟩ := holds few
    exact ⟨(answer _ rfl).answerable, sound.append (by simpa using (answer _ rfl).contained)⟩
  exhausted holds few := by
    obtain ⟨-, sound⟩ := holds (by simpa [LoopState.countSearch] using few)
    exact ⟨trivial, (sound.quiet (by simp [LoopState.countSearch])).append
      (contained_notices _ _ (by simp [notices]))⟩
  search holds _ few := holds few
  other holds _ few := holds few
  refuse holds few := by
    obtain ⟨-, sound⟩ := holds (by simpa [refuseCall, LoopState.countCall] using few)
    exact ⟨trivial, (sound.quiet (by simp [refuseCall, LoopState.countCall])).append
      (contained_notices _ _ (by simp [notices]))⟩
  accept holds _ few := by
    obtain ⟨pending, sound⟩ := holds (by simpa [acceptCall, LoopState.countCall] using few)
    exact ⟨pending, sound.quiet (by simp [acceptCall, LoopState.countCall])⟩
  skip holds unknown few := by
    obtain ⟨pending, sound⟩ := holds few
    obtain ⟨first, rest⟩ := List.forall_mem_cons.mp pending
    exact ⟨rest, sound.append (List.forall_mem_singleton.mpr fun _ => .inr (first unknown))⟩
  run holds _ few := by
    obtain ⟨pending, sound⟩ := holds (by simpa [runCall] using few)
    obtain ⟨-, rest⟩ := List.forall_mem_cons.mp pending
    exact ⟨rest, (sound.quiet (by simp [runCall])).append
      (List.forall_mem_singleton.mpr fun _ => toolContent_contained _ _ _ _)⟩
  final {s messages} reason holds few := by
    have same : requests (loop.finalizeOnly world s messages reason).log =
        requests (loop.finalLog s.log messages) := (finalizeOnly_ends s messages reason).requests_eq
    have fewer : (requests s.log).length ≤ count := by
      rw [same, finalLog, requests_append, List.length_append] at few
      omega
    have sound := (holds fewer).2
    have asked : Sound loop (messages ++ [finalizeMessage]) (loop.finalLog s.log messages) := by
      have contained : Contained loop.guardCfg.resultLimit finalizeMessage := by
        simp [Contained, finalizeMessage]
      simpa [finalLog, finalizeRequest, generateRequest, Phase.next] using
        (sound.append (List.forall_mem_singleton.mpr contained)).request []
          loop.guardCfg.maxOutputTokens
    exact ⟨_, asked.quiet same⟩

/-- In every run whose responses are all harmless. -/
theorem run_tool_messages_filtered {spec : ExecutionSpec} {fuel : Nat} {outcome : Outcome Report}
    (done : loop.run world spec fuel = some outcome)
    (harmless : ∀ resp, .ok resp ∈ answers world outcome.log → Harmless loop resp.message) :
    ∀ request ∈ requests outcome.log, ∀ message ∈ request.messages, message.role = .tool →
      message.content ∈ notices ∨ Filtered loop.guardCfg.resultLimit message.content := by
  have start : Sound loop (loop.start spec).messages (loop.start spec).log := by
    constructor <;> simp [AgentLoop.start, Contained]
  have given : ∀ n < (requests outcome.log).length, ∀ resp, world.generate n = .ok resp →
      Harmless loop resp.message := fun n few resp answered =>
    harmless resp (List.mem_map.mpr ⟨n, List.mem_range.mpr few, answered⟩)
  obtain ⟨messages, sound⟩ := (outline_contents _ given).run_post (fun _ => ⟨trivial, start⟩)
    (fun _ _ holds few => ⟨trivial, (holds few).2⟩) done le_rfl
  exact sound.sent

end Contents

/-- A registered tool is called once. -/
theorem run_tool_messages_filtered_read :
    ∃ outcome, (oneToolLoop ⟨3, 3, 3, 3, 0, 0⟩).run (.ofResponses [callingTools ["read_file"]])
        emptySpec 2 = some outcome ∧
      (requests outcome.log).map (·.messages.length) = [2, 4] ∧
      ∀ request ∈ requests outcome.log, ∀ message ∈ request.messages, message.role = .tool →
        message.content ∈ notices ∨ Filtered 32768 message.content := by
  have known : (oneToolLoop ⟨3, 3, 3, 3, 0, 0⟩).get (text "read_file") = some "read_file" := by
    decide
  have shape : ((oneToolLoop ⟨3, 3, 3, 3, 0, 0⟩).run (.ofResponses [callingTools ["read_file"]])
      emptySpec 2).map (fun outcome => (requests outcome.log).map (·.messages.length)) =
        some [2, 4] := by decide +kernel
  obtain ⟨outcome, done, lengths⟩ := Option.map_eq_some_iff.mp shape
  refine ⟨outcome, done, lengths, run_tool_messages_filtered done fun resp answered => ?_⟩
  obtain ⟨n, -, answered⟩ := List.mem_map.mp answered
  cases n <;> simp [World.ofResponses] at answered
  subst answered
  constructor <;> simp [callingTools, Contained, Answerable, known]

/-- An unknown tool is answered with a text beyond the limit. -/
theorem run_unknown_tool_unbounded :
    ∃ outcome, (oneToolLoop ⟨3, 3, 3, 3, 16, 0⟩).run (.ofResponses [callingTools ["execute_shell"]])
        emptySpec 2 = some outcome ∧
      ∃ request ∈ requests outcome.log, ∃ message ∈ request.messages, message.role = .tool ∧
        message.content = text "Error: tool execute_shell not registered" ∧
        ¬(message.content ∈ notices ∨ Filtered 16 message.content) := by
  have answer : ((oneToolLoop ⟨3, 3, 3, 3, 16, 0⟩).run
      (.ofResponses [callingTools ["execute_shell"]]) emptySpec 2).map
        (fun outcome => (requests outcome.log)[1]?.bind (·.messages[3]?)) =
      some (some (toolAnswer ⟨text "execute_shell", text "execute_shell", []⟩
        (text "Error: tool execute_shell not registered"))) := by decide +kernel
  obtain ⟨outcome, done, sent⟩ := Option.map_eq_some_iff.mp answer
  obtain ⟨request, second, last⟩ := Option.bind_eq_some_iff.mp sent
  refine ⟨outcome, done, request, List.mem_of_getElem? second, _, List.mem_of_getElem? last, rfl,
    rfl, ?_⟩
  rintro (notice | ⟨_, fits⟩)
  · revert notice
    decide +kernel
  · revert fits
    decide +kernel

end Agent

end RepoLens
