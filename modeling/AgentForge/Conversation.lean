import AgentForge.EngineRules

/-! The conversation of an execution with its model, read off the calls it makes. The
memory grows by the model's answer and by one message for each tool that ran; the step
is then saved; and if the answer was cut off, the model is asked to go on, which is
written behind what was saved. Every request carries the newest messages of that memory.

The engine follows this discipline, so whatever the memory keeps, the requests have. -/
namespace AgentForge

/-- Whether a response was cut off before it called any tool. -/
def LLMResponse.truncated (response : LLMResponse) : Bool :=
  response.toolCalls.isEmpty && response.finishReason = "length"

/-- The memory of an execution as it was last saved or will be, the tool calls still to be
executed, and whether the last response was cut off. -/
structure Conversation where
  stepIdx : Int
  messages : List MemoryMessage
  pending : List ToolCall := []
  truncated : Bool := false

namespace Conversation

/-- What the memory holds when the next request is made. -/
def memory (c : Conversation) : List MemoryMessage :=
  c.messages ++ if c.truncated then [{ role := .user, content := lengthContinuePrompt }] else []

/-- The model answered: the memory was cut to its window, and the answer was added. -/
def reply (c : Conversation) (response : LLMResponse) : Conversation where
  stepIdx := c.stepIdx + 1
  messages := trimMemoryMessages c.memory maxEngineMemoryMessages ++
    [{ role := .assistant, content := response.content
       toolCalls := withCallIDs c.stepIdx response.toolCalls }]
  pending := withCallIDs c.stepIdx response.toolCalls
  truncated := response.truncated

/-- A tool answered the first of the pending calls. -/
def result (quote : String → String) (c : Conversation)
    (answer : Option (Except String ToolResult)) : Conversation :=
  match c.pending with
  | [] => c
  | tc :: rest =>
    match toolOutput quote tc.name answer with
    | none => c
    | some output =>
      { c with
        messages := c.messages ++ [{ role := .tool, toolCallID := tc.id, content := output }]
        pending := rest }

end Conversation

section Discipline

variable {F : Type}

/-- Requests carry the window of the memory, once every tool has answered; tools are
called in order; what is saved is the memory; and a step names no other memory. -/
def conversing (env : EngineEnv F) (run : Run F) :
    Discipline (EngineCall F) EngineCall.Ans Conversation where
  moves c
    | .chat _, (_, .ok response) => c.reply response
    | .executeTool .., answer => c.result env.quote answer
    | _, _ => c
  allows c
    | .chat request => c.pending = [] ∧
        request.messages = trimMemoryMessages c.memory maxEngineMemoryMessages
    | .executeTool name args => ∃ tc rest, c.pending = tc :: rest ∧ name = tc.name ∧ args = tc.args
    | .artifactPut key data => keyArea key = some 'm' →
        c.pending = [] ∧ ∃ i, data = env.encodeMemory ⟨run.runID, i, c.messages⟩
    | .putStep step => ∀ memory workspace, step.checkpointRef = some ⟨some memory, workspace⟩ →
        keyArea memory.s3Key = some 'm'
    | _ => True

end Discipline

/-! ## The engine follows it -/

section Engine

variable {F : Type} (env : EngineEnv F) (task : Task F) (run : Run F)

namespace Conversation

/-- A step without a checkpoint names no memory. -/
theorem ignores_minor (call : EngineCall F) (minor : call.Minor task run) :
    (conversing env run).Ignores call := by
  cases call with
  | putStep step =>
    refine ⟨fun _ memory workspace made => ?_, fun _ _ => rfl⟩
    cases (show step.checkpointRef = none from minor).symm.trans made
  | chat _ | executeTool _ _ | artifactPut _ _ => exact minor.elim
  | _ => exact ⟨fun _ => trivial, fun _ _ => rfl⟩

private theorem overlooks : Overlooks task run (conversing env run) :=
  .of_minor (ignores_minor env task run)

private theorem lasts (P : Conversation → Prop) :
    Lasts env task run (conversing env run) fun _ => P :=
  .of_minor (ignores_minor env task run) P

private theorem ignores_saving (saves : call.SavesAside) : (conversing env run).Ignores call := by
  cases call with
  | artifactPut key data =>
    exact ⟨fun _ area => absurd area saves, fun _ answer => rfl⟩
  | workspaceSnapshot => exact ⟨fun _ => trivial, fun _ _ => rfl⟩
  | _ => exact saves.elim

/-- The memory of a step is saved under a key of memories. -/
theorem records (c : Conversation) :
    Records env task run (conversing env run) fun checkpoint _ c' => c' = c ∧
      ∀ memory, checkpoint.memory = some memory → keyArea memory.s3Key = some 'm' := by
  refine ⟨fun _ => lasts env task run _, fun checkpoint seq step c' held => ?_,
    fun checkpoint seq step c' held made => ⟨fun memory workspace named => ?_, fun _ => rfl⟩⟩
  · exact ((Discipline.quiet_of_uses (uses_externalizeLargeStepFields ..)
      fun _ => ignores_saving env run).keeps c').mono fun _ _ same => same ▸ held
  · rw [made, Option.some.injEq] at named
    exact held.2 memory (by rw [named])

/-- The step is saved with the memory, and the loop goes on with what the memory then holds. -/
theorem ensures_finishStep (stepIdx : Int) (stepStart : Time) (response : LLMResponse)
    (calls : List ToolCall) (tools : ToolLoop) (st : LoopState F) (done : c.pending = [])
    (same : c.messages = tools.messages)
    (cut : c.truncated = (calls.isEmpty && response.finishReason = "length")) :
    (conversing env run).Ensures
      (fun c' result => ∀ st', result = .ok st' → c' = c ∧ st'.messages = c.memory)
      (finishStep env task run stepIdx stepStart response calls tools st) c := by
  refine (overlooks env task run).finish (records env task run c) _ _ _ _ _ _ ?_ ?_
  · refine ⟨fun _ => ⟨done, stepIdx, by rw [same]⟩, fun answer => ?_⟩
    cases answer with
    | error message => rintro memory ⟨⟩
    | ok stored =>
      rintro _ ⟨⟩
      refine ((Discipline.quiet_of_uses (uses_snapshotWorkspace ..)
        fun _ => ignores_saving env run).keeps c).mono fun _ _ same _ _ => ⟨same, ?_⟩
      rintro memory ⟨⟩
      exact memoryS3Key_area ..
  · rintro checkpoint _ st' ⟨rfl, -⟩ - messages
    rw [messages, memory, cut, same]
    exact ⟨rfl, rfl⟩

private theorem withCallIDs_isEmpty (stepIdx : Int) (calls : List ToolCall) :
    (withCallIDs stepIdx calls).isEmpty = calls.isEmpty := by
  cases calls <;> simp [withCallIDs, List.mapIdx_cons]

variable [Float64 F]

/-- The conversation in the course of a turn. -/
def stage (c : Conversation) : Asking → Conversation → Prop
  | .answered (.ok response), c' | .spent response, c' => c' = c.reply response
  | _, c' => c' = c

/-- One turn of the loop, from a memory to the next. -/
theorem ensures_executeStep (stepIdx : Int) (st : LoopState F) (index : c.stepIdx = stepIdx)
    (done : c.pending = []) (same : c.memory = st.messages) :
    (conversing env run).Ensures
      (fun c' result => ∀ st', result = .ok (.ok st') →
        c'.stepIdx = stepIdx + 1 ∧ c'.pending = [] ∧ c'.memory = st'.messages)
      (executeStep env task run stepIdx st) c := by
  have overlooks := overlooks env task run
  have lasts := lasts env task run
  refine overlooks.turn (fun asking _ => stage c asking) (fun asking => lasts _) ?_ ?_
    (fun response stepStart seq c' reached _ => ?_) rfl
  · rintro seq _ rfl
    refine ⟨⟨done, by rw [same]; rfl⟩, fun tokens answer => ?_⟩
    cases answer <;> rfl
  · rintro response costUSD seq _ rfl
    exact ⟨trivial, fun _ => rfl⟩
  obtain rfl : c' = c.reply response := reached
  -- the tools answer one after another, and the memory has a message for each
  refine (overlooks.tools (fun calls messages _ c' =>
    c' = { c.reply response with messages := messages, pending := calls })
    (fun _ _ => lasts _) (lasts fun _ => True) ?_ _ _ _ ?_).mono ?_
  · rintro tc calls messages seq _ rfl
    refine ⟨⟨tc, calls, rfl, rfl, rfl⟩, fun answer => ⟨trivial, fun output answered => ?_⟩⟩
    change result env.quote { c.reply response with messages, pending := tc :: calls } answer = _
    simp only [result, answered]
  · rw [reply, same, index]
    rfl
  rintro _ _ ran tools rfl
  rw [ran tools rfl]
  refine (ensures_finishStep env task run _ _ _ _ tools _ rfl rfl ?_).mono ?_
  · rw [withCallIDs_isEmpty]
    rfl
  · rintro _ result goesOn st' ended
    obtain ⟨rfl, messages⟩ := goesOn st' ended
    exact ⟨congrArg (· + 1) index, rfl, messages.symm⟩

/-- The conversation at the start of the loop: a fresh one, or the one restored. -/
def start (startStep : Int) (messages : List MemoryMessage) : Conversation where
  stepIdx := startStep
  messages := if messages.isEmpty then
      [{ role := .system, content := systemPrompt }, { role := .user, content := task.prompt }]
    else messages

theorem follows_startLoop (startStep : Int) (messages : List MemoryMessage) :
    (conversing env run).Ensures (fun _ _ => True) (startLoop env task run startStep messages)
      (start task startStep messages) := by
  refine ensures_executeLoop (fun stepIdx st c =>
    c.stepIdx = stepIdx ∧ c.pending = [] ∧ c.memory = st.messages)
    (lasts env task run fun _ => True) (fun _ _ _ _ => trivial) ?_ _ _
    ⟨rfl, rfl, List.append_nil _⟩
  rintro stepIdx st c ⟨index, done, same⟩
  exact ensures_executeStep env task run stepIdx st index done same

end Conversation

end Engine

end AgentForge
