import AgentForge.MemoryStore
import AgentForge.Program

/-! `pkg/engine/engine.go`: `Engine.Execute` and what it calls, together with
the checkpoints of `pkg/memory/snapshot.go` and
`pkg/engine/workspace_snapshot.go`.

`Execute` is a program over the calls it makes on the store, the artifact
store, the workspace, the model, the tools and the clock. What those answer is
decided where the program is run, so every property of the program is a
property for every model, tool and failure. -/
namespace AgentForge

/-! ## What the engine talks to -/

structure ToolSpec where
  name : String
  description : String
  parameters : String
  deriving DecidableEq

structure LLMRequest (F : Type) where
  messages : List MemoryMessage
  modelConfig : Option (ModelConfig F)
  tools : List ToolSpec
  taskType : String

structure LLMResponse where
  content : String
  toolCalls : List ToolCall
  tokenUsage : Option TokenUsage
  finishReason : String
  modelID : String
  provider : String

structure ToolResult where
  output : String
  error : String

/-- One push to a connection: given up because the context is done, or carried
out, telling whether the connection is still alive. -/
inductive PushOutcome where
  | cancelled
  | pushed (alive : Bool)

/-- The calls of `Execute`. Errors of the model, the tools, the workspace and
the artifact store are their texts. -/
inductive EngineCall (F : Type) where
  | now
  | contextDone
  | getStep (runID : String) (stepIndex : Int)
  | isAbortRequested (taskID : String)
  | putStep (step : Step)
  | updateLastStepIndex (taskID runID : String) (stepIndex : Int)
  | addRunUsage (taskID runID : String) (usage : Option TokenUsage) (costUSD : F)
  | putEvent (event : StreamEvent F)
  | getConnectionsByTask (taskID : String)
  | push (connectionID : String) (event : StreamEvent F)
  | deleteConnection (connectionID : String)
  | artifactPut (key : String) (data : Bytes)
  | artifactGet (key : String)
  | workspaceSnapshot
  | workspaceRestore (data : Bytes)
  | chat (request : LLMRequest F)
  | executeTool (name args : String)

/-- What each call answers. A model that streams answers with its tokens first;
a tool that is not registered answers `none`. -/
def EngineCall.Ans {F : Type} : EngineCall F → Type
  | .now => Time
  | .contextDone => Bool
  | .getStep .. => Except StoreError Step
  | .isAbortRequested .. => Except StoreError (Bool × String)
  | .putStep .. | .updateLastStepIndex .. | .addRunUsage .. | .putEvent .. | .deleteConnection .. =>
    Except StoreError Unit
  | .getConnectionsByTask .. => Except StoreError (List Connection)
  | .push .. => PushOutcome
  | .artifactPut .. => Except String (String × Int)
  | .artifactGet .. | .workspaceSnapshot => Except String Bytes
  | .workspaceRestore .. => Except String Unit
  | .chat .. => List String × Except String LLMResponse
  | .executeTool .. => Option (Except String ToolResult)

/-- A program of the engine. -/
abbrev EngineProg (F α : Type) := Prog (EngineCall F) EngineCall.Ans α

/-! Each call as a program, at the type of its answer. -/
namespace Host

variable {F : Type}

def now : EngineProg F Time := .call .now .ret

def contextDone : EngineProg F Bool := .call .contextDone .ret

def getStep (runID : String) (stepIndex : Int) : EngineProg F (Except StoreError Step) :=
  .call (.getStep runID stepIndex) .ret

def isAbortRequested (taskID : String) : EngineProg F (Except StoreError (Bool × String)) :=
  .call (.isAbortRequested taskID) .ret

def putStep (step : Step) : EngineProg F (Except StoreError Unit) := .call (.putStep step) .ret

def updateLastStepIndex (taskID runID : String) (stepIndex : Int) :
    EngineProg F (Except StoreError Unit) :=
  .call (.updateLastStepIndex taskID runID stepIndex) .ret

def addRunUsage (taskID runID : String) (usage : Option TokenUsage) (costUSD : F) :
    EngineProg F (Except StoreError Unit) :=
  .call (.addRunUsage taskID runID usage costUSD) .ret

def putEvent (event : StreamEvent F) : EngineProg F (Except StoreError Unit) :=
  .call (.putEvent event) .ret

def getConnectionsByTask (taskID : String) : EngineProg F (Except StoreError (List Connection)) :=
  .call (.getConnectionsByTask taskID) .ret

def push (connectionID : String) (event : StreamEvent F) : EngineProg F PushOutcome :=
  .call (.push connectionID event) .ret

def deleteConnection (connectionID : String) : EngineProg F (Except StoreError Unit) :=
  .call (.deleteConnection connectionID) .ret

def artifactPut (key : String) (data : Bytes) : EngineProg F (Except String (String × Int)) :=
  .call (.artifactPut key data) .ret

def artifactGet (key : String) : EngineProg F (Except String Bytes) := .call (.artifactGet key) .ret

def workspaceSnapshot : EngineProg F (Except String Bytes) := .call .workspaceSnapshot .ret

def workspaceRestore (data : Bytes) : EngineProg F (Except String Unit) :=
  .call (.workspaceRestore data) .ret

def chat (request : LLMRequest F) : EngineProg F (List String × Except String LLMResponse) :=
  .call (.chat request) .ret

def executeTool (name args : String) : EngineProg F (Option (Except String ToolResult)) :=
  .call (.executeTool name args) .ret

end Host

/-- `promptpolicy.Policy`. -/
structure PromptPolicy where
  maxChars : Int := 16000
  denyList : List String := []

inductive PromptError where
  | tooLong | denied
  deriving DecidableEq

/-- What `Execute` is configured with, and the library functions it depends on
whose tables are not part of the code: case mapping, quoting, JSON, gzip,
SHA-256 and the redaction of secrets in event texts. -/
structure EngineEnv (F : Type) where
  maxSteps : Int
  policy : PromptPolicy
  lower : Char → Char
  quote : String → String
  toolSpecs : List ToolSpec
  hasPusher : Bool
  pricingOverrides : List (String × F)
  sanitizeEventText : String → String
  encodeMemory : MemorySnapshot → Bytes
  decodeMemory : Bytes → Option MemorySnapshot
  encodeToolOutputs : List (String × String × String) → String
  encodeExternalized : (field : String) → ArtifactRef → (originalBytes : Nat) → String
  sha256 : Bytes → String

/-- `promptpolicy.Validate`. -/
def PromptPolicy.validate (lower : Char → Char) (prompt : String) (p : PromptPolicy) :
    Except PromptError Unit :=
  if 0 < p.maxChars ∧ p.maxChars < prompt.toList.length then .error .tooLong
  else if p.denyList.any fun token => GoText.contains (GoText.toLower lower prompt) token then
    .error .denied
  else .ok ()

/-! ## Checkpoints -/

/-- `memory.S3Key`. -/
def memoryS3Key (tenantID taskID runID : String) (stepIndex : Int) : String :=
  "memory/" ++ tenantID ++ "/" ++ taskID ++ "/" ++ runID ++ "/step_" ++
    GoText.padded 8 stepIndex ++ ".json.gz"

/-- `WorkspaceS3Key`. -/
def workspaceS3Key (tenantID taskID runID : String) (stepIndex : Int) : String :=
  "workspaces/" ++ tenantID ++ "/" ++ taskID ++ "/" ++ runID ++ "/step_" ++
    GoText.padded 8 stepIndex ++ ".tar.gz"

/-- `StepFieldS3Key`. -/
def stepFieldS3Key (tenantID taskID runID : String) (stepIndex : Int) (field : String) : String :=
  "steps/" ++ tenantID ++ "/" ++ taskID ++ "/" ++ runID ++ "/step_" ++
    GoText.padded 8 stepIndex ++ "_" ++ field ++ ".txt"

/-- Why a checkpoint blob was not accepted. -/
inductive SnapshotError where
  | get (message : String)
  | sizeMismatch (expected got : Int)
  | sha256Mismatch (expected got : String)
  | decode (message : String)
  deriving DecidableEq

/-- The integrity check `Snapshotter.Load` and `RestoreWorkspace` both make on
the bytes they read back. -/
def checkIntegrity (sha256 : Bytes → String) (ref : ArtifactRef) (raw : Bytes) :
    Except SnapshotError Unit :=
  if 0 < ref.size ∧ (raw.length : Int) ≠ ref.size then .error (.sizeMismatch ref.size raw.length)
  else if ref.sha256 ≠ "" ∧ sha256 raw ≠ ref.sha256 then
    .error (.sha256Mismatch ref.sha256 (sha256 raw))
  else .ok ()

section Program

variable {F : Type} (env : EngineEnv F) (task : Task F) (run : Run F)

/-- Read a checkpoint blob back and check it. -/
def loadSnapshot (ref : ArtifactRef) : EngineProg F (Except SnapshotError Bytes) := do
  match ← Host.artifactGet ref.s3Key with
  | .error message => return .error (.get message)
  | .ok raw =>
    match checkIntegrity env.sha256 ref raw with
    | .error e => return .error e
    | .ok () => return .ok raw

/-- `Snapshotter.Save`. -/
def saveMemory (mem : MemorySnapshot) : EngineProg F (Except String ArtifactRef) := do
  let key := memoryS3Key task.tenantID task.taskID mem.runID mem.stepIndex
  match ← Host.artifactPut key (env.encodeMemory mem) with
  | .error message => return .error ("memory: put: " ++ message)
  | .ok (sha, size) => return .ok ⟨key, sha, size⟩

/-- `Snapshotter.Load`. -/
def loadMemory (ref : ArtifactRef) : EngineProg F (Except SnapshotError MemorySnapshot) := do
  match ← loadSnapshot env ref with
  | .error e => return .error e
  | .ok raw =>
    match env.decodeMemory raw with
    | none => return .error (.decode "memory: unmarshal")
    | some mem => return .ok mem

/-- `SnapshotWorkspace`. -/
def snapshotWorkspace (stepIndex : Int) : EngineProg F (Except String ArtifactRef) := do
  match ← Host.workspaceSnapshot with
  | .error message => return .error ("snapshot workspace: " ++ message)
  | .ok data =>
    let key := workspaceS3Key task.tenantID task.taskID run.runID stepIndex
    match ← Host.artifactPut key data with
    | .error message => return .error ("put workspace snapshot: " ++ message)
    | .ok (sha, size) => return .ok ⟨key, sha, size⟩

/-- `RestoreWorkspace`. -/
def restoreWorkspace (ref : ArtifactRef) : EngineProg F (Except SnapshotError Unit) := do
  match ← loadSnapshot env ref with
  | .error e => return .error e
  | .ok raw =>
    match ← Host.workspaceRestore raw with
    | .error message => return .error (.decode message)
    | .ok () => return .ok ()

def maxInlineStepFieldBytes : Nat := 128 * 1024
def externalizedStepFieldTag : String := "[EXTERNALIZED_STEP_FIELD]"

/-- `externalizeStepField`: a field too long for the step record is stored as an
artifact and replaced by a tagged reference to it. -/
def externalizeStepField (stepIndex : Int) (field value : String) :
    EngineProg F (Except String String) := do
  if value.utf8ByteSize ≤ maxInlineStepFieldBytes then return .ok value
  let key := stepFieldS3Key task.tenantID task.taskID run.runID stepIndex field
  match ← Host.artifactPut key value.toUTF8.toList with
  | .error message => return .error ("externalize step " ++ field ++ " field: " ++ message)
  | .ok (sha, size) =>
    return .ok (externalizedStepFieldTag ++
      env.encodeExternalized field ⟨key, sha, size⟩ value.utf8ByteSize)

/-- `externalizeLargeStepFields`. -/
def externalizeLargeStepFields (step : Step) : EngineProg F (Except String Step) := do
  match ← externalizeStepField env task run step.stepIndex "input" step.input with
  | .error message => return .error message
  | .ok input =>
    match ← externalizeStepField env task run step.stepIndex "output" step.output with
    | .error message => return .error message
    | .ok output => return .ok { step with input := input, output := output }

/-! ## Events -/

/-- `sanitizeEventData`: the fields that carry tool arguments, tool output or
the final answer have their text sanitized. -/
def sanitizeEventData (type : StreamEventType) (data : EventData F) : EventData F :=
  let field := match type with
    | .toolCall => some "args"
    | .toolResult => some "output"
    | .complete => some "final_answer"
    | _ => none
  data.map fun (name, value) =>
    match value with
    | .text text => (name, .text (if field = some name then env.sanitizeEventText text else text))
    | other => (name, other)

/-- The dispatch loop of `pushEvent`: the connections found dead, until the
context is done. -/
def pushTargets (event : StreamEvent F) : List Connection → List String → EngineProg F (List String)
  | [], stale => return stale
  | conn :: rest, stale => do
    match ← Host.push conn.connectionID event with
    | .cancelled => return stale
    | .pushed true => pushTargets event rest stale
    | .pushed false => pushTargets event rest (stale ++ [conn.connectionID])

/-- Dead connections are removed; a failure to remove one is only logged. -/
def deleteConnections : List String → EngineProg F Unit
  | [] => return ()
  | connectionID :: rest => do
    let _ ← Host.deleteConnection connectionID
    deleteConnections rest

/-- `pushEvent`, returning the sequence counter it leaves. -/
def pushEvent (eventSeq : Int) (type : StreamEventType) (data : EventData F) :
    EngineProg F Int := do
  if !env.hasPusher then return eventSeq
  let seq := eventSeq + 1
  let now ← Host.now
  let event : StreamEvent F :=
    ⟨task.taskID, run.runID, seq, unix now, type, sanitizeEventData env type data⟩
  let _ ← Host.putEvent event
  match ← Host.getConnectionsByTask task.taskID with
  | .error _ => return seq
  | .ok conns =>
    let targets := conns.filter fun conn => task.tenantID = "" || conn.tenantID = task.tenantID
    let stale ← pushTargets event targets []
    deleteConnections stale.eraseDups
    return seq

/-! ## The loop -/

/-- `RunResult`. Every result of `Execute` has a terminal status. -/
structure RunResult (F : Type) where
  status : TerminalStatus
  lastStep : Int
  errorMessage : String := ""
  totalTokens : Int64
  totalCostUSD : F

/-- The errors `Execute` itself returns. -/
inductive EngineError where
  | loadCheckpointStep (e : StoreError)
  | restoreMemory (e : SnapshotError)
  | restoreWorkspace (e : SnapshotError)
  | checkAbort (e : StoreError)

/-- What the loop carries from one step to the next. -/
structure LoopState (F : Type) where
  messages : List MemoryMessage
  totalTokens : Int64
  totalCost : F
  consecutiveLengthStops : Nat
  eventSeq : Int

/-- `Duration.Milliseconds`, which truncates towards zero. -/
def milliseconds (d : Int) : Int := d.tdiv 1000000

/-- `writeErrorStep`; a failure to write it is only logged. -/
def writeErrorStep (stepIdx : Int) (start : Time) (errorCode message : String) :
    EngineProg F Unit := do
  let now ← Host.now
  let _ ← Host.putStep {
    runID := run.runID, stepIndex := stepIdx, type := .llmCall, status := .error
    tsStart := start, tsEnd := now, latencyMS := milliseconds (now - start)
    errorCode := if errorCode = "" then "STEP_ERROR" else errorCode, errorMessage := message }
  return ()

def maxEngineMemoryMessages : Nat := 64
def maxConsecutiveLengthStops : Nat := 3
def lengthContinuePrompt : String :=
  "Your previous response was truncated due to length. Continue exactly from where you " ++
  "stopped, without repeating prior content."

/-- `trimMemoryMessages`: a leading system message and the newest others. -/
def trimMemoryMessages (messages : List MemoryMessage) (limit : Nat) : List MemoryMessage :=
  if limit = 0 ∨ messages.length ≤ limit then messages
  else
    let keepHead := match messages.head? with
      | some first => if first.role = .system then 1 else 0
      | none => 0
    let tailBudget := limit - keepHead
    if tailBudget = 0 then messages.take keepHead
    else
      let start := max (messages.length - tailBudget) keepHead
      messages.take keepHead ++ messages.drop start

/-- `classifyTaskPrompt`. -/
def classifyTaskPrompt (prompt : String) : String :=
  let p := GoText.toLower env.lower prompt
  let has := fun sub => GoText.contains p sub
  if has "code" || has "bug" || has "test" || has "refactor" then "coding"
  else if has "analy" || has "report" || has "sql" || has "metric" then "analysis"
  else if has "summar" || has "rewrite" || has "translate" then "writing"
  else "general"

/-- The tool calls of a response, each with an id. -/
def withCallIDs (stepIdx : Int) (calls : List ToolCall) : List ToolCall :=
  calls.mapIdx fun idx tc =>
    if tc.id = "" then
      { tc with id := "call_" ++ GoText.decimal stepIdx ++ "_" ++ GoText.decimal idx }
    else tc

/-- What the tool loop of one step has gathered. -/
structure ToolLoop where
  messages : List MemoryMessage
  outputs : List (String × String × String) := []
  output : String := ""
  eventSeq : Int

section Arithmetic

variable [Float64 F]

/-- `defaultUsageModelPricingUSDPer1K`. -/
def defaultUsageModelPricingUSDPer1K : List (String × F) :=
  [("gpt-4o-mini", Float64.lit (35 / 100000)), ("gpt-4o", Float64.lit (5 / 1000)),
   ("gpt-4.1", Float64.lit (6 / 1000)), ("claude-3-haiku", Float64.lit (8 / 10000)),
   ("claude-3-sonnet", Float64.lit (3 / 1000)), ("claude-3-opus", Float64.lit (15 / 1000))]

/-- `resolveModelRateUSDPer1K`: the override, else the default for the model, else
the default for `gpt-4o-mini`, which no override changes. -/
def resolveModelRateUSDPer1K (modelID : String) : F :=
  let model := GoText.toLower env.lower (GoText.trimSpace modelID)
  let rates := env.pricingOverrides ++ defaultUsageModelPricingUSDPer1K
  (if model = "" then none else rates.lookup model).getD (Float64.lit (35 / 100000))

/-- `EstimateUsageCostUSD`. -/
def estimateUsageCostUSD (modelID : String) (usage : Option TokenUsage) : F :=
  match usage with
  | none => Float64.lit 0
  | some u =>
    if u.total ≤ 0 then Float64.lit 0
    else
      Float64.mul (Float64.div (Float64.ofInt u.total.toInt) (Float64.lit 1000))
        (resolveModelRateUSDPer1K env modelID)

/-- `checkBudgetExceeded`: the code and message of the cap that is passed. -/
def checkBudgetExceeded (cfg : Option (ModelConfig F)) (totalTokens : Int64) (totalCostUSD : F) :
    Option (String × String) :=
  match cfg with
  | none => none
  | some cfg =>
    if 0 < cfg.maxTokens ∧ cfg.maxTokens < totalTokens then
      some ("TOKEN_CAP_EXCEEDED", "token cap exceeded: total_tokens=" ++
        GoText.decimal totalTokens.toInt ++ " cap=" ++ GoText.decimal cfg.maxTokens.toInt)
    else if Float64.lt (Float64.lit 0) cfg.costCapUSD &&
        Float64.lt (Float64.add cfg.costCapUSD (Float64.lit (1 / 1000000000))) totalCostUSD then
      some ("COST_CAP_EXCEEDED", "cost cap exceeded: total_cost_usd=" ++
        Float64.fmt6 totalCostUSD ++ " cap_usd=" ++ Float64.fmt6 cfg.costCapUSD)
    else none

/-- A result in the middle of the loop. -/
def LoopState.result {F : Type} (st : LoopState F) (status : TerminalStatus) (lastStep : Int)
    (errorMessage : String) : RunResult F :=
  ⟨status, lastStep, errorMessage, st.totalTokens, st.totalCost⟩

abbrev failedStatus : TerminalStatus := ⟨.failed, rfl⟩
abbrev succeededStatus : TerminalStatus := ⟨.succeeded, rfl⟩
abbrev abortedStatus : TerminalStatus := ⟨.aborted, rfl⟩

/-- The result of a step that could not be persisted. A conflict is not one: the
step was already written. -/
def LoopState.writeStepFailed {F : Type} (st : LoopState F) (stepIdx : Int) (e : StoreError) :
    RunResult F :=
  st.result failedStatus stepIdx ("write step failed: " ++ e.text)

/-- The tool loop of one step: each call in order, until one cannot be executed
at all, which ends the run with the result given. -/
def executeTools (stepIdx : Int) (stepStart : Time) (st : LoopState F) :
    List ToolCall → ToolLoop → EngineProg F (Except (RunResult F) ToolLoop)
  | [], acc => return .ok acc
  | tc :: rest, acc => do
    let seq ← pushEvent env task run acc.eventSeq .toolCall
      [("tool", .text tc.name), ("args", .text tc.args)]
    let finish := fun (output : String) => do
      let seq ← pushEvent env task run seq .toolResult
        [("tool", .text tc.name), ("output", .text output)]
      executeTools stepIdx stepStart st rest {
        messages := acc.messages ++ [{ role := .tool, toolCallID := tc.id, content := output }]
        outputs := acc.outputs ++ [(tc.name, tc.id, output)]
        output := output, eventSeq := seq }
    match ← Host.executeTool tc.name tc.args with
    | none => finish ("error: unknown tool " ++ env.quote tc.name)
    | some (.error message) =>
      writeErrorStep run stepIdx stepStart "TOOL_EXEC_ERROR" message
      let _ ← pushEvent env task run seq .error [("error_code", .text "TOOL_EXEC_ERROR"),
        ("tool", .text tc.name), ("message", .text message)]
      return .error (st.result failedStatus stepIdx
        ("tool " ++ tc.name ++ " execution failed: " ++ message))
    | some (.ok result) =>
      finish (if result.error ≠ "" then "error: " ++ result.error else result.output)

/-- The end of a step whose response is a final answer: the final step is
written with the checkpoint of the step before it. -/
def writeFinalStep (stepIdx : Int) (stepEnd : Time) (content : String) (checkpoint : CheckpointRef)
    (st : LoopState F) : EngineProg F (RunResult F) := do
  match ← externalizeLargeStepFields env task run {
      runID := run.runID, stepIndex := stepIdx + 1, type := .final, status := .ok
      input := content, tsStart := stepEnd, tsEnd := stepEnd, checkpointRef := some checkpoint } with
  | .error message =>
    return st.result failedStatus (stepIdx + 1) ("externalize final step fields failed: " ++ message)
  | .ok finalStep =>
    let _ ← Host.putStep finalStep
    let _ ← Host.updateLastStepIndex task.taskID run.runID (stepIdx + 1)
    let _ ← pushEvent env task run st.eventSeq .complete [("final_answer", .text content)]
    return st.result succeededStatus (stepIdx + 1) ""

/-- What follows once a step is written, or found written before: whether the run goes
on. -/
def afterStep (stepIdx : Int) (stepEnd : Time) (latency : Int) (response : LLMResponse)
    (calls : List ToolCall) (checkpoint : CheckpointRef) (st : LoopState F) :
    EngineProg F (Except (RunResult F) (LoopState F)) := do
  let _ ← Host.updateLastStepIndex task.taskID run.runID stepIdx
  let seq ← pushEvent env task run st.eventSeq .stepEnd [("step_index", .int stepIdx),
    ("type", .text (if calls.isEmpty then "llm_call" else "tool_call")), ("latency_ms", .int latency)]
  let st := { st with eventSeq := seq }
  if calls.isEmpty && response.finishReason = "length" then
    let stops := st.consecutiveLengthStops + 1
    if maxConsecutiveLengthStops ≤ stops then
      let message := "llm response truncated " ++ GoText.decimal stops ++ " times consecutively"
      let _ ← pushEvent env task run st.eventSeq .error
        [("error_code", .text "LLM_TRUNCATED"), ("message", .text message)]
      return .error (st.result failedStatus stepIdx message)
    else
      return .ok { st with
        consecutiveLengthStops := stops
        messages := st.messages ++ [{ role := .user, content := lengthContinuePrompt }] }
  else if calls.isEmpty && response.finishReason = "stop" then
    let result ← writeFinalStep env task run stepIdx stepEnd response.content checkpoint st
    return .error result
  else
    return .ok { st with consecutiveLengthStops := 0 }

/-- The end of a step once its tools have run: the checkpoint, then the step record. -/
def finishStep (stepIdx : Int) (stepStart : Time) (response : LLMResponse) (calls : List ToolCall)
    (tools : ToolLoop) (st : LoopState F) :
    EngineProg F (Except (RunResult F) (LoopState F)) := do
  let st := { st with messages := tools.messages, eventSeq := tools.eventSeq }
  let toolOutput := if 1 < tools.outputs.length then env.encodeToolOutputs tools.outputs
    else tools.output
  let stepType := if calls.isEmpty then StepType.llmCall else StepType.toolCall
  let stepEnd ← Host.now
  let latency := milliseconds (stepEnd - stepStart)
  match ← saveMemory env task ⟨run.runID, stepIdx, st.messages⟩ with
  | .error message =>
    return .error (st.result failedStatus stepIdx ("memory checkpoint failed: " ++ message))
  | .ok memRef =>
  match ← snapshotWorkspace task run stepIdx with
  | .error message =>
    return .error (st.result failedStatus stepIdx ("workspace checkpoint failed: " ++ message))
  | .ok wsRef =>
  let checkpoint : CheckpointRef := ⟨some memRef, some wsRef⟩
  match ← externalizeLargeStepFields env task run {
      runID := run.runID, stepIndex := stepIdx, type := stepType, status := .ok
      input := response.content, output := toolOutput, tsStart := stepStart, tsEnd := stepEnd
      latencyMS := latency, tokenUsage := response.tokenUsage, checkpointRef := some checkpoint } with
  | .error message =>
    return .error (st.result failedStatus stepIdx ("externalize step fields failed: " ++ message))
  | .ok step =>
  match ← Host.putStep step with
  | .error .notFound => return .error (st.writeStepFailed stepIdx .notFound)
  | .error .alreadyExists => return .error (st.writeStepFailed stepIdx .alreadyExists)
  | .error (.other message) => return .error (st.writeStepFailed stepIdx (.other message))
  | .ok () | .error .conflict =>
    afterStep env task run stepIdx stepEnd latency response calls checkpoint st

/-- The tokens of a streaming model, pushed as they arrive. -/
def pushTokens (stepIdx : Int) : List String → Int → EngineProg F Int
  | [], eventSeq => return eventSeq
  | token :: rest, eventSeq => do
    if token = "" then pushTokens stepIdx rest eventSeq
    else
      let seq ← pushEvent env task run eventSeq .tokenChunk
        [("step_index", .int stepIdx), ("token", .text token)]
      pushTokens stepIdx rest seq

/-- One turn of the loop: the result the run ends with, or what the next turn
starts from. -/
def executeStep (stepIdx : Int) (st : LoopState F) :
    EngineProg F (Except EngineError (Except (RunResult F) (LoopState F))) := do
  match ← Host.isAbortRequested task.taskID with
  | .error e => return .error (.checkAbort e)
  | .ok (true, reason) =>
    let now ← Host.now
    let _ ← Host.putStep {
      runID := run.runID, stepIndex := stepIdx, type := .final, status := .ok
      input := "abort_requested", output := reason, tsStart := now, tsEnd := now
      errorCode := "ABORTED", errorMessage := reason }
    let _ ← Host.updateLastStepIndex task.taskID run.runID stepIdx
    let _ ← pushEvent env task run st.eventSeq .complete
      [("status", .text "aborted"), ("reason", .text reason)]
    return .ok (.error (st.result abortedStatus stepIdx ""))
  | .ok (false, _) =>
  if ← Host.contextDone then
    return .ok (.error (st.result failedStatus (stepIdx - 1) "context cancelled"))
  else
  let seq ← pushEvent env task run st.eventSeq .stepStart [("step_index", .int stepIdx)]
  let stepStart ← Host.now
  let messages := trimMemoryMessages st.messages maxEngineMemoryMessages
  let (tokens, response) ← Host.chat {
    messages := messages, modelConfig := run.modelConfig, tools := env.toolSpecs
    taskType := classifyTaskPrompt env task.prompt }
  let seq ← pushTokens env task run stepIdx tokens seq
  let st := { st with messages := messages, eventSeq := seq }
  match response with
  | .error message =>
    writeErrorStep run stepIdx stepStart "LLM_ERROR" message
    let _ ← pushEvent env task run st.eventSeq .error
      [("error_code", .text "LLM_ERROR"), ("message", .text message)]
    return .ok (.error (st.result failedStatus stepIdx message))
  | .ok response =>
  let stepCost := estimateUsageCostUSD env response.modelID response.tokenUsage
  let st := { st with
    totalTokens := match response.tokenUsage with
      | some usage => st.totalTokens + usage.total
      | none => st.totalTokens
    totalCost := Float64.add st.totalCost stepCost }
  let _ ← Host.addRunUsage task.taskID run.runID response.tokenUsage stepCost
  match checkBudgetExceeded run.modelConfig st.totalTokens st.totalCost with
  | some (code, message) =>
    writeErrorStep run stepIdx stepStart code message
    let _ ← pushEvent env task run st.eventSeq .error [("error_code", .text code),
      ("message", .text message), ("total_tokens", .int st.totalTokens.toInt),
      ("total_cost_usd", .float st.totalCost)]
    return .ok (.error (st.result failedStatus stepIdx message))
  | none =>
  let calls := withCallIDs stepIdx response.toolCalls
  let messages := st.messages ++
    [{ role := .assistant, content := response.content, toolCalls := calls }]
  match ← executeTools env task run stepIdx stepStart st calls
      { messages := messages, eventSeq := st.eventSeq } with
  | .error result => return .ok (.error result)
  | .ok tools => return .ok (← finishStep env task run stepIdx stepStart response calls tools st)

/-- The `for` loop, with the number of turns it has left. A step index is an `Int`:
`startStep + MaxSteps` is taken to stay below 2^63. -/
def executeLoop (startStep : Int) :
    Nat → Int → LoopState F → EngineProg F (Except EngineError (RunResult F))
  | 0, _, st => do
    let _ ← pushEvent env task run st.eventSeq .error
      [("error_code", .text "MAX_STEPS"), ("message", .text "max steps reached")]
    return .ok (st.result failedStatus (startStep + env.maxSteps - 1) "max steps reached")
  | n + 1, stepIdx, st => do
    match ← executeStep env task run stepIdx st with
    | .error e => return .error e
    | .ok (.error result) => return .ok result
    | .ok (.ok st) => executeLoop startStep n (stepIdx + 1) st

def systemPrompt : String :=
  "You are an AI agent. Use the available tools to complete the task. When done, provide a " ++
  "final answer."

/-- The messages of the memory a checkpoint names, if it names one. -/
def restoreMemory (ref : Option ArtifactRef) :
    EngineProg F (Except EngineError (List MemoryMessage)) := do
  match ref with
  | none => return .ok []
  | some memory =>
    match ← loadMemory env memory with
    | .error e => return .error (.restoreMemory e)
    | .ok restored => return .ok restored.messages

/-- The checkpoint a resumed run starts from: its memory, then its workspace. -/
def restoreCheckpoint (ref : CheckpointRef) :
    EngineProg F (Except EngineError (List MemoryMessage)) := do
  match ← restoreMemory env ref.memory with
  | .error e => return .error e
  | .ok messages =>
    match ref.workspace with
    | none => return .ok messages
    | some workspace =>
      match ← restoreWorkspace env workspace with
      | .error e => return .error (.restoreWorkspace e)
      | .ok () => return .ok messages

/-- The loop from its first step. A memory with no messages is given the system
prompt and the task. -/
def startLoop (startStep : Int) (messages : List MemoryMessage) :
    EngineProg F (Except EngineError (RunResult F)) :=
  executeLoop env task run startStep env.maxSteps.toNat startStep {
    messages := if messages.isEmpty then
        [{ role := .system, content := systemPrompt }, { role := .user, content := task.prompt }]
      else messages
    totalTokens := 0, totalCost := Float64.lit 0, consecutiveLengthStops := 0, eventSeq := 0 }

/-- A prompt the policy rejects: no step is taken. -/
def rejectedPrompt (message : String) : RunResult F :=
  ⟨failedStatus, -1, message, 0, Float64.lit 0⟩

/-- `Engine.Execute`. -/
def execute : EngineProg F (Except EngineError (RunResult F)) := do
  match env.policy.validate env.lower task.prompt with
  | .error .tooLong => return .ok (rejectedPrompt "prompt exceeds maximum length")
  | .error .denied => return .ok (rejectedPrompt "prompt contains denied content")
  | .ok () =>
  match run.resumeFromStepIndex with
  | none => startLoop env task run 0 []
  | some stepIdx =>
    match ← Host.getStep run.parentRunID stepIdx with
    | .error e => return .error (.loadCheckpointStep e)
    | .ok step =>
    match step.checkpointRef with
    | none => startLoop env task run (stepIdx + 1) []
    | some ref =>
      match ← restoreCheckpoint env ref with
      | .error e => return .error e
      | .ok messages => startLoop env task run (stepIdx + 1) messages

end Arithmetic

end Program

end AgentForge
