import AgentForge.World

/-! `pkg/task/service.go` and `pkg/task/estimation.go`: validation and access,
the messages a run is queued with, and `Create`, `Resume` and `Abort` as the
calls they make. Another request or a worker may act between any two calls, so
each handler is a table of the places it can stand at. -/
namespace AgentForge

structure CreateRequest (F : Type) where
  tenantID : String
  userID : String
  prompt : String
  modelConfig : Option (ModelConfig F) := none
  idempotencyKey : String := ""

structure ResumeRequest (F : Type) where
  tenantID : String
  userID : String
  fromRunID : String
  fromStepIndex : Int
  modelConfigOverride : Option (ModelConfig F) := none

structure AbortRequest where
  userID : String := ""
  reason : String := ""

/-- `CreateResponse`, and `ResumeResponse`, which has the same fields. -/
structure RunResponse where
  taskID : String
  runID : String
  deriving DecidableEq

inductive ServiceError where
  | validation (message : String)
  | store (e : StoreError)
  | enqueue (message : String)
  deriving DecidableEq

/-- What the service reads from its environment. `allowedModelIDs` is the
comma-separated list, or `none` when the variable is blank. -/
structure ServiceEnv where
  policy : PromptPolicy := {}
  lower : Char → Char
  allowedModelIDs : Option (List String) := none

def defaultAllowedModelIDs : List String :=
  ["gpt-4o-mini", "gpt-4o", "gpt-4.1", "gpt-4", "claude-3", "claude-3-haiku", "claude-3-sonnet",
   "claude-3-opus", "claude-sonnet-4-20250514", "claude-opus-4-6"]

/-- `strings.TrimSpace(s) == ""`. -/
def isBlank (s : String) : Bool := GoText.trimSpace s = ""

section Validation

variable {F : Type} (env : ServiceEnv)

def isAllowedModelID (modelID : String) : Bool :=
  let normalize := fun m => GoText.toLower env.lower (GoText.trimSpace m)
  let allowed := match env.allowedModelIDs with
    | none => defaultAllowedModelIDs.map normalize
    | some parts => (parts.map normalize).filter (· ≠ "")
  allowed.contains (normalize modelID)

/-- The loop over `FallbackModelIDs`: blank ids and repetitions are dropped. -/
def normalizeFallbacks : List String → List String → Except ServiceError (List String)
  | [], kept => .ok kept
  | m :: rest, kept =>
    let modelID := GoText.trimSpace m
    if modelID = "" then normalizeFallbacks rest kept
    else if !isAllowedModelID env modelID then
      .error (.validation "model_config.fallback_model_ids contains unsupported model")
    else if kept.contains modelID then normalizeFallbacks rest kept
    else normalizeFallbacks rest (kept ++ [modelID])

def normalizePolicyMode (policyMode : String) : Except ServiceError String :=
  let pm := GoText.trimSpace policyMode
  if pm = "" then .ok policyMode
  else if pm = "latency-first" ∨ pm = "quality-first" ∨ pm = "cost-cap" then .ok pm
  else .error (.validation "model_config.policy_mode is invalid")

def normalizeAndValidateModelConfig [Float64 F] :
    Option (ModelConfig F) → Except ServiceError (Option (ModelConfig F))
  | none => .ok none
  | some mc =>
    let modelID := GoText.trimSpace mc.modelID
    if modelID = "" then .error (.validation "model_config.model_id is required")
    else if !isAllowedModelID env modelID then
      .error (.validation "model_config.model_id is not allowed")
    else if Float64.lt mc.temperature (Float64.lit 0) || Float64.lt (Float64.lit 2) mc.temperature then
      .error (.validation "model_config.temperature must be between 0 and 2")
    else if mc.maxTokens < 0 then .error (.validation "model_config.max_tokens must be >= 0")
    else if Float64.lt mc.costCapUSD (Float64.lit 0) then
      .error (.validation "model_config.cost_cap_usd must be >= 0")
    else do
      let policyMode ← normalizePolicyMode mc.policyMode
      let fallbackModelIDs ← normalizeFallbacks env mc.fallbackModelIDs []
      return some { mc with
        modelID := modelID, policyMode := policyMode, fallbackModelIDs := fallbackModelIDs }

/-- The checks of `Create` before its first call, and the configuration the run
gets. -/
def validateCreate [Float64 F] (req : CreateRequest F) :
    Except ServiceError (Option (ModelConfig F)) :=
  if isBlank req.tenantID then .error (.validation "tenant_id is required")
  else if isBlank req.userID then .error (.validation "user_id is required")
  else if isBlank req.prompt then .error (.validation "prompt is required")
  else match env.policy.validate env.lower req.prompt with
    | .error .tooLong => .error (.validation "prompt exceeds maximum length")
    | .error .denied => .error (.validation "prompt contains denied content")
    | .ok () => normalizeAndValidateModelConfig env req.modelConfig

def hasTaskTenantAccess (task : Task F) (tenantID : String) : Bool := task.tenantID = tenantID

def hasTaskAccess (task : Task F) (tenantID userID : String) : Bool :=
  hasTaskTenantAccess task tenantID && !isBlank userID && !isBlank task.userID &&
    task.userID = userID

/-! ## Estimates and messages -/

def inferTaskType (prompt : String) : String :=
  let p := GoText.toLower env.lower (GoText.trimSpace prompt)
  let has := fun sub => GoText.contains p sub
  if has "code" || has "golang" || has "python" || has "typescript" || has "bug" || has "test" then
    "coding"
  else if has "analy" || has "report" || has "metrics" || has "sql" then "analysis"
  else if has "summar" || has "translate" || has "rewrite" then "writing"
  else "general"

def estimateModelCostUSD [Float64 F] (modelID : String) (totalTokens : Int64) : F :=
  if totalTokens ≤ 0 then Float64.lit 0
  else
    let pricing : List (String × F) :=
      [("gpt-4o-mini", Float64.lit (35 / 100000)), ("gpt-4o", Float64.lit (5 / 1000)),
       ("gpt-4.1", Float64.lit (6 / 1000)), ("claude-3-haiku", Float64.lit (8 / 10000)),
       ("claude-3-sonnet", Float64.lit (3 / 1000)), ("claude-3-opus", Float64.lit (15 / 1000))]
    let modelKey := GoText.toLower env.lower (GoText.trimSpace modelID)
    Float64.mul (Float64.div (Float64.ofInt totalTokens.toInt) (Float64.lit 1000))
      ((pricing.lookup modelKey).getD (Float64.lit (35 / 100000)))

def estimateUsage [Float64 F] (prompt : String) (mc : Option (ModelConfig F)) : Int64 × F :=
  let modelID := match mc with
    | some mc => if isBlank mc.modelID then "gpt-4o-mini" else mc.modelID
    | none => "gpt-4o-mini"
  let maxTokens := match mc with
    | some mc => if 0 < mc.maxTokens then mc.maxTokens else 1024
    | none => 1024
  let words : F := Float64.ofInt (GoText.fields prompt).length
  let estimated := Int64.ofInt (Float64.ceil (Float64.mul words (Float64.lit (13 / 10)))) + maxTokens
  let tokens := if estimated < 256 then 256 else estimated
  (tokens, estimateModelCostUSD env modelID tokens)

/-- The message a run is queued with, by `Create`, `Resume` and recovery alike. -/
def runMessage [Float64 F] (tenantID taskID runID prompt : String) (mc : Option (ModelConfig F))
    (submittedAt : Time) : SQSMessage F :=
  { tenantID := tenantID, taskID := taskID, runID := runID, taskType := inferTaskType env prompt
    submittedAt := unix submittedAt, attempt := 1, dedupeKey := taskID ++ "#" ++ runID
    estimatedTokens := (estimateUsage env prompt mc).1
    estimatedCost := (estimateUsage env prompt mc).2 }

/-- `enqueueQueuedRun`: the message it sends, unless the task or the run is no
longer queued. -/
def queuedRunMessage [Float64 F] (task : Task F) (run : Run F) (submittedAt : Time) :
    Option (SQSMessage F) :=
  if task.status ≠ .queued ∨ run.status ≠ .queued then none
  else
    let tenantID := if isBlank run.tenantID then task.tenantID else GoText.trimSpace run.tenantID
    some (runMessage env tenantID task.taskID run.runID task.prompt run.modelConfig submittedAt)

end Validation

/-! ## The handlers -/

/-- Where a `Create` stands: each constructor is the call it makes next. -/
inductive CreatePC (F : Type) where
  | lookup (req : CreateRequest F) (mc : Option (ModelConfig F))
  | loadActiveRun (existing : Task F)
  | stamp (existing : Task F) (run : Run F)
  | readClock (req : CreateRequest F) (mc : Option (ModelConfig F))
  | newTaskID (req : CreateRequest F) (mc : Option (ModelConfig F)) (now : Time)
  | newRunID (req : CreateRequest F) (mc : Option (ModelConfig F)) (now : Time) (taskID : String)
  | apply (req : CreateRequest F) (mc : Option (ModelConfig F)) (now : Time) (taskID runID : String)
  | fetchWinner (tenantID idempotencyKey : String)
  | enqueue (response : RunResponse) (msg : SQSMessage F)
  | returned (result : Except ServiceError RunResponse)

/-- Where a `Resume` stands. The message it queues names its task and its new run. -/
inductive ResumePC (F : Type) where
  | getTask (taskID : String) (req : ResumeRequest F)
  | getRun (taskID : String) (req : ResumeRequest F) (task : Task F)
  | getStep (taskID : String) (req : ResumeRequest F) (task : Task F)
  | readClock (taskID : String) (req : ResumeRequest F) (task : Task F)
  | newRunID (taskID : String) (req : ResumeRequest F) (task : Task F) (now : Time)
  | apply (taskID : String) (req : ResumeRequest F) (task : Task F) (mc : Option (ModelConfig F))
      (now : Time) (runID : String)
  | enqueue (msg : SQSMessage F)
  | failRun (taskID runID message : String)
  | failTask (taskID runID message : String)
  | returned (result : Except ServiceError RunResponse)

/-- Where an `Abort` stands. Without a user it checks the tenant alone. -/
inductive AbortPC (F : Type) where
  | getTask (tenantID taskID : String) (req : AbortRequest)
  | setAbort (taskID reason : String)
  | getTaskAgain (taskID : String)
  | returned (result : Except ServiceError (Task F))

open Transition (View)

section Handlers

variable {F : Type} [Float64 F] (env : ServiceEnv)

/-- `Create` up to its first call. -/
def CreatePC.start (req : CreateRequest F) : CreatePC F :=
  match validateCreate env req with
  | .error e => .returned (.error e)
  | .ok mc => if req.idempotencyKey ≠ "" then .lookup req mc else .readClock req mc

/-- The rest of `enqueueQueuedRun`, with the response given once it is done. -/
def CreatePC.enqueueQueued (response : RunResponse) (task : Task F) (run : Run F)
    (submittedAt : Time) : CreatePC F :=
  match queuedRunMessage env task run submittedAt with
  | none => .returned (.ok response)
  | some msg => .enqueue response msg

/-- The task and the run a `Create` applies. -/
def createdTask (req : CreateRequest F) (mc : Option (ModelConfig F)) (now : Time)
    (taskID runID : String) : Task F :=
  { taskID := taskID, tenantID := req.tenantID, userID := req.userID, status := .queued
    activeRunID := runID, idempotencyKey := req.idempotencyKey, prompt := req.prompt
    modelConfig := mc, createdAt := now, updatedAt := now }

def createdRun (req : CreateRequest F) (mc : Option (ModelConfig F)) (now : Time)
    (taskID runID : String) : Run F :=
  { taskID := taskID, runID := runID, tenantID := req.tenantID, status := .queued
    queuedAt := some now, modelConfig := mc, totalCostUSD := Float64.lit 0 }

def CreatePC.view : CreatePC F → View (Call F) Call.Ans (CreatePC F)
  | .lookup req mc => .call (.getTaskByIdempotencyKey req.tenantID req.idempotencyKey) fun
    | .ok existing =>
      if existing.activeRunID = "" then .returned (.ok ⟨existing.taskID, existing.activeRunID⟩)
      else .loadActiveRun existing
    | .error .notFound => .readClock req mc
    | .error e => .returned (.error (.store e))
  | .loadActiveRun existing => .call (.getRun existing.taskID existing.activeRunID) fun
    | .ok run => .stamp existing run
    | .error e => .returned (.error (.store e))
  | .stamp existing run => .call .now fun now =>
    .enqueueQueued env ⟨existing.taskID, existing.activeRunID⟩ existing run now
  | .readClock req mc => .call .now fun now => .newTaskID req mc now
  | .newTaskID req mc now => .call (.newID "task_") fun taskID => .newRunID req mc now taskID
  | .newRunID req mc now taskID => .call (.newID "run_") fun runID =>
    .apply req mc now taskID runID
  | .apply req mc now taskID runID =>
    let task := createdTask req mc now taskID runID
    let run := createdRun req mc now taskID runID
    .call (.applyCreateTransition task run) fun
    | .ok () => .enqueueQueued env ⟨taskID, runID⟩ task run now
    | .error .alreadyExists =>
      if req.idempotencyKey ≠ "" then .fetchWinner req.tenantID req.idempotencyKey
      else .returned (.error (.store .alreadyExists))
    | .error e => .returned (.error (.store e))
  | .fetchWinner tenantID idempotencyKey =>
    .call (.getTaskByIdempotencyKey tenantID idempotencyKey) fun
    | .ok existing => .returned (.ok ⟨existing.taskID, existing.activeRunID⟩)
    | .error e => .returned (.error (.store e))
  | .enqueue response msg => .call (.enqueue msg) fun
    | .ok () => .returned (.ok response)
    | .error message => .returned (.error (.enqueue message))
  | .returned _ => .done

/-- `Resume` up to its first call. -/
def ResumePC.start (taskID : String) (req : ResumeRequest F) : ResumePC F :=
  if isBlank req.tenantID then .returned (.error (.validation "tenant_id is required"))
  else if isBlank req.userID then .returned (.error (.validation "user_id is required"))
  else .getTask taskID req

/-- The checks of `Resume` once it has the task. -/
def ResumePC.checkRequest (taskID : String) (req : ResumeRequest F) (task : Task F) : ResumePC F :=
  if !hasTaskAccess task req.tenantID req.userID then .returned (.error (.store .notFound))
  else if req.fromRunID = "" then
    .returned (.error (.validation "from_run_id is required for resume"))
  else if req.fromStepIndex < 0 then
    .returned (.error (.validation "from_step_index must be non-negative"))
  else .getRun taskID req task

/-- The run a `Resume` applies. -/
def resumedRun (taskID : String) (req : ResumeRequest F) (mc : Option (ModelConfig F)) (now : Time)
    (runID : String) : Run F :=
  { taskID := taskID, runID := runID, tenantID := req.tenantID, status := .queued
    queuedAt := some now, parentRunID := req.fromRunID
    resumeFromStepIndex := some req.fromStepIndex, modelConfig := mc, totalCostUSD := Float64.lit 0 }

/-- The statuses a task may be resumed from: all but `RUNNING`. -/
def resumableStatuses : List TaskStatus := [.queued, .succeeded, .failed, .aborted]

def ResumePC.view : ResumePC F → View (Call F) Call.Ans (ResumePC F)
  | .getTask taskID req => .call (.getTask taskID) fun
    | .ok task => .checkRequest taskID req task
    | .error e => .returned (.error (.store e))
  | .getRun taskID req task => .call (.getRun taskID req.fromRunID) fun
    | .ok _ => .getStep taskID req task
    | .error _ => .returned (.error (.validation "from_run_id not found for this task"))
  | .getStep taskID req task => .call (.getStep req.fromRunID req.fromStepIndex) fun
    | .error _ => .returned (.error (.validation
        "checkpoint step not found: cannot resume from a step that does not exist"))
    | .ok step =>
      if step.checkpointRef = none then
        .returned (.error (.validation "checkpoint step has no checkpoint data: cannot resume"))
      else .readClock taskID req task
  | .readClock taskID req task => .call .now fun now => .newRunID taskID req task now
  | .newRunID taskID req task now => .call (.newID "run_") fun runID =>
    match normalizeAndValidateModelConfig env (req.modelConfigOverride.or task.modelConfig) with
    | .error e => .returned (.error e)
    | .ok mc => .apply taskID req task mc now runID
  | .apply taskID req task mc now runID =>
    let run := resumedRun taskID req mc now runID
    .call (.applyResumeTransition taskID run resumableStatuses .queued) fun
    | .ok () => .enqueue (runMessage env req.tenantID taskID runID task.prompt mc now)
    | .error e => .returned (.error (.store e))
  | .enqueue msg => .call (.enqueue msg) fun
    | .ok () => .returned (.ok ⟨msg.taskID, msg.runID⟩)
    | .error message =>
      if msg.taskID = "" ∨ msg.runID = "" then .returned (.error (.enqueue message))
      else .failRun msg.taskID msg.runID message
  | .failRun taskID runID message => .call (.completeRun taskID runID .failed) fun _ =>
    .failTask taskID runID message
  | .failTask taskID runID message =>
    .call (.updateTaskStatusForRun taskID runID [.queued, .running] .failed) fun _ =>
      .returned (.error (.enqueue message))
  | .returned _ => .done

def AbortPC.view : AbortPC F → View (Call F) Call.Ans (AbortPC F)
  | .getTask tenantID taskID req => .call (.getTask taskID) fun
    | .error e => .returned (.error (.store e))
    | .ok task =>
      let allowed := if req.userID = "" then hasTaskTenantAccess task tenantID
        else hasTaskAccess task tenantID req.userID
      if allowed then .setAbort taskID req.reason else .returned (.error (.store .notFound))
  | .setAbort taskID reason => .call (.setAbortRequested taskID reason) fun
    | .ok () => .getTaskAgain taskID
    | .error e => .returned (.error (.store e))
  | .getTaskAgain taskID => .call (.getTask taskID) fun
    | .ok task => .returned (.ok task)
    | .error e => .returned (.error (.store e))
  | .returned _ => .done

end Handlers

end AgentForge
