import AgentForge.DynamoDB
import AgentForge.MemoryStore

/-! `pkg/state/dynamo_store.go`: the `Store` over DynamoDB, as far as it keeps
tasks, runs and steps. A method is a function from the state of a service `S` to
its answer and the state it leaves; `now` is what it reads from `time.Now()`. The service's
errors other than a failed condition are answered under the method's own message. -/
namespace AgentForge

open DynamoDB

variable {V F : Type}

/-- What `attributevalue` makes of Go's values, and reads back: the `json` tags of
a record are read off here attribute by attribute, the values inside an attribute
are the library's. -/
structure Marshalling (V F : Type) where
  string : String → V
  bool : Bool → V
  int : Int → V
  float : F → V
  time : Time → V
  map : List (String × V) → V
  config : ModelConfig F → V
  usage : TokenUsage → V
  checkpoint : CheckpointRef → V
  readString : V → Option String
  readBool : V → Option Bool
  readInt : V → Option Int
  readFloat : V → Option F
  readTime : V → Option Time
  readConfig : V → Option (ModelConfig F)
  readUsage : V → Option TokenUsage
  readCheckpoint : V → Option CheckpointRef
  readString_string : ∀ value, readString (string value) = some value
  readBool_bool : ∀ value, readBool (bool value) = some value
  readInt_int : ∀ value, readInt (int value) = some value
  readFloat_float : ∀ value, readFloat (float value) = some value
  readTime_time : ∀ value, readTime (time value) = some value
  readConfig_config : ∀ value, readConfig (config value) = some value
  readUsage_usage : ∀ value, readUsage (usage value) = some value
  readCheckpoint_checkpoint : ∀ value, readCheckpoint (checkpoint value) = some value
  /-- A usage written out by hand reads like a marshalled one. -/
  readUsage_map : ∀ value : TokenUsage, readUsage (map [("input", int value.input.toInt),
    ("output", int value.output.toInt), ("total", int value.total.toInt)]) = some value

attribute [simp] Marshalling.readString_string Marshalling.readBool_bool Marshalling.readInt_int
  Marshalling.readFloat_float Marshalling.readTime_time Marshalling.readConfig_config
  Marshalling.readUsage_usage Marshalling.readCheckpoint_checkpoint Marshalling.readUsage_map

/-! ## Reading an item -/

/-- A field of a record: the zero value where the attribute is missing. -/
def attr {α : Type} (read : V → Option α) (zero : α) (item : Item V) (tag : String) : Option α :=
  match item.lookup tag with
  | none => some zero
  | some value => read value

/-- A field that is a pointer. -/
def pointer {α : Type} (read : V → Option α) (item : Item V) (tag : String) : Option (Option α) :=
  attr (fun value => (read value).map some) none item tag

/-- The status of a text; Go's type has other values, which no method writes. -/
def TaskStatus.ofText (text : String) : Option TaskStatus :=
  [.queued, .running, .succeeded, .failed, .aborted].find? fun status => status.text = text

def RunStatus.ofText (text : String) : Option RunStatus :=
  [.queued, .running, .succeeded, .failed, .aborted].find? fun status => status.text = text

def StepType.ofText (text : String) : Option StepType :=
  [.llmCall, .toolCall, .observation, .final].find? fun type => type.text = text

def StepStatus.ofText (text : String) : Option StepStatus :=
  [.ok, .error].find? fun status => status.text = text

namespace Marshalling

variable (c : Marshalling V F)

/-- `unmarshalMap` into a `Task`. -/
def unmarshalTask (item : Item V) : Option (Task F) := do
  let taskID ← attr c.readString "" item "task_id"
  let tenantID ← attr c.readString "" item "tenant_id"
  let userID ← attr c.readString "" item "user_id"
  let status ← TaskStatus.ofText (← attr c.readString "" item "status")
  let activeRunID ← attr c.readString "" item "active_run_id"
  let abortRequested ← attr c.readBool false item "abort_requested"
  let abortReason ← attr c.readString "" item "abort_reason"
  let abortTS ← pointer c.readTime item "abort_ts"
  let idempotencyKey ← attr c.readString "" item "idempotency_key"
  let prompt ← attr c.readString "" item "prompt"
  let modelConfig ← pointer c.readConfig item "model_config"
  let createdAt ← attr c.readTime 0 item "created_at"
  let updatedAt ← attr c.readTime 0 item "updated_at"
  return { taskID, tenantID, userID, status, activeRunID, abortRequested, abortReason, abortTS,
           idempotencyKey, prompt, modelConfig, createdAt, updatedAt }

/-- `unmarshalMap` into a `Run`. -/
def unmarshalRun [Float64 F] (item : Item V) : Option (Run F) := do
  let taskID ← attr c.readString "" item "task_id"
  let runID ← attr c.readString "" item "run_id"
  let tenantID ← attr c.readString "" item "tenant_id"
  let status ← RunStatus.ofText (← attr c.readString "" item "status")
  let queuedAt ← pointer c.readTime item "queued_at"
  let parentRunID ← attr c.readString "" item "parent_run_id"
  let resumeFromStepIndex ← pointer c.readInt item "resume_from_step_index"
  let modelConfig ← pointer c.readConfig item "model_config"
  let startedAt ← pointer c.readTime item "started_at"
  let endedAt ← pointer c.readTime item "ended_at"
  let lastStepIndex ← attr c.readInt 0 item "last_step_index"
  let totalTokenUsage ← pointer c.readUsage item "total_token_usage"
  let totalCostUSD ← attr c.readFloat (Float64.lit 0) item "total_cost_usd"
  return { taskID, runID, tenantID, status, queuedAt, parentRunID, resumeFromStepIndex,
           modelConfig, startedAt, endedAt, lastStepIndex, totalTokenUsage, totalCostUSD }

/-- `unmarshalMap` into a `Step`. -/
def unmarshalStep (item : Item V) : Option Step := do
  let runID ← attr c.readString "" item "run_id"
  let stepIndex ← attr c.readInt 0 item "step_index"
  let type ← StepType.ofText (← attr c.readString "" item "type")
  let status ← StepStatus.ofText (← attr c.readString "" item "status")
  let input ← attr c.readString "" item "input"
  let output ← attr c.readString "" item "output"
  let tsStart ← attr c.readTime 0 item "ts_start"
  let tsEnd ← attr c.readTime 0 item "ts_end"
  let latencyMS ← attr c.readInt 0 item "latency_ms"
  let tokenUsage ← pointer c.readUsage item "token_usage"
  let checkpointRef ← pointer c.readCheckpoint item "checkpoint_ref"
  let errorCode ← attr c.readString "" item "error_code"
  let errorMessage ← attr c.readString "" item "error_message"
  return { runID, stepIndex, type, status, input, output, tsStart, tsEnd, latencyMS, tokenUsage,
           checkpointRef, errorCode, errorMessage }

/-! ## Writing an item -/

/-- A text tagged `omitempty`. -/
def text (tag value : String) : List (String × V) :=
  if value = "" then [] else [(tag, c.string value)]

/-- A pointer tagged `omitempty`. -/
def present {α : Type} (tag : String) (write : α → V) : Option α → List (String × V)
  | none => []
  | some value => [(tag, write value)]

/-- `marshalMap` of a `Task`. -/
def marshalTask (task : Task F) : List (String × V) :=
  [("task_id", c.string task.taskID), ("tenant_id", c.string task.tenantID),
   ("user_id", c.string task.userID), ("status", c.string task.status.text),
   ("active_run_id", c.string task.activeRunID),
   ("abort_requested", c.bool task.abortRequested)] ++
  c.text "abort_reason" task.abortReason ++ present "abort_ts" c.time task.abortTS ++
  c.text "idempotency_key" task.idempotencyKey ++ [("prompt", c.string task.prompt)] ++
  present "model_config" c.config task.modelConfig ++
  [("created_at", c.time task.createdAt), ("updated_at", c.time task.updatedAt)]

/-- `marshalMap` of a `Run`. -/
def marshalRun [Float64 F] (run : Run F) : List (String × V) :=
  [("task_id", c.string run.taskID), ("run_id", c.string run.runID),
   ("tenant_id", c.string run.tenantID), ("status", c.string run.status.text)] ++
  present "queued_at" c.time run.queuedAt ++ c.text "parent_run_id" run.parentRunID ++
  present "resume_from_step_index" c.int run.resumeFromStepIndex ++
  present "model_config" c.config run.modelConfig ++
  present "started_at" c.time run.startedAt ++ present "ended_at" c.time run.endedAt ++
  [("last_step_index", c.int run.lastStepIndex)] ++
  present "total_token_usage" c.usage run.totalTokenUsage ++
  (if !Float64.lt run.totalCostUSD (Float64.lit 0) && !Float64.lt (Float64.lit 0) run.totalCostUSD
    then [] else [("total_cost_usd", c.float run.totalCostUSD)])

/-- `marshalMap` of a `Step`. -/
def marshalStep (step : Step) : List (String × V) :=
  [("run_id", c.string step.runID), ("step_index", c.int step.stepIndex),
   ("type", c.string step.type.text), ("status", c.string step.status.text)] ++
  c.text "input" step.input ++ c.text "output" step.output ++
  [("ts_start", c.time step.tsStart), ("ts_end", c.time step.tsEnd),
   ("latency_ms", c.int step.latencyMS)] ++
  present "token_usage" c.usage step.tokenUsage ++
  present "checkpoint_ref" c.checkpoint step.checkpointRef ++
  c.text "error_code" step.errorCode ++ c.text "error_message" step.errorMessage

def applyTaskCompatFields (task : Task F) : List (String × V) :=
  [("task_id", c.string task.taskID), ("tenant_id", c.string task.tenantID),
   ("user_id", c.string task.userID), ("status", c.string task.status.text),
   ("active_run_id", c.string task.activeRunID),
   ("abort_requested", c.bool task.abortRequested),
   ("abort_reason", c.string task.abortReason)] ++
  present "abort_ts" c.time task.abortTS ++
  [("idempotency_key", c.string task.idempotencyKey), ("prompt", c.string task.prompt)] ++
  (if task.createdAt = 0 then [] else [("created_at", c.time task.createdAt)]) ++
  (if task.updatedAt = 0 then [] else [("updated_at", c.time task.updatedAt)])

def applyRunCompatFields (run : Run F) : List (String × V) :=
  let usage := run.totalTokenUsage.getD {}
  [("task_id", c.string run.taskID), ("run_id", c.string run.runID),
   ("tenant_id", c.string run.tenantID), ("status", c.string run.status.text)] ++
  c.text "parent_run_id" run.parentRunID ++
  present "resume_from_step_index" c.int run.resumeFromStepIndex ++
  present "queued_at" c.time run.queuedAt ++ present "started_at" c.time run.startedAt ++
  present "ended_at" c.time run.endedAt ++
  (if run.lastStepIndex = 0 then [] else [("last_step_index", c.int run.lastStepIndex)]) ++
  [("total_token_usage", c.map [("input", c.int usage.input.toInt),
     ("output", c.int usage.output.toInt), ("total", c.int usage.total.toInt)]),
   ("total_cost_usd", c.float run.totalCostUSD)]

end Marshalling

/-! ## Keys -/

def taskPK (taskID : String) : String := "TASK#" ++ taskID
def runPK (taskID : String) : String := "TASK#" ++ taskID
def runSK (runID : String) : String := "RUN#" ++ runID
def stepPK (runID : String) : String := "RUN#" ++ runID
def stepSK (stepIndex : Int) : String := "STEP#" ++ GoText.padded 8 stepIndex
def tenantGSIKey (tenantID : String) : String := "TENANT#" ++ tenantID
def taskEntityGSIKey : String := "TASK"
def runEntityGSIKey : String := "RUN"
def runTenantSortKey (taskID runID : String) : String := taskID ++ "#" ++ runID
def taskMetaSK : String := "META"

def idempotencyPK (tenantID idempotencyKey : String) : String :=
  "IDEMP#" ++ tenantID ++ "#" ++ idempotencyKey

/-- `pk` and `sk`, in every table. -/
def tableSchema : Schema := ⟨"pk", "sk", by decide⟩

/-- `DynamoStore`, with the marshalling it is built against. `formatTime` is the
layout `RFC3339Nano`. -/
structure DynamoStore (V F : Type) where
  tasksTable : String
  runsTable : String
  stepsTable : String
  av : Marshalling V F
  formatTime : Time → String

/-! ## The service's errors -/

def isConditionalCheckFailed : Failure → Bool
  | .conditionalCheckFailed => true
  | _ => false

def isTransactionConditionFailed : Failure → Bool
  | .transactionCanceled reasons => reasons.any (· = .conditionalCheckFailed)
  | _ => false

/-- The first write of a resume inserts the run. -/
def isRunInsertConflict : Failure → Bool
  | .transactionCanceled reasons => reasons[0]? = some .conditionalCheckFailed
  | _ => false

/-- The second write of a resume updates the task. -/
def isTaskUpdateConflict : Failure → Bool
  | .transactionCanceled reasons => reasons[1]? = some .conditionalCheckFailed
  | _ => false

/-- `attribute_not_exists(pk) AND attribute_not_exists(sk)`. -/
def notExists : Condition := .and (.attributeNotExists "pk") (.attributeNotExists "sk")

namespace DynamoStore

variable (d : DynamoStore V F)

def taskKey (taskID : String) : Key V :=
  ⟨d.tasksTable, d.av.string (taskPK taskID), d.av.string taskMetaSK⟩

def idempotencyKey (tenantID idempotencyKey : String) : Key V :=
  ⟨d.tasksTable, d.av.string (idempotencyPK tenantID idempotencyKey), d.av.string taskMetaSK⟩

def runKey (taskID runID : String) : Key V :=
  ⟨d.runsTable, d.av.string (runPK taskID), d.av.string (runSK runID)⟩

def stepKey (runID : String) (stepIndex : Int) : Key V :=
  ⟨d.stepsTable, d.av.string (stepPK runID), d.av.string (stepSK stepIndex)⟩

def taskTenantSortKey (now createdAt : Time) (taskID : String) : String :=
  d.formatTime (if createdAt = 0 then now else createdAt) ++ "#" ++ taskID

/-- The item of a task, its compatibility fields last. -/
def taskItem (now : Time) (task : Task F) : Item V :=
  assign (d.av.marshalTask task ++
    [("pk", d.av.string (taskPK task.taskID)), ("sk", d.av.string taskMetaSK),
     ("entity", d.av.string "task"), ("gsi1pk", d.av.string (tenantGSIKey task.tenantID)),
     ("gsi1sk", d.av.string (d.taskTenantSortKey now task.createdAt task.taskID)),
     ("gsi2pk", d.av.string taskEntityGSIKey),
     ("gsi2sk", d.av.string (d.taskTenantSortKey now task.createdAt task.taskID))] ++
    d.av.applyTaskCompatFields task) ∅

def runItem [Float64 F] (run : Run F) : Item V :=
  assign (d.av.marshalRun run ++
    [("pk", d.av.string (runPK run.taskID)), ("sk", d.av.string (runSK run.runID)),
     ("entity", d.av.string "run"), ("gsi1pk", d.av.string (tenantGSIKey run.tenantID)),
     ("gsi1sk", d.av.string (runTenantSortKey run.taskID run.runID)),
     ("gsi2pk", d.av.string runEntityGSIKey),
     ("gsi2sk", d.av.string (runTenantSortKey run.taskID run.runID))] ++
    d.av.applyRunCompatFields run) ∅

def stepItem (step : Step) : Item V :=
  assign (d.av.marshalStep step ++
    [("pk", d.av.string (stepPK step.runID)), ("sk", d.av.string (stepSK step.stepIndex)),
     ("entity", d.av.string "step")]) ∅

/-- The item that holds an idempotency key for a task. -/
def idItem (now : Time) (task : Task F) : Item V :=
  assign [("pk", d.av.string (idempotencyPK task.tenantID task.idempotencyKey)),
    ("sk", d.av.string taskMetaSK), ("entity", d.av.string "idempotency"),
    ("tenant_id", d.av.string task.tenantID),
    ("idempotency_key", d.av.string task.idempotencyKey),
    ("task_id", d.av.string task.taskID),
    ("created_at", d.av.time (if task.createdAt = 0 then now else task.createdAt))] ∅

/-- The placeholder of the `i`-th status of a condition. -/
def statusPlaceholder (i : Nat) : String := ":s" ++ GoText.decimal i

/-- `buildStatusConditionTask`: the condition, its names and its values. -/
def buildStatusConditionTask (statuses : List TaskStatus) :
    Condition × List (String × String) × List (String × V) :=
  (.anyOf (statuses.zipIdx.map fun entry => .equal "#status" (statusPlaceholder entry.2)),
   [("#status", "status")],
   statuses.zipIdx.map fun entry => (statusPlaceholder entry.2, d.av.string entry.1.text))

variable [DecidableEq V] {S : Service V tableSchema} (db : S.State) (now : Time)

def taskExists (taskID : String) : Bool :=
  0 < (S.getAttributes db ["pk"] (d.taskKey taskID)).entries.length

def runExists (taskID runID : String) : Bool :=
  0 < (S.getAttributes db ["pk"] (d.runKey taskID runID)).entries.length

/-- `mapTaskConditionErr`: a condition on a task fails also where there is none. -/
def mapTaskConditionErr (taskID : String) : StoreError :=
  if d.taskExists db taskID then .conflict else .notFound

/-- The shape of every method that is one conditional write: `refused` is what a
failed condition is answered with. -/
def writeItem (request : Write V) (refused : StoreError) (message : String) :
    Except StoreError Unit × S.State :=
  match S.write db request with
  | .ok db' => (.ok (), db')
  | .error failure =>
    (.error (if isConditionalCheckFailed failure then refused else .other message), db)

/-- The shape of every method that reads one record. -/
def readItem {α : Type} (key : Key V) (unmarshal : Item V → Option α) (message : String) :
    Except StoreError α :=
  let item := S.getItem db key
  if item.entries.length = 0 then .error .notFound
  else match unmarshal item with
    | none => .error (.other message)
    | some record => .ok record

/-! ## Tasks -/

def applyCreateTransition [Float64 F] (task : Task F) (run : Run F) :
    Except StoreError Unit × S.State :=
  let run := ensureQueuedAt run now
  if task.taskID = "" ∨ run.taskID = "" ∨ run.runID = "" then (.error .conflict, db)
  else if run.taskID ≠ task.taskID then (.error .conflict, db)
  else
    let transactItems := [.put d.tasksTable (d.taskItem now task) notExists {},
        .put d.runsTable (d.runItem run) notExists {}] ++
      if task.idempotencyKey ≠ "" then [.put d.tasksTable (d.idItem now task) notExists {}] else []
    match S.transact db transactItems with
    | .ok db' => (.ok (), db')
    | .error failure =>
      (.error (if isConditionalCheckFailed failure || isTransactionConditionFailed failure then
        .alreadyExists else .other "state: apply create transition"), db)

def getTask (taskID : String) : Except StoreError (Task F) :=
  if taskID = "" then .error .notFound
  else readItem db (d.taskKey taskID) d.av.unmarshalTask "state: unmarshal task"

def updateTaskStatus (taskID : String) (fromStatuses : List TaskStatus) (toStatus : TaskStatus) :
    Except StoreError Unit × S.State :=
  if fromStatuses.length = 0 then (.error .conflict, db)
  else
    let (condition, names, values) := d.buildStatusConditionTask fromStatuses
    writeItem db (.update (d.taskKey taskID)
        ⟨[("#status", ":to"), ("updated_at", ":updated")], []⟩
        (.and (.attributeExists "pk") condition)
        ⟨names, (":updated", d.av.time now) :: (":to", d.av.string toStatus.text) :: values⟩)
      (d.mapTaskConditionErr db taskID) "state: update task status"

def updateTaskStatusForRun (taskID runID : String) (fromStatuses : List TaskStatus)
    (toStatus : TaskStatus) : Except StoreError Unit × S.State :=
  if fromStatuses.length = 0 then (.error .conflict, db)
  else
    let (condition, names, values) := d.buildStatusConditionTask fromStatuses
    writeItem db (.update (d.taskKey taskID)
        ⟨[("#status", ":to"), ("updated_at", ":updated")], []⟩
        (.and (.and (.attributeExists "pk") (.equal "active_run_id" ":run_id")) condition)
        ⟨names, (":updated", d.av.time now) :: (":to", d.av.string toStatus.text) ::
          (":run_id", d.av.string runID) :: values⟩)
      (d.mapTaskConditionErr db taskID) "state: update task status for run"

def setAbortRequested (taskID reason : String) : Except StoreError Unit × S.State :=
  writeItem db (.update (d.taskKey taskID)
      ⟨[("abort_requested", ":req"), ("abort_reason", ":reason"), ("abort_ts", ":abort_ts"),
        ("updated_at", ":updated")], []⟩
      (.attributeExists "pk")
      ⟨[], [(":req", d.av.bool true), (":reason", d.av.string reason),
        (":abort_ts", d.av.time now), (":updated", d.av.time now)]⟩)
    .notFound "state: set abort requested"

def applyResumeTransition [Float64 F] (taskID : String) (run : Run F)
    (fromStatuses : List TaskStatus) (toStatus : TaskStatus) :
    Except StoreError Unit × S.State :=
  let run := ensureQueuedAt run now
  if run.taskID = "" ∨ run.runID = "" ∨ run.taskID ≠ taskID then (.error .conflict, db)
  else if fromStatuses.length = 0 then (.error .conflict, db)
  else if !d.taskExists db taskID then (.error .notFound, db)
  else
    let (statusCond, statusNames, statusValues) := d.buildStatusConditionTask fromStatuses
    match S.transact db
      [.put d.runsTable (d.runItem run) notExists {},
       .update (d.taskKey taskID)
        ⟨[("active_run_id", ":run_id"), ("abort_requested", ":abort_requested"),
          ("abort_reason", ":abort_reason"), ("#status", ":to"), ("updated_at", ":updated")],
          ["abort_ts"]⟩
        (.and (.attributeExists "pk") statusCond)
        ⟨statusNames, (":updated", d.av.time now) :: (":to", d.av.string toStatus.text) ::
          (":abort_reason", d.av.string "") :: (":abort_requested", d.av.bool false) ::
          (":run_id", d.av.string run.runID) :: statusValues⟩] with
    | .ok db' => (.ok (), db')
    | .error failure =>
      if isRunInsertConflict failure then (.error .alreadyExists, db)
      else if isTaskUpdateConflict failure || isConditionalCheckFailed failure ||
          isTransactionConditionFailed failure then
        if !d.taskExists db taskID then (.error .notFound, db) else (.error .conflict, db)
      else (.error (.other "state: apply resume transition"), db)

/-- An entry whose task id cannot be read is taken for no entry. -/
def getTaskByIdempotencyKey (tenantID idempotencyKey : String) : Except StoreError (Task F) :=
  if tenantID = "" ∨ idempotencyKey = "" then .error .notFound
  else
    let item := S.getItem db (d.idempotencyKey tenantID idempotencyKey)
    if item.entries.length = 0 then .error .notFound
    else match (item.lookup "task_id").bind d.av.readString with
      | none => .error .notFound
      | some taskID => if taskID = "" then .error .notFound else d.getTask db taskID

/-! ## Runs -/

def getRun [Float64 F] (taskID runID : String) : Except StoreError (Run F) :=
  readItem db (d.runKey taskID runID) d.av.unmarshalRun "state: unmarshal run"

def claimRun (taskID runID : String) : Except StoreError Unit × S.State :=
  writeItem db (.update (d.runKey taskID runID)
      ⟨[("#status", ":running"), ("started_at", ":started_at")], []⟩
      (.and (.attributeExists "pk") (.equal "#status" ":queued"))
      ⟨[("#status", "status")], [(":queued", d.av.string RunStatus.queued.text),
        (":running", d.av.string RunStatus.running.text), (":started_at", d.av.time now)]⟩)
    (if d.runExists db taskID runID then .conflict else .notFound) "state: claim run"

def completeRun (taskID runID : String) (status : RunStatus) : Except StoreError Unit × S.State :=
  writeItem db (.update (d.runKey taskID runID)
      ⟨[("#status", ":status"), ("ended_at", ":ended_at")], []⟩
      (.attributeExists "pk")
      ⟨[("#status", "status")], [(":status", d.av.string status.text),
        (":ended_at", d.av.time now)]⟩)
    .notFound "state: complete run"

def updateLastStepIndex (taskID runID : String) (stepIndex : Int) :
    Except StoreError Unit × S.State :=
  writeItem db (.update (d.runKey taskID runID)
      ⟨[("last_step_index", ":last_step_index")], []⟩
      (.attributeExists "pk")
      ⟨[], [(":last_step_index", d.av.int stepIndex)]⟩)
    .notFound "state: update last step index"

def resetRunToQueued (taskID runID : String) : Except StoreError Unit × S.State :=
  writeItem db (.update (d.runKey taskID runID)
      ⟨[("#status", ":queued"), ("queued_at", ":queued_at")], ["started_at", "ended_at"]⟩
      (.attributeExists "pk")
      ⟨[("#status", "status")], [(":queued", d.av.string RunStatus.queued.text),
        (":queued_at", d.av.time now)]⟩)
    .notFound "state: reset run to queued"

/-! ## Steps -/

def putStep (step : Step) : Except StoreError Unit × S.State :=
  if step.runID = "" then (.error (.other "state: put step: invalid step"), db)
  else
    writeItem db (.put d.stepsTable (d.stepItem step) notExists {}) .conflict "state: put step"

def getStep (runID : String) (stepIndex : Int) : Except StoreError Step :=
  readItem db (d.stepKey runID stepIndex) d.av.unmarshalStep "state: unmarshal step"

end DynamoStore

end AgentForge
