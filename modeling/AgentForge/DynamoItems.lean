import AgentForge.DynamoStore
import AgentForge.StoreRecords

/-! What the items of the `DynamoStore` hold. An item holds a record if every
field reads back as the record's; the item a method writes holds the record it was
made from, an update changes the fields it names, and reading gives the record. -/
namespace AgentForge

open DynamoDB

variable {V F : Type} {c : Marshalling V F} {item : Item V} {task : Task F} {run : Run F}

/-! ## Texts -/

@[simp] theorem TaskStatus.ofText_text (status : TaskStatus) : ofText status.text = some status := by
  cases status <;> simp [ofText, text]

@[simp] theorem RunStatus.ofText_text (status : RunStatus) : ofText status.text = some status := by
  cases status <;> simp [ofText, text]

@[simp] theorem StepType.ofText_text (type : StepType) : ofText type.text = some type := by
  cases type <;> simp [ofText, text]

@[simp] theorem StepStatus.ofText_text (status : StepStatus) : ofText status.text = some status := by
  cases status <;> simp [ofText, text]

theorem Marshalling.string_injective (c : Marshalling V F) : Function.Injective c.string := by
  intro left right same
  have read := congrArg c.readString same
  simpa using read

@[simp] theorem Marshalling.string_inj : c.string left = c.string right ↔ left = right :=
  c.string_injective.eq_iff

/-! ## Attributes -/

@[simp] theorem latest_nil (tag : String) : latest ([] : List (String × V)) tag = none := rfl

@[simp] theorem latest_cons (name tag : String) (value : V) (rest : List (String × V)) :
    latest ((name, value) :: rest) tag =
      (latest rest tag).or (if name = tag then some value else none) := rfl

attribute [simp] latest_append lookup_assign

/-- A text left out when it is empty, seen under its own tag and under others. -/
@[simp] theorem latest_text (name tag value : String) :
    latest (c.text name value) tag =
      if name = tag ∧ value ≠ "" then some (c.string value) else none := by
  unfold Marshalling.text
  by_cases empty : value = "" <;> by_cases named : name = tag <;> simp [empty, named]

@[simp] theorem latest_present (name tag : String) (write : α → V) (value : Option α) :
    latest (Marshalling.present name write value) tag =
      if name = tag then value.map write else none := by
  cases value with
  | none | some value => simp [Marshalling.present]

@[simp] theorem latest_unless (empty : Prop) [Decidable empty] (name tag : String) (value : V) :
    latest (if empty then [] else [(name, value)]) tag =
      if name = tag ∧ ¬ empty then some value else none := by
  by_cases left : empty <;> simp [left]

/-- A pointer reads back as what was written, and as nil if nothing was. -/
theorem pointer_eq {read : V → Option α} {write : α → V} {value : Option α}
    (trip : ∀ value, read (write value) = some value)
    (written : item.lookup tag = value.map write) : pointer read item tag = some value := by
  cases value with
  | none => simp [pointer, attr, written]
  | some value => simp [pointer, attr, written, trip]

/-- A text left out when it is empty reads back as the empty text. -/
theorem attr_text (written : item.lookup tag = if value = "" then none else some (c.string value)) :
    attr c.readString "" item tag = some value := by
  by_cases empty : value = "" <;> simp [attr, written, empty]

/-! ## Items -/

section Items

attribute [local simp] DynamoStore.taskItem Marshalling.marshalTask
  Marshalling.applyTaskCompatFields DynamoStore.runItem Marshalling.marshalRun
  Marshalling.applyRunCompatFields DynamoStore.stepItem Marshalling.marshalStep

/-- The item holds this task. -/
structure TaskItem (c : Marshalling V F) (item : Item V) (task : Task F) : Prop where
  taskID : attr c.readString "" item "task_id" = some task.taskID
  tenantID : attr c.readString "" item "tenant_id" = some task.tenantID
  userID : attr c.readString "" item "user_id" = some task.userID
  status : item.lookup "status" = some (c.string task.status.text)
  activeRunID : item.lookup "active_run_id" = some (c.string task.activeRunID)
  abortRequested : attr c.readBool false item "abort_requested" = some task.abortRequested
  abortReason : attr c.readString "" item "abort_reason" = some task.abortReason
  abortTS : pointer c.readTime item "abort_ts" = some task.abortTS
  idempotencyKey : attr c.readString "" item "idempotency_key" = some task.idempotencyKey
  prompt : attr c.readString "" item "prompt" = some task.prompt
  modelConfig : pointer c.readConfig item "model_config" = some task.modelConfig
  createdAt : attr c.readTime 0 item "created_at" = some task.createdAt
  updatedAt : attr c.readTime 0 item "updated_at" = some task.updatedAt

theorem TaskItem.unmarshal (holds : TaskItem c item task) : c.unmarshalTask item = some task := by
  have status : attr c.readString "" item "status" = some task.status.text := by
    simp [attr, holds.status]
  have activeRunID : attr c.readString "" item "active_run_id" = some task.activeRunID := by
    simp [attr, holds.activeRunID]
  simp [Marshalling.unmarshalTask, status, activeRunID, holds.taskID, holds.tenantID, holds.userID,
    holds.abortRequested, holds.abortReason, holds.abortTS, holds.idempotencyKey, holds.prompt,
    holds.modelConfig, holds.createdAt, holds.updatedAt]

theorem taskItem_holds (d : DynamoStore V F) (now : Time) (task : Task F) :
    TaskItem d.av (d.taskItem now task) task := by
  constructor
  case abortTS =>
    apply pointer_eq d.av.readTime_time
    simp
  case modelConfig =>
    apply pointer_eq d.av.readConfig_config
    simp
  all_goals simp [attr]
  all_goals split <;> simp

/-- The item holds this run. -/
structure RunItem [Float64 F] (c : Marshalling V F) (item : Item V) (run : Run F) : Prop where
  taskID : attr c.readString "" item "task_id" = some run.taskID
  runID : attr c.readString "" item "run_id" = some run.runID
  tenantID : attr c.readString "" item "tenant_id" = some run.tenantID
  status : item.lookup "status" = some (c.string run.status.text)
  queuedAt : pointer c.readTime item "queued_at" = some run.queuedAt
  parentRunID : attr c.readString "" item "parent_run_id" = some run.parentRunID
  resumeFromStepIndex :
    pointer c.readInt item "resume_from_step_index" = some run.resumeFromStepIndex
  modelConfig : pointer c.readConfig item "model_config" = some run.modelConfig
  startedAt : pointer c.readTime item "started_at" = some run.startedAt
  endedAt : pointer c.readTime item "ended_at" = some run.endedAt
  lastStepIndex : attr c.readInt 0 item "last_step_index" = some run.lastStepIndex
  totalTokenUsage : pointer c.readUsage item "total_token_usage" = some run.totalTokenUsage
  totalCostUSD : attr c.readFloat (Float64.lit 0) item "total_cost_usd" = some run.totalCostUSD

/-- A run as the store keeps it: a usage never set is a usage of zeros. -/
def Run.counted (run : Run F) : Run F :=
  { run with totalTokenUsage := some (run.totalTokenUsage.getD {}) }

theorem RunItem.unmarshal [Float64 F] (holds : RunItem c item run) :
    c.unmarshalRun item = some run := by
  have status : attr c.readString "" item "status" = some run.status.text := by
    simp [attr, holds.status]
  simp [Marshalling.unmarshalRun, status, holds.taskID, holds.runID, holds.tenantID,
    holds.queuedAt, holds.parentRunID, holds.resumeFromStepIndex, holds.modelConfig,
    holds.startedAt, holds.endedAt, holds.lastStepIndex, holds.totalTokenUsage,
    holds.totalCostUSD]

theorem runItem_holds [Float64 F] (d : DynamoStore V F) (run : Run F) :
    RunItem d.av (d.runItem run) run.counted := by
  constructor
  case queuedAt | startedAt | endedAt =>
    apply pointer_eq d.av.readTime_time
    simp [Run.counted]
  case resumeFromStepIndex =>
    apply pointer_eq d.av.readInt_int
    simp [Run.counted]
  case modelConfig =>
    apply pointer_eq d.av.readConfig_config
    simp [Run.counted]
  case parentRunID =>
    change attr d.av.readString "" (d.runItem run) "parent_run_id" = some run.parentRunID
    apply attr_text
    simp
  case totalTokenUsage =>
    simp [Run.counted, pointer, attr]
  all_goals simp [Run.counted, attr]
  split <;> simp

theorem unmarshal_stepItem (d : DynamoStore V F) (step : Step) :
    d.av.unmarshalStep (d.stepItem step) = some step := by
  have tokenUsage : pointer d.av.readUsage (d.stepItem step) "token_usage" =
      some step.tokenUsage := by
    apply pointer_eq d.av.readUsage_usage
    simp
  have checkpointRef : pointer d.av.readCheckpoint (d.stepItem step) "checkpoint_ref" =
      some step.checkpointRef := by
    apply pointer_eq d.av.readCheckpoint_checkpoint
    simp
  have input : attr d.av.readString "" (d.stepItem step) "input" = some step.input :=
    attr_text (by simp)
  have output : attr d.av.readString "" (d.stepItem step) "output" = some step.output :=
    attr_text (by simp)
  have errorCode : attr d.av.readString "" (d.stepItem step) "error_code" = some step.errorCode :=
    attr_text (by simp)
  have errorMessage :
      attr d.av.readString "" (d.stepItem step) "error_message" = some step.errorMessage :=
    attr_text (by simp)
  rw [Marshalling.unmarshalStep, tokenUsage, checkpointRef, input, output, errorCode, errorMessage]
  simp [attr]

end Items

/-! ## Updates -/

section Updates

variable (now : Time)

theorem TaskItem.setStatus (holds : TaskItem c item task) (status : TaskStatus) :
    TaskItem c (Changes.apply ⟨[("status", c.string status.text), ("updated_at", c.time now)], []⟩
      item) { task with status := status, updatedAt := now } := by
  cases holds
  constructor <;> simp_all [Changes.apply, attr, pointer]

theorem TaskItem.requestAbort (holds : TaskItem c item task) (reason : String) :
    TaskItem c (Changes.apply ⟨[("abort_requested", c.bool true), ("abort_reason", c.string reason),
      ("abort_ts", c.time now), ("updated_at", c.time now)], []⟩ item)
      { task with abortRequested := true, abortReason := reason, abortTS := some now,
                  updatedAt := now } := by
  cases holds
  constructor <;> simp_all [Changes.apply, attr, pointer]

theorem TaskItem.resume (holds : TaskItem c item task) (runID : String) (status : TaskStatus) :
    TaskItem c (Changes.apply ⟨[("active_run_id", c.string runID),
      ("abort_requested", c.bool false), ("abort_reason", c.string ""),
      ("status", c.string status.text), ("updated_at", c.time now)], ["abort_ts"]⟩ item)
      { task with activeRunID := runID, abortRequested := false, abortReason := "",
                  abortTS := none, status := status, updatedAt := now } := by
  cases holds
  constructor <;> simp_all [Changes.apply, attr, pointer, AList.lookup_erase_ne]

variable [Float64 F]

section Run

variable (holds : RunItem c item run)

include holds

theorem RunItem.claim :
    RunItem c (Changes.apply ⟨[("status", c.string RunStatus.running.text),
      ("started_at", c.time now)], []⟩ item) { run with status := .running, startedAt := some now } := by
  cases holds
  constructor <;> simp_all [Changes.apply, attr, pointer]

theorem RunItem.complete (status : RunStatus) :
    RunItem c (Changes.apply ⟨[("status", c.string status.text), ("ended_at", c.time now)], []⟩
      item) { run with status := status, endedAt := some now } := by
  cases holds
  constructor <;> simp_all [Changes.apply, attr, pointer]

theorem RunItem.setLastStepIndex (stepIndex : Int) :
    RunItem c (Changes.apply ⟨[("last_step_index", c.int stepIndex)], []⟩ item)
      { run with lastStepIndex := stepIndex } := by
  cases holds
  constructor <;> simp_all [Changes.apply, attr, pointer]

theorem RunItem.reset :
    RunItem c (Changes.apply ⟨[("status", c.string RunStatus.queued.text),
      ("queued_at", c.time now)], ["started_at", "ended_at"]⟩ item)
      { run with status := .queued, queuedAt := some now, startedAt := none, endedAt := none } := by
  cases holds
  constructor <;> simp_all [Changes.apply, attr, pointer, AList.lookup_erase_ne]

end Run

end Updates

end AgentForge
