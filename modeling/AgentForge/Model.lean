import AgentForge.GoText

/-! The records of `pkg/model`, under their Go field names. A `float64` is a
type `F` with the operations the code applies to it and no law about them:
what is proved about the code holds for any arithmetic of that shape, IEEE 754
included, and evaluates over the rationals. -/
namespace AgentForge

/-- `time.Time`, in nanoseconds since Go's zero time. -/
abbrev Time := Int

/-- A `[]byte`. -/
abbrev Bytes := List UInt8

/-- The `float64` operations the code uses. `fmt6` is `%.6f`. -/
class Float64 (F : Type) where
  lit : Rat → F
  ofInt : Int → F
  add : F → F → F
  sub : F → F → F
  mul : F → F → F
  div : F → F → F
  lt : F → F → Bool
  ceil : F → Int
  fmt6 : F → String

/-- Exact arithmetic, for evaluating the model. -/
instance : Float64 Rat where
  lit q := q
  ofInt n := n
  add := (· + ·)
  sub := (· - ·)
  mul := (· * ·)
  div := (· / ·)
  lt a b := decide (a < b)
  ceil := Rat.ceil
  fmt6 _ := ""

/-- `TaskStatus`. -/
inductive TaskStatus where
  | queued | running | succeeded | failed | aborted
  deriving DecidableEq, Repr

def TaskStatus.text : TaskStatus → String
  | .queued => "QUEUED"
  | .running => "RUNNING"
  | .succeeded => "SUCCEEDED"
  | .failed => "FAILED"
  | .aborted => "ABORTED"

/-- `RunStatus`. -/
inductive RunStatus where
  | queued | running | succeeded | failed | aborted
  deriving DecidableEq, Repr

def RunStatus.text : RunStatus → String
  | .queued => "RUN_QUEUED"
  | .running => "RUNNING"
  | .succeeded => "SUCCEEDED"
  | .failed => "FAILED"
  | .aborted => "ABORTED"

/-- The run states no lifecycle transition leaves. -/
def RunStatus.terminal : RunStatus → Bool
  | .succeeded | .failed | .aborted => true
  | .queued | .running => false

/-- A status a finished execution may report. -/
abbrev TerminalStatus := { status : RunStatus // status.terminal = true }

inductive StepType where
  | llmCall | toolCall | observation | final
  deriving DecidableEq, Repr

def StepType.text : StepType → String
  | .llmCall => "llm_call"
  | .toolCall => "tool_call"
  | .observation => "observation"
  | .final => "final"

inductive StepStatus where
  | ok | error
  deriving DecidableEq, Repr

def StepStatus.text : StepStatus → String
  | .ok => "OK"
  | .error => "ERROR"

/-- `TokenUsage`; Go's `int` is 64 bits wide. -/
structure TokenUsage where
  input : Int64 := 0
  output : Int64 := 0
  total : Int64 := 0
  deriving DecidableEq

/-- `ModelConfig`. -/
structure ModelConfig (F : Type) where
  modelID : String
  temperature : F
  maxTokens : Int64
  policyMode : String
  costCapUSD : F
  fallbackModelIDs : List String
  deriving DecidableEq

/-- `Task`. -/
structure Task (F : Type) where
  taskID : String
  tenantID : String
  userID : String
  status : TaskStatus
  activeRunID : String
  abortRequested : Bool := false
  abortReason : String := ""
  abortTS : Option Time := none
  idempotencyKey : String := ""
  prompt : String
  modelConfig : Option (ModelConfig F) := none
  createdAt : Time
  updatedAt : Time
  deriving DecidableEq

/-- `Run`. -/
structure Run (F : Type) where
  taskID : String
  runID : String
  tenantID : String
  status : RunStatus
  queuedAt : Option Time := none
  parentRunID : String := ""
  resumeFromStepIndex : Option Int := none
  modelConfig : Option (ModelConfig F) := none
  startedAt : Option Time := none
  endedAt : Option Time := none
  lastStepIndex : Int := 0
  totalTokenUsage : Option TokenUsage := none
  totalCostUSD : F
  deriving DecidableEq

/-- `ArtifactRef`. -/
structure ArtifactRef where
  s3Key : String
  sha256 : String
  size : Int
  deriving DecidableEq

/-- `CheckpointRef`. -/
structure CheckpointRef where
  memory : Option ArtifactRef
  workspace : Option ArtifactRef
  deriving DecidableEq

/-- `Step`. -/
structure Step where
  runID : String
  stepIndex : Int
  type : StepType
  status : StepStatus
  input : String := ""
  output : String := ""
  tsStart : Time
  tsEnd : Time
  latencyMS : Int := 0
  tokenUsage : Option TokenUsage := none
  checkpointRef : Option CheckpointRef := none
  errorCode : String := ""
  errorMessage : String := ""
  deriving DecidableEq

/-- `Connection`. -/
structure Connection where
  connectionID : String
  tenantID : String
  userID : String
  taskID : String
  runID : String
  connectedAt : Time
  ttl : Int
  deriving DecidableEq

inductive StreamEventType where
  | tokenChunk | stepStart | stepEnd | toolCall | toolResult | complete | error
  deriving DecidableEq, Repr

/-- A value in the data of a stream event. -/
inductive EventValue (F : Type) where
  | text (value : String)
  | int (value : Int)
  | float (value : F)
  deriving DecidableEq

/-- The data of a stream event: the fields of a `map[string]interface{}`. -/
abbrev EventData (F : Type) := List (String × EventValue F)

/-- `StreamEvent`. -/
structure StreamEvent (F : Type) where
  taskID : String
  runID : String
  seq : Int
  ts : Int
  type : StreamEventType
  data : EventData F
  deriving DecidableEq

/-- `SQSMessage`. -/
structure SQSMessage (F : Type) where
  tenantID : String
  taskID : String
  runID : String
  taskType : String := ""
  submittedAt : Int
  attempt : Int
  dedupeKey : String := ""
  estimatedTokens : Int64
  estimatedCost : F
  deriving DecidableEq

inductive MessageRole where
  | system | user | assistant | tool
  deriving DecidableEq, Repr

/-- `MemoryToolCall`, and the `ToolCall` of a response. -/
structure ToolCall where
  id : String
  name : String
  args : String
  deriving DecidableEq

/-- `MemoryMessage`. -/
structure MemoryMessage where
  role : MessageRole
  content : String := ""
  toolCallID : String := ""
  toolCalls : List ToolCall := []
  deriving DecidableEq

/-- `MemorySnapshot`. `Scratchpad` and `ToolState` are written by nothing. -/
structure MemorySnapshot where
  runID : String
  stepIndex : Int
  messages : List MemoryMessage
  deriving DecidableEq

/-- `time.Time.Unix`, in seconds since 1970. -/
def unix (t : Time) : Int := t / 1000000000 - 62135596800

/-- `util.NewID`: twelve random bytes in hexadecimal after the given start. -/
def newID (kind : String) (random : Vector UInt8 12) : String := kind ++ GoText.hex random.toList

end AgentForge
