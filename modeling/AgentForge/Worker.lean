import AgentForge.World

/-! `pkg/engine/worker.go`: `handleMessage` and `finalizeRun`. A delivered
message is claimed, the task is moved to `RUNNING` if this run is still its
active one, the engine runs, and the outcome is written to the run and then to
the task. Each failure in between has compensation of its own, and none of it
is atomic with the rest. -/
namespace AgentForge

/-- The errors `handleMessage` returns, which make the queue deliver the message
again. -/
inductive WorkerError where
  | claimRun (e : StoreError)
  | updateTaskStatus (e : StoreError)
  | getTask (e : StoreError)
  | getRun (e : StoreError)
  | createWorkspace (message : String)
  | finalizeCompleteRun (e : StoreError)
  | finalizeUpdateTaskStatus (e : StoreError)
  deriving DecidableEq

/-- Where a `handleMessage` stands: each constructor is the call it makes next,
`executing` the calls of the engine. -/
inductive WorkerPC (F : Type) where
  | claim (msg : SQSMessage F)
  | setRunning (msg : SQSMessage F)
  | completeStale (msg : SQSMessage F)
  | completeUpdateFailed (msg : SQSMessage F) (e : StoreError)
  | getTask (msg : SQSMessage F)
  | completeTaskLoadFailed (msg : SQSMessage F) (e : StoreError)
  | completeMismatch (msg : SQSMessage F)
  | updateMismatch (msg : SQSMessage F)
  | getRun (msg : SQSMessage F) (task : Task F)
  | completeRunLoadFailed (msg : SQSMessage F) (e : StoreError)
  | updateRunLoadFailed (msg : SQSMessage F) (e : StoreError)
  | newWorkspace (msg : SQSMessage F) (task : Task F) (run : Run F)
  | executing (msg : SQSMessage F) (task : Task F) (run : Run F)
      (program : EngineProg F (Except EngineError (RunResult F)))
  | finalizeComplete (msg : SQSMessage F) (status : TerminalStatus)
  | finalizeUpdate (msg : SQSMessage F) (status : TerminalStatus)
  | returned (result : Except WorkerError Unit)

/-- The task status `finalizeRun` writes for a run status. -/
def finalTaskStatus : RunStatus → TaskStatus
  | .failed => .failed
  | .aborted => .aborted
  | _ => .succeeded

open Transition (View)

section Worker

variable {F : Type} [Float64 F] (env : EngineEnv F)

/-- The status a finished execution is finalized with. An error of the engine
itself counts as a failure. -/
def executionStatus : Except EngineError (RunResult F) → TerminalStatus
  | .ok result => result.status
  | .error _ => failedStatus

/-- Whether `handleMessage` takes an error of the store as a sign that the run is
not its to execute. -/
def StoreError.isStale : StoreError → Bool
  | .conflict | .notFound => true
  | .alreadyExists | .other _ => false

def WorkerPC.view : WorkerPC F → View (Call F) Call.Ans (WorkerPC F)
  | .claim msg => .call (.claimRun msg.taskID msg.runID) fun
    | .ok () => .setRunning msg
    | .error e => if e.isStale then .returned (.ok ()) else .returned (.error (.claimRun e))
  | .setRunning msg =>
    .call (.updateTaskStatusForRun msg.taskID msg.runID [.queued, .running] .running) fun
    | .ok () => .getTask msg
    | .error e => if e.isStale then .completeStale msg else .completeUpdateFailed msg e
  | .completeStale msg => .call (.completeRun msg.taskID msg.runID .aborted) fun _ =>
    .returned (.ok ())
  | .completeUpdateFailed msg e => .call (.completeRun msg.taskID msg.runID .failed) fun _ =>
    .returned (.error (.updateTaskStatus e))
  | .getTask msg => .call (.getTask msg.taskID) fun
    | .ok task => if task.tenantID ≠ msg.tenantID then .completeMismatch msg else .getRun msg task
    | .error e => .completeTaskLoadFailed msg e
  | .completeTaskLoadFailed msg e => .call (.completeRun msg.taskID msg.runID .failed) fun _ =>
    .returned (.error (.getTask e))
  | .completeMismatch msg => .call (.completeRun msg.taskID msg.runID .failed) fun _ =>
    .updateMismatch msg
  | .updateMismatch msg =>
    .call (.updateTaskStatusForRun msg.taskID msg.runID [.running] .failed) fun _ =>
      .returned (.ok ())
  | .getRun msg task => .call (.getRun msg.taskID msg.runID) fun
    | .ok run => .newWorkspace msg task run
    | .error e => .completeRunLoadFailed msg e
  | .completeRunLoadFailed msg e => .call (.completeRun msg.taskID msg.runID .failed) fun _ =>
    .updateRunLoadFailed msg e
  | .updateRunLoadFailed msg e =>
    .call (.updateTaskStatusForRun msg.taskID msg.runID [.running] .failed) fun _ =>
      .returned (.error (.getRun e))
  | .newWorkspace msg task run => .call (.newLocalManager msg.runID) fun
    | .ok () => .executing msg task run (execute env task run)
    | .error message => .returned (.error (.createWorkspace message))
  | .executing msg _ _ (.ret outcome) => .tau (.finalizeComplete msg (executionStatus outcome))
  | .executing msg task run (.call call resume) => .call (.engine call) fun answer =>
    .executing msg task run (resume answer)
  | .finalizeComplete msg status => .call (.completeRun msg.taskID msg.runID status.1) fun
    | .ok () => .finalizeUpdate msg status
    | .error e => .returned (.error (.finalizeCompleteRun e))
  | .finalizeUpdate msg status =>
    .call (.updateTaskStatusForRun msg.taskID msg.runID [.running] (finalTaskStatus status.1)) fun
    | .ok () => .returned (.ok ())
    | .error e =>
      if e.isStale then .returned (.ok ()) else .returned (.error (.finalizeUpdateTaskStatus e))
  | .returned _ => .done

end Worker

end AgentForge
