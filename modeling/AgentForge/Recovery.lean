import AgentForge.TaskService
import AgentForge.Worker

/-! `internal/ops/recovery.go`: `RecoverStaleRuns` lists the runs that are queued or
running, and for each that looks stale resets the run, moves the task back to
`QUEUED` and queues the run again. Whether a run is stale is decided from the listed
copy; the reset writes whatever is there by then. -/
namespace AgentForge

open Transition (View)

/-- `RecoveryReport`. -/
structure RecoveryReport where
  scanned : Int := 0
  recovered : Int := 0
  skipped : Int := 0
  errors : List String := []
  deriving DecidableEq

namespace RecoveryReport

def scan (report : RecoveryReport) : RecoveryReport := { report with scanned := report.scanned + 1 }

def skip (report : RecoveryReport) : RecoveryReport := { report with skipped := report.skipped + 1 }

def recover (report : RecoveryReport) : RecoveryReport :=
  { report with recovered := report.recovered + 1 }

/-- `"<what> failed task=%s run=%s: %v"`. -/
def fail {F : Type} (report : RecoveryReport) (what : String) (run : Run F) (message : String) :
    RecoveryReport :=
  { report with errors := report.errors ++
    [what ++ " failed task=" ++ run.taskID ++ " run=" ++ run.runID ++ ": " ++ message] }

end RecoveryReport

/-- The statuses a pass lists. -/
def recoverableStatuses : List RunStatus := [.running, .queued]

section Recovery

variable {F : Type} [Float64 F] (env : ServiceEnv)

/-- A run queued before the store recorded the time goes by its task. -/
def isRunStale (run : Run F) (task : Task F) (now : Time) (staleFor : Int) : Bool :=
  match run.status with
  | .queued =>
    match run.queuedAt with
    | some queuedAt => staleFor ≤ now - queuedAt
    | none => staleFor ≤ now - task.updatedAt
  | .running =>
    match run.startedAt with
    | none => true
    | some startedAt => staleFor ≤ now - startedAt
  | _ => false

/-- What a pass goes by from its listing on. -/
structure RecoveryPass where
  now : Time
  staleFor : Int
  report : RecoveryReport := {}

/-- How a pass ends: with the error of its listing, cut short by its context, or
with every listed run seen. -/
inductive RecoveryResult where
  | listFailed (e : StoreError)
  | cancelled (report : RecoveryReport)
  | done (report : RecoveryReport)

/-- Where a `RecoverStaleRuns` stands: each constructor is the call it makes next,
`run` being the one at hand and `rest` those listed after it. -/
inductive RecoveryPC (F : Type) where
  | readClock (tenantID : String) (staleFor limit : Int)
  | list (tenantID : String) (staleFor limit : Int) (now : Time)
  | contextErr (pass : RecoveryPass) (run : Run F) (rest : List (Run F))
  | getTask (pass : RecoveryPass) (run : Run F) (rest : List (Run F))
  | reset (pass : RecoveryPass) (run : Run F) (task : Task F) (rest : List (Run F))
  | updateTask (pass : RecoveryPass) (run : Run F) (task : Task F) (rest : List (Run F))
  | enqueue (pass : RecoveryPass) (run : Run F) (task : Task F) (rest : List (Run F))
  | returned (result : RecoveryResult)

namespace RecoveryPC

/-- `RecoverStaleRuns`, with its defaults of ten minutes and 200 runs. -/
def start (tenantID : String) (staleFor limit : Int) : RecoveryPC F :=
  .readClock tenantID (if staleFor ≤ 0 then 10 * 60 * 1000000000 else staleFor)
    (if limit ≤ 0 then 200 else limit)

/-- The head of the loop over the listed runs. -/
def loop (pass : RecoveryPass) : List (Run F) → RecoveryPC F
  | [] => .returned (.done pass.report)
  | run :: rest => .contextErr { pass with report := pass.report.scan } run rest

def view : RecoveryPC F → View (Call F) Call.Ans (RecoveryPC F)
  | .readClock tenantID staleFor limit => .call .now fun now => .list tenantID staleFor limit now
  | .list tenantID staleFor limit now =>
    .call (.listRuns tenantID recoverableStatuses limit) fun
    | .ok runs => loop { now := now, staleFor := staleFor } runs
    | .error e => .returned (.listFailed e)
  | .contextErr pass run rest => .call (.engine .contextDone) fun
    | true => .returned (.cancelled pass.report)
    | false => .getTask pass run rest
  | .getTask pass run rest => .call (.getTask run.taskID) fun
    | .error e => loop { pass with report := pass.report.fail "task lookup" run e.text } rest
    | .ok task =>
      if task.activeRunID ≠ run.runID then loop { pass with report := pass.report.skip } rest
      else if !isRunStale run task pass.now pass.staleFor then
        loop { pass with report := pass.report.skip } rest
      else .reset pass run task rest
  | .reset pass run task rest => .call (.resetRunToQueued run.taskID run.runID) fun
    | .error e => loop { pass with report := pass.report.fail "reset run" run e.text } rest
    | .ok () => .updateTask pass run task rest
  | .updateTask pass run task rest =>
    .call (.updateTaskStatusForRun run.taskID run.runID
      [.running, .queued, .failed, .aborted, .succeeded] .queued) fun _ =>
      .enqueue pass run task rest
  | .enqueue pass run task rest =>
    .call (.enqueue (runMessage env run.tenantID run.taskID run.runID task.prompt run.modelConfig
      pass.now)) fun
    | .error message => loop { pass with report := pass.report.fail "requeue" run message } rest
    | .ok () => loop { pass with report := pass.report.recover } rest
  | .returned _ => .done

end RecoveryPC

/-! ## The system of workers and passes -/

/-- A worker on a message, or a recovery pass. -/
inductive RecoveryThread (F : Type) where
  | worker (pc : WorkerPC F)
  | pass (pc : RecoveryPC F)

/-- What a thread does next. -/
def RecoveryThread.view (senv : ServiceEnv) (eenv : EngineEnv F) :
    RecoveryThread F → View (Call F) Call.Ans (RecoveryThread F)
  | .worker pc => (pc.view eenv).map .worker
  | .pass pc => (pc.view senv).map .pass

/-- Workers start on any message at any time, passes with any arguments. -/
inductive RecoveryThread.Starts : RecoveryThread F → Prop where
  | worker (msg : SQSMessage F) : Starts (.worker (.claim msg))
  | pass (tenantID : String) (staleFor limit : Int) :
      Starts (.pass (.start tenantID staleFor limit))

end Recovery

end AgentForge
