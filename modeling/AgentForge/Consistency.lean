import AgentForge.MemoryStore

/-! `internal/ops/consistency.go`: `ConsistencyChecker.Check`. The scan reads two
listings that are cut off at their limits, so an issue it reports is one of the
listed records and not always one of the store. -/
namespace AgentForge

inductive DriftIssueType where
  | missingActiveRun | taskRunStatusMismatch | runLastStepDrift
  deriving DecidableEq, Repr

/-- `DriftIssue`. -/
structure DriftIssue where
  type : DriftIssueType
  tenantID : String
  taskID : String
  runID : String
  detail : String
  deriving DecidableEq

/-- `mapRunToTaskStatus`: the status a task has while its active run has this one. -/
def mapRunToTaskStatus : RunStatus → TaskStatus
  | .queued => .queued
  | .running => .running
  | .succeeded => .succeeded
  | .failed => .failed
  | .aborted => .aborted

/-- `taskRunStatusMismatch`: the detail of the mismatch, if there is one. -/
def taskRunStatusMismatch (taskStatus : TaskStatus) (runStatus : RunStatus) : Option String :=
  let mismatch := "task=" ++ taskStatus.text ++ " run=" ++ runStatus.text
  match runStatus with
  | .queued => if taskStatus ≠ .queued then some mismatch else none
  | .running => if taskStatus ≠ .running then some mismatch else none
  | .succeeded => if taskStatus ≠ .succeeded then some mismatch else none
  | .failed => if taskStatus ≠ .failed then some mismatch else none
  | .aborted => if taskStatus ≠ .aborted then some mismatch else none

theorem taskRunStatusMismatch_eq_none :
    taskRunStatusMismatch taskStatus runStatus = none ↔
      taskStatus = mapRunToTaskStatus runStatus := by
  cases runStatus <;> simp [taskRunStatusMismatch, mapRunToTaskStatus]

section Check

variable {F : Type}

/-- `runByTaskRun`: a later run of the listing replaces an earlier one under the
same key. -/
def runByTaskRun (runs : List (Run F)) (key : String) : Option (Run F) :=
  runs.reverse.find? fun run => run.taskID ++ "#" ++ run.runID = key

/-- What `Check` reports about one listed task. -/
def taskIssue (runs : List (Run F)) (task : Task F) : Option DriftIssue :=
  match runByTaskRun runs (task.taskID ++ "#" ++ task.activeRunID) with
  | none => some ⟨.missingActiveRun, task.tenantID, task.taskID, task.activeRunID,
      "task.active_run_id does not exist"⟩
  | some activeRun =>
    (taskRunStatusMismatch task.status activeRun.status).map fun mismatch =>
      ⟨.taskRunStatusMismatch, task.tenantID, task.taskID, activeRun.runID, mismatch⟩

/-- What `Check` reports about one listed run: its last step is not the one it
records. -/
def runIssue (s : MemoryStore F) (run : Run F) : Option DriftIssue :=
  let maxStep := (s.listSteps run.runID 0 100000).foldl (fun m step => max m step.stepIndex) (-1)
  if 0 ≤ maxStep ∧ run.lastStepIndex ≠ maxStep then
    some ⟨.runLastStepDrift, run.tenantID, run.taskID, run.runID,
      "run.last_step_index=" ++ GoText.decimal run.lastStepIndex ++ " expected=" ++
        GoText.decimal maxStep⟩
  else none

/-- The limits of the two listings. The run limit is a Go `int` product, so it can
wrap around. -/
def checkLimits (limit : Int64) : Int64 × Int64 :=
  let limit := if limit ≤ 0 then 500 else limit
  (limit, limit * 4)

/-- `ConsistencyChecker.Check`, with a context that is not cancelled. -/
def check (s : MemoryStore F) (tenantID : String) (limit : Int64) : List DriftIssue :=
  let tasks := s.listTasks tenantID [] (checkLimits limit).1.toInt
  let runs := s.listRuns tenantID [] (checkLimits limit).2.toInt
  tasks.filterMap (taskIssue runs) ++ runs.filterMap (runIssue s)

end Check

end AgentForge
