import AgentForge.Consistency
import AgentForge.World

/-! `internal/ops/consistency.go`: `ConsistencyChecker.Repair`. Each issue is repaired by
what its type calls for. A mismatch is repaired from the run's status as it is read then;
a drift of the last step, from the number that the issue's detail records; a missing
active run, by failing the task without another look. -/
namespace AgentForge

open Transition (View)

/-- `RepairReport`. -/
structure RepairReport where
  requested : Int
  applied : Int := 0
  failed : Int := 0
  errors : List String := []
  deriving DecidableEq

def DriftIssueType.text : DriftIssueType → String
  | .missingActiveRun => "missing_active_run"
  | .taskRunStatusMismatch => "task_run_status_mismatch"
  | .runLastStepDrift => "run_last_step_drift"

namespace RepairReport

def success (report : RepairReport) : RepairReport := { report with applied := report.applied + 1 }

/-- `"%s task=%s run=%s: %v"`. -/
def failure (report : RepairReport) (issue : DriftIssue) (message : String) : RepairReport :=
  { report with
    failed := report.failed + 1
    errors := report.errors ++ [issue.type.text ++ " task=" ++ issue.taskID ++ " run=" ++
      issue.runID ++ ": " ++ message] }

end RepairReport

/-- The texts of `strconv`'s errors. -/
def numErrorText : GoText.NumError → String
  | .invalidSyntax => "invalid syntax"
  | .outOfRange => "value out of range"

/-- `parseExpectedFromDetail`; `quote` is the `%q` of its errors. -/
def parseExpectedFromDetail (quote : String → String) (detail : String) : Except String Int :=
  match GoText.split detail "expected=" with
  | [_, expected] =>
    match GoText.atoi (GoText.trimSpace expected) with
    | .ok n => .ok n
    | .error e => .error ("strconv.Atoi: parsing " ++ quote (GoText.trimSpace expected) ++ ": " ++
        numErrorText e)
  | _ => .error ("invalid detail: " ++ quote detail)

/-! ## The detail of a drift -/

/-- The first words of a detail, which hold no separator. -/
private theorem splitFrom_lastStep (rest : List Char) :
    GoText.splitFrom "expected=".toList [] ("run.last_step_index=".toList ++ rest) 0 =
      GoText.splitFrom "expected=".toList "run.last_step_index=".toList.reverse rest 0 := rfl

private theorem not_mem_decimal (n : Int) (c : Char) (sign : c ≠ '-') (letter : ¬ c.isDigit) :
    c ∉ (GoText.decimal n).toList := fun member =>
  (GoText.mem_decimal member).elim sign letter

/-- The detail that `Check` writes is read back by `Repair`. -/
theorem parseExpectedFromDetail_eq (quote : String → String) (recorded : Int)
    (low : -2 ^ 63 ≤ expected) (high : expected < 2 ^ 63) :
    parseExpectedFromDetail quote ("run.last_step_index=" ++ GoText.decimal recorded ++
      " expected=" ++ GoText.decimal expected) = .ok expected := by
  have letters : ("run.last_step_index=" ++ GoText.decimal recorded ++ " expected=" ++
      GoText.decimal expected).toList = "run.last_step_index=".toList ++
        (((GoText.decimal recorded).toList ++ [' ']) ++
          ('e' :: "xpected=".toList ++ ((GoText.decimal expected).toList ++ []))) := by
    simp
  have clear : 'e' ∉ (GoText.decimal recorded).toList ++ [' '] := by
    simpa using not_mem_decimal recorded 'e' (by decide) (by decide)
  have parts : ∃ first, GoText.split ("run.last_step_index=" ++ GoText.decimal recorded ++
      " expected=" ++ GoText.decimal expected) "expected=" =
        [first, GoText.decimal expected] := by
    unfold GoText.split
    rw [letters, splitFrom_lastStep]
    have sep : "expected=".toList = 'e' :: "xpected=".toList := rfl
    rw [sep, GoText.splitFrom_append clear, GoText.splitFrom_sep,
      GoText.splitFrom_append (not_mem_decimal expected 'e' (by decide) (by decide))]
    simp only [GoText.splitFrom, List.map_cons, List.map_nil, List.append_nil,
      List.reverse_reverse, String.ofList_toList]
    exact ⟨_, rfl⟩
  have dense : GoText.trimSpace (GoText.decimal expected) = GoText.decimal expected := by
    refine GoText.trimSpace_eq_self fun c member => ?_
    rcases GoText.mem_decimal member with rfl | digit
    · decide
    · exact GoText.isSpace_of_isDigit digit
  obtain ⟨first, parts⟩ := parts
  unfold parseExpectedFromDetail
  rw [parts]
  simp only [dense, GoText.atoi_decimal low high]

/-! ## The calls -/

/-- The calls of `Repair`. Both updates of a task take it from any status. -/
inductive RepairCall where
  | contextErr
  | getRun (taskID runID : String)
  | updateTaskStatusForRun (taskID runID : String) (toStatus : TaskStatus)
  | updateLastStepIndex (taskID runID : String) (stepIndex : Int)
  | updateTaskStatus (taskID : String) (toStatus : TaskStatus)

def RepairCall.Ans (F : Type) : RepairCall → Type
  | .contextErr => Bool
  | .getRun .. => Except StoreError (Run F)
  | .updateTaskStatusForRun .. | .updateLastStepIndex .. | .updateTaskStatus .. =>
    Except StoreError Unit

/-- The statuses a repair takes a task from: all of them. -/
def repairableStatuses : List TaskStatus := [.queued, .running, .succeeded, .failed, .aborted]

theorem mem_repairableStatuses (status : TaskStatus) : status ∈ repairableStatuses := by
  cases status <;> decide

/-- What a call does to a store that works. -/
def World.RepairRuns {F : Type} (w : World F) : (call : RepairCall) → call.Ans F → World F → Prop
  | .contextErr, _, w' => w' = w
  | .getRun taskID runID, answer, w' => answer = w.store.getRun taskID runID ∧ w' = w
  | .updateTaskStatusForRun taskID runID toStatus, answer, w' =>
    answer = (w.store.updateTaskStatusForRun w.clock taskID runID repairableStatuses toStatus).1 ∧
      w' = w.after (w.store.updateTaskStatusForRun w.clock taskID runID repairableStatuses toStatus)
  | .updateLastStepIndex taskID runID stepIndex, answer, w' =>
    answer = (w.store.updateLastStepIndex taskID runID stepIndex).1 ∧
      w' = w.after (w.store.updateLastStepIndex taskID runID stepIndex)
  | .updateTaskStatus taskID toStatus, answer, w' =>
    answer = (w.store.updateTaskStatus w.clock taskID repairableStatuses toStatus).1 ∧
      w' = w.after (w.store.updateTaskStatus w.clock taskID repairableStatuses toStatus)

/-! ## The loop -/

/-- Where a `Repair` stands: each constructor is the call it makes next, `issue` being the
one at hand and `rest` those after it. -/
inductive RepairPC where
  | contextErr (report : RepairReport) (issue : DriftIssue) (rest : List DriftIssue)
  | getRun (report : RepairReport) (issue : DriftIssue) (rest : List DriftIssue)
  | updateTaskForRun (report : RepairReport) (issue : DriftIssue) (target : TaskStatus)
      (rest : List DriftIssue)
  | updateLastStep (report : RepairReport) (issue : DriftIssue) (want : Int)
      (rest : List DriftIssue)
  | updateTask (report : RepairReport) (issue : DriftIssue) (rest : List DriftIssue)
  | returned (report : RepairReport) (cancelled : Bool)

namespace RepairPC

/-- The head of the loop over the issues. -/
def loop (report : RepairReport) : List DriftIssue → RepairPC
  | [] => .returned report false
  | issue :: rest => .contextErr report issue rest

/-- `Repair` up to its first call. -/
def start (issues : List DriftIssue) : RepairPC := loop { requested := issues.length } issues

/-- What each type of issue calls for: `repairTaskRunStatus`, `repairLastStep` and
`repairMissingActiveRun`. -/
def repairIssue (quote : String → String) (report : RepairReport) (issue : DriftIssue)
    (rest : List DriftIssue) : RepairPC :=
  match issue.type with
  | .taskRunStatusMismatch => .getRun report issue rest
  | .runLastStepDrift =>
    match parseExpectedFromDetail quote issue.detail with
    | .error message => loop (report.failure issue message) rest
    | .ok want => .updateLastStep report issue want rest
  | .missingActiveRun => .updateTask report issue rest

/-- The end of one repair. -/
def finish (report : RepairReport) (issue : DriftIssue) (rest : List DriftIssue) :
    Except StoreError Unit → RepairPC
  | .error e => loop (report.failure issue e.text) rest
  | .ok () => loop report.success rest

def view {F : Type} (quote : String → String) :
    RepairPC → View RepairCall (RepairCall.Ans F) RepairPC
  | .contextErr report issue rest => .call .contextErr fun
    | true => .returned report true
    | false => repairIssue quote report issue rest
  | .getRun report issue rest => .call (.getRun issue.taskID issue.runID) fun
    | .error e => loop (report.failure issue e.text) rest
    | .ok run => .updateTaskForRun report issue (mapRunToTaskStatus run.status) rest
  | .updateTaskForRun report issue target rest =>
    .call (.updateTaskStatusForRun issue.taskID issue.runID target) (finish report issue rest)
  | .updateLastStep report issue want rest =>
    .call (.updateLastStepIndex issue.taskID issue.runID want) (finish report issue rest)
  | .updateTask report issue rest =>
    .call (.updateTaskStatus issue.taskID .failed) (finish report issue rest)
  | .returned .. => .done

end RepairPC

end AgentForge
