import AgentForge.Listings
import AgentForge.Repair
import AgentForge.Sequential

/-! Whether `Check` takes a run for missing that is there. It lists tasks and runs
separately, each listing in an order of its own and cut off at a limit of its own, and
looks up a task's active run among the runs it listed. A run that is not listed is
reported as one that does not exist, and `Repair` then fails its task. -/
namespace AgentForge

open Transition (View Solo)

section FalseAlarms

variable {F : Type} {s : MemoryStore F} {tenantID t : String} {limit : Int64} {task : Task F}
  {run : Run F} {quote : String → String}

/-- The run is among those that `Check` lists: it has the tenant asked for, and few
enough runs of that tenant come before it. -/
def ListedByCheck (s : MemoryStore F) (tenantID : String) (limit : Int64) (run : Run F) : Prop :=
  (tenantID = "" ∨ run.tenantID = tenantID) ∧
    ((checkLimits limit).2.toInt ≤ 0 ∨
      (Ranking.rank MemoryStore.runBefore (s.matchingRuns tenantID []) run : Int) <
        (checkLimits limit).2.toInt)

/-- The active runs of the tasks that `Check` lists are listed too, where they exist. -/
def ActiveRunsListed (s : MemoryStore F) (tenantID : String) (limit : Int64) : Prop :=
  ∀ task ∈ s.listTasks tenantID [] (checkLimits limit).1.toInt, ∀ run,
    s.getRun task.taskID task.activeRunID = .ok run → ListedByCheck s tenantID limit run

private theorem listedByCheck_iff (keyed : s.Keyed) (found : s.runs.lookup k = some run) :
    ListedByCheck s tenantID limit run ↔
      run ∈ s.listRuns tenantID [] (checkLimits limit).2.toInt := by
  have there : ∃ k, s.runs.lookup k = some run := ⟨k, found⟩
  rw [mem_listRuns_iff keyed, mem_matchingRuns]
  unfold ListedByCheck
  simp [MemoryStore.runMatches, there]

/-- What the scan finds for a key is the run of the store under that key. -/
theorem lookup_of_runByTaskRun (keyed : s.Keyed)
    (found : runByTaskRun (s.listRuns tenantID [] maxRuns) key = some run) :
    s.runs.lookup key = some run ∧ run ∈ s.listRuns tenantID [] maxRuns := by
  have listed := List.mem_reverse.mp (List.mem_of_find?_eq_some found)
  have matched : runKey run.taskID run.runID = key := by simpa [runKey] using List.find?_some found
  obtain ⟨⟨k, there⟩, -⟩ := of_mem_listRuns listed
  rw [← matched, keyed.run k run there]
  exact ⟨there, listed⟩

/-- The issues about tasks, and what they say. -/
theorem mem_check (reported : issue ∈ check s tenantID limit)
    (type : issue.type ≠ .runLastStepDrift) :
    ∃ task ∈ s.listTasks tenantID [] (checkLimits limit).1.toInt, issue.taskID = task.taskID ∧
      ((issue.type = .missingActiveRun ∧ issue.runID = task.activeRunID ∧
        runByTaskRun (s.listRuns tenantID [] (checkLimits limit).2.toInt)
          (runKey task.taskID task.activeRunID) = none) ∨
      ∃ run, runByTaskRun (s.listRuns tenantID [] (checkLimits limit).2.toInt)
          (runKey task.taskID task.activeRunID) = some run ∧ issue.type ≠ .missingActiveRun ∧
        task.status ≠ mapRunToTaskStatus run.status) := by
  simp only [check, List.mem_append, List.mem_filterMap] at reported
  rcases reported with ⟨task, listed, raised⟩ | ⟨run, -, raised⟩
  · refine ⟨task, listed, ?_⟩
    unfold taskIssue at raised
    rw [← runKey] at raised
    cases found : runByTaskRun (s.listRuns tenantID [] (checkLimits limit).2.toInt)
        (runKey task.taskID task.activeRunID) with
    | none =>
      rw [found] at raised
      cases raised
      exact ⟨rfl, .inl ⟨rfl, rfl, rfl⟩⟩
    | some run =>
      rw [found, Option.map_eq_some_iff] at raised
      obtain ⟨mismatch, differs, rfl⟩ := raised
      refine ⟨rfl, .inr ⟨run, rfl, by simp, fun agrees => ?_⟩⟩
      rw [taskRunStatusMismatch_eq_none.mpr agrees] at differs
      cases differs
  · simp only [runIssue] at raised
    split at raised <;> cases raised
    exact absurd rfl type

/-- A missing run is reported only if it does not exist, exactly if no active run that
exists is left out of the listing. -/
theorem noFalseAlarm_iff (keyed : s.Keyed) :
    (∀ issue ∈ check s tenantID limit, issue.type = .missingActiveRun →
      s.getRun issue.taskID issue.runID = .error .notFound) ↔
    ActiveRunsListed s tenantID limit := by
  constructor
  · intro sound task listed run there
    have found := getRun_eq_ok.mp there
    rw [listedByCheck_iff keyed found]
    cases scanned : runByTaskRun (s.listRuns tenantID [] (checkLimits limit).2.toInt)
        (runKey task.taskID task.activeRunID) with
    | none =>
      have raised : taskIssue (s.listRuns tenantID [] (checkLimits limit).2.toInt) task =
          some ⟨.missingActiveRun, task.tenantID, task.taskID, task.activeRunID,
            "task.active_run_id does not exist"⟩ := by
        unfold taskIssue
        rw [← runKey, scanned]
      have missing := sound _ (List.mem_append_left _ (List.mem_filterMap.mpr ⟨task, listed, raised⟩))
        rfl
      rw [there] at missing
      cases missing
    | some run' =>
      obtain ⟨found', listed'⟩ := lookup_of_runByTaskRun keyed scanned
      rw [found, Option.some.injEq] at found'
      exact found' ▸ listed'
  · intro covered issue reported missing
    obtain ⟨task, listed, sameTask, ⟨-, sameRun, unlisted⟩ | ⟨run, -, other, -⟩⟩ :=
      mem_check reported (by rw [missing]; decide)
    · rw [sameTask, sameRun, getRun_eq_notFound]
      cases found : s.runs.lookup (runKey task.taskID task.activeRunID) with
      | none => rfl
      | some run =>
        have member := (listedByCheck_iff keyed found).mp
          (covered task listed run (getRun_eq_ok.mpr found))
        have scanned := runByTaskRun_eq keyed (fun run member => (of_mem_listRuns member).1)
          member found
        rw [unlisted] at scanned
        cases scanned
    · exact absurd missing other

/-! ## The repair -/

/-- The task is in none of the issues that change a task. -/
def RepairPC.Apart (t : String) : RepairPC → Prop
  | .contextErr _ issue rest =>
    ∀ issue' ∈ issue :: rest, issue'.type ≠ .runLastStepDrift → issue'.taskID ≠ t
  | .getRun _ issue rest | .updateTaskForRun _ issue _ rest | .updateTask _ issue rest =>
    issue.taskID ≠ t ∧ ∀ issue' ∈ rest, issue'.type ≠ .runLastStepDrift → issue'.taskID ≠ t
  | .updateLastStep _ _ _ rest => ∀ issue' ∈ rest, issue'.type ≠ .runLastStepDrift → issue'.taskID ≠ t
  | .returned .. => True

private theorem RepairPC.apart_loop
    (apart : ∀ issue' ∈ rest, issue'.type ≠ .runLastStepDrift → issue'.taskID ≠ t) :
    (loop report rest).Apart t := by
  cases rest with
  | nil => trivial
  | cons issue rest => exact apart

private theorem RepairPC.apart_finish
    (apart : ∀ issue' ∈ rest, issue'.type ≠ .runLastStepDrift → issue'.taskID ≠ t) :
    (finish report issue rest answer).Apart t := by
  cases answer <;> exact apart_loop apart

/-- The task stays apart. -/
theorem RepairPC.Apart.next {pc : RepairPC} {resume : call.Ans F → RepairPC} {answer : call.Ans F}
    (apart : pc.Apart t) (calls : pc.view quote = .call call resume) :
    (resume answer).Apart t := by
  cases pc with
  | contextErr report issue rest =>
    cases calls
    have later : ∀ issue' ∈ rest, issue'.type ≠ .runLastStepDrift → issue'.taskID ≠ t :=
      fun issue' member => apart issue' (List.mem_cons_of_mem _ member)
    have mine := apart issue (List.mem_cons_self ..)
    cases answer with
    | true => trivial
    | false =>
      dsimp only
      unfold repairIssue
      split
      · rename_i type
        exact ⟨mine (by rw [type]; decide), later⟩
      · split
        · exact apart_loop later
        · exact later
      · rename_i type
        exact ⟨mine (by rw [type]; decide), later⟩
  | getRun report issue rest =>
    cases calls
    cases answer with
    | error e => exact apart_loop apart.2
    | ok run => exact apart
  | updateTaskForRun report issue target rest | updateTask report issue rest =>
    cases calls
    exact apart_finish apart.2
  | updateLastStep report issue want rest =>
    cases calls
    exact apart_finish apart
  | returned report cancelled => cases calls

/-- A repair leaves alone the tasks it is apart from. -/
theorem RepairPC.Apart.task_kept {pc : RepairPC} {resume : call.Ans F → RepairPC}
    {answer : call.Ans F} {w w' : World F} (apart : pc.Apart t)
    (calls : pc.view quote = .call call resume) (ran : w.RepairRuns call answer w') :
    w'.store.tasks.lookup t = w.store.tasks.lookup t := by
  have changed : ∀ {taskID} {change : Task F → Except StoreError (Task F)}, taskID ≠ t →
      (w.store.changeTask taskID change).2.tasks.lookup t = w.store.tasks.lookup t := by
    intro taskID change other
    unfold MemoryStore.changeTask
    split
    · rfl
    · split
      · rfl
      · exact AList.lookup_insert_ne other.symm
  cases pc with
  | contextErr report issue rest =>
    cases calls
    obtain rfl := ran
    rfl
  | getRun report issue rest =>
    cases calls
    obtain ⟨-, rfl⟩ := ran
    rfl
  | updateTaskForRun report issue target rest | updateTask report issue rest =>
    cases calls
    obtain ⟨-, rfl⟩ := ran
    exact changed apart.1
  | updateLastStep report issue want rest =>
    cases calls
    obtain ⟨-, rfl⟩ := ran
    unfold World.after MemoryStore.updateLastStepIndex MemoryStore.changeRun
    split <;> rfl
  | returned report cancelled => cases calls

/-- A call of `Repair` with no other writer about; time passes between its calls. -/
def RepairAlone (_ : RepairPC) (w : World F) (call : RepairCall) (answer : call.Ans F)
    (w' : World F) : Prop :=
  ∃ clock, World.RepairRuns { w with clock := clock } call answer w'

private theorem task_kept_of_solo {w w' : World F} {pc pc' : RepairPC}
    (solo : Solo (RepairPC.view quote) RepairAlone w pc w' pc') (apart : pc.Apart t) :
    w'.store.tasks.lookup t = w.store.tasks.lookup t := by
  induction solo with
  | here => rfl
  | tau moves rest ih =>
    rename_i pc _ _
    cases pc <;> cases moves
  | call calls ran rest ih =>
    obtain ⟨clock, ran⟩ := ran
    have kept := apart.task_kept calls ran
    exact (ih (apart.next calls)).trans kept

/-- A task that agrees with its active run is in no issue that changes a task, if no
alarm is false. -/
theorem check_apart (keyed : s.Keyed) (covered : ActiveRunsListed s tenantID limit)
    (there : s.tasks.lookup t = some task) (active : s.getRun t task.activeRunID = .ok run)
    (agrees : task.status = mapRunToTaskStatus run.status) :
    ∀ issue ∈ check s tenantID limit, issue.type ≠ .runLastStepDrift → issue.taskID ≠ t := by
  rintro issue reported type rfl
  obtain ⟨task', listed, sameTask, about⟩ := mem_check reported type
  obtain ⟨⟨t, found⟩, -⟩ := mem_listTasks listed
  obtain rfl : task' = task := by
    rw [sameTask, keyed.task t task' found, found] at there
    exact Option.some.inj there
  rcases about with ⟨missing, sameRun, -⟩ | ⟨run', scanned, -, differs⟩
  · have absent := (noFalseAlarm_iff keyed).mpr covered issue reported missing
    rw [sameRun, active] at absent
    cases absent
  · obtain ⟨found', -⟩ := lookup_of_runByTaskRun keyed scanned
    rw [sameTask, getRun_eq_ok, found', Option.some.injEq] at active
    exact differs (active ▸ agrees)

/-- **Alarms and listings.** `Check` reports a missing active run only if there is none,
exactly if it has listed every active run there is of the tasks it listed. Then no repair
of what it reports changes a task that agrees with its active run. -/
theorem check_raises_no_false_alarm_iff [Float64 F] (reached : s.Reached) (tenantID : String)
    (limit : Int64) (quote : String → String) :
    ((∀ issue ∈ check s tenantID limit, issue.type = .missingActiveRun →
      s.getRun issue.taskID issue.runID = .error .notFound) ↔
        ActiveRunsListed s tenantID limit) ∧
    (ActiveRunsListed s tenantID limit → ∀ w w' pc, w.store = s →
      Solo (RepairPC.view quote) RepairAlone w (.start (check s tenantID limit)) w' pc →
      ∀ t task run, s.tasks.lookup t = some task → s.getRun t task.activeRunID = .ok run →
        task.status = mapRunToTaskStatus run.status → w'.store.tasks.lookup t = some task) := by
  have keyed := reached.keyed
  refine ⟨noFalseAlarm_iff keyed, ?_⟩
  rintro covered w w' pc rfl solo t task run there active agrees
  rw [task_kept_of_solo solo (RepairPC.apart_loop (check_apart keyed covered there active agrees))]
  exact there

end FalseAlarms

/-! ## A task resumed four times -/

/-- A run of the task that was started at this time. -/
def startedRun (runID : String) (status : RunStatus) (start : Time) : Run Rat :=
  { taskID := "task_1", runID := runID, tenantID := "acme", status := status
    queuedAt := some start, startedAt := some start, totalCostUSD := 0 }

/-- The task while its fifth run is running. -/
def resumedTask : Task Rat :=
  { taskID := "task_1", tenantID := "acme", userID := "ada", status := .running
    activeRunID := "run_5", prompt := "hello", createdAt := 0, updatedAt := 5 }

/-- The task with its first runs, as many as are given. -/
def storeOfRuns (runs : List (Run Rat)) : MemoryStore Rat :=
  runs.foldl (fun s run => StoreWrite.apply s 0 (.putRun run))
    (StoreWrite.apply {} 0 (.putTask resumedTask))

def fiveRuns : List (Run Rat) :=
  [startedRun "run_1" .failed 1, startedRun "run_2" .failed 2, startedRun "run_3" .failed 3,
    startedRun "run_4" .failed 4, startedRun "run_5" .running 5]

theorem storeOfRuns_reached (runs : List (Run Rat)) : (storeOfRuns runs).Reached := by
  have folded : ∀ {s : MemoryStore Rat}, s.Reached →
      (runs.foldl (fun s run => StoreWrite.apply s 0 (.putRun run)) s).Reached := by
    induction runs with
    | nil => exact id
    | cons run rest ih => exact fun reached => ih (reached.write 0 (.putRun run))
  exact folded ((MemoryStore.Reached.new _).write 0 (.putTask resumedTask))

/-- With one run there is no other to list before it. -/
theorem check_raises_no_false_alarm_one_run :
    (∀ issue ∈ check (storeOfRuns [startedRun "run_5" .running 5]) "acme" 1,
      issue.type = .missingActiveRun →
        (storeOfRuns [startedRun "run_5" .running 5]).getRun issue.taskID issue.runID =
          .error .notFound) ∧
    (storeOfRuns [startedRun "run_5" .running 5]).getRun "task_1" "run_5" =
      .ok (startedRun "run_5" .running 5) := by
  have listing := (check_raises_no_false_alarm_iff
    (storeOfRuns_reached [startedRun "run_5" .running 5]) "acme" 1 id).1
  refine ⟨listing.mpr fun task listed run there => ?_, rfl⟩
  obtain rfl : task = resumedTask := List.mem_singleton.mp listed
  cases there
  exact ⟨.inr rfl, .inr (by decide)⟩

/-- What is reported of the task where the limit is one task and four runs. -/
def falseAlarm : DriftIssue :=
  ⟨.missingActiveRun, "acme", "task_1", "run_5", "task.active_run_id does not exist"⟩

def failedStore : MemoryStore Rat :=
  ((storeOfRuns fiveRuns).updateTaskStatus 0 "task_1" repairableStatuses .failed).2

/-- The active run is the fifth and four are listed. The task, which agrees with it, is
reported and failed. -/
theorem running_task_failed_by_repair :
    (storeOfRuns fiveRuns).Reached ∧
      (storeOfRuns fiveRuns).getTask "task_1" = .ok resumedTask ∧
      (storeOfRuns fiveRuns).getRun "task_1" "run_5" = .ok (startedRun "run_5" .running 5) ∧
      falseAlarm ∈ check (storeOfRuns fiveRuns) "acme" 1 ∧
      ∃ report, Solo (RepairPC.view id) RepairAlone { store := storeOfRuns fiveRuns }
        (.start (check (storeOfRuns fiveRuns) "acme" 1)) { store := failedStore }
        (.returned report false) ∧
      failedStore.getTask "task_1" = .ok { resumedTask with status := .failed, updatedAt := 0 } := by
  have reported : check (storeOfRuns fiveRuns) "acme" 1 = [falseAlarm] := by decide
  refine ⟨storeOfRuns_reached _, rfl, rfl, by simp [reported], ⟨1, 1, 0, []⟩, ?_, rfl⟩
  rw [reported]
  have asked : RepairAlone (.start [falseAlarm]) { store := storeOfRuns fiveRuns } .contextErr false
      { store := storeOfRuns fiveRuns } := ⟨0, rfl⟩
  have failed : RepairAlone (.updateTask ⟨1, 0, 0, []⟩ falseAlarm [])
      { store := storeOfRuns fiveRuns } (.updateTaskStatus "task_1" .failed) (.ok ())
      { store := failedStore } := ⟨0, rfl, rfl⟩
  exact .call rfl asked (.call rfl failed .here)

end AgentForge
