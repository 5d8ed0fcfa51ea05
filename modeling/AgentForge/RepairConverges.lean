import AgentForge.FalseAlarms
import AgentForge.MapListings

/-! What a `Check`, a `Repair` of what it found and another `Check` come to while nobody
else writes. A repair changes the status and the time of a task, or the last step of a run,
and neither is what the listings go by: the second scan looks at the same records in the
same order. What is left to report are the tasks whose active run is not among the runs
scanned. -/
namespace AgentForge

open Transition (Ends Solo)
open MapListings (values listing_map mem_listing)

section RepairConverges

variable {F : Type} {s s' : MemoryStore F} {tenantID t k : String} {limit : Int64}
  {task task' : Task F} {run run' : Run F} {runs : List (Run F)} {issue : DriftIssue}
  {done : List DriftIssue} {quote : String → String}

/-! ## What an issue is about -/

/-- The status a repair gives a task. -/
def agreedStatus (runs : List (Run F)) (task : Task F) : TaskStatus :=
  match runByTaskRun runs (runKey task.taskID task.activeRunID) with
  | none => .failed
  | some run => mapRunToTaskStatus run.status

/-- What a scan says of a task: its active run was not scanned, they agree, or they do not. -/
theorem taskIssue_cases (runs : List (Run F)) (task : Task F) :
    (runByTaskRun runs (runKey task.taskID task.activeRunID) = none ∧
      taskIssue runs task = some ⟨.missingActiveRun, task.tenantID, task.taskID, task.activeRunID,
        "task.active_run_id does not exist"⟩) ∨
    ∃ run, runByTaskRun runs (runKey task.taskID task.activeRunID) = some run ∧
      ((task.status = mapRunToTaskStatus run.status ∧ taskIssue runs task = none) ∨
        (task.status ≠ mapRunToTaskStatus run.status ∧ ∃ detail, taskIssue runs task =
          some ⟨.taskRunStatusMismatch, task.tenantID, task.taskID, run.runID, detail⟩)) := by
  unfold taskIssue
  rw [← runKey]
  cases active : runByTaskRun runs (runKey task.taskID task.activeRunID) with
  | none => exact .inl ⟨rfl, rfl⟩
  | some run =>
    refine .inr ⟨run, rfl, ?_⟩
    dsimp only
    cases differs : taskRunStatusMismatch task.status run.status with
    | none => exact .inl ⟨taskRunStatusMismatch_eq_none.mp differs, rfl⟩
    | some detail =>
      refine .inr ⟨fun agrees => ?_, detail, rfl⟩
      rw [taskRunStatusMismatch_eq_none.mpr agrees] at differs
      cases differs

/-- The last of the steps that a scan looks at, or `-1`. -/
def lastStepOf (s : MemoryStore F) (runID : String) : Int :=
  (s.listSteps runID 0 100000).foldl (fun m step => max m step.stepIndex) (-1)

private theorem lastStepOf_lt
    (small : ∀ k step, s.steps.lookup k = some step → step.stepIndex < 2 ^ 63)
    (runID : String) : lastStepOf s runID < 2 ^ 63 := by
  obtain ⟨-, -, none | ⟨step, listed, same⟩⟩ := foldl_max_spec (s.listSteps runID 0 100000) (-1)
  · rw [lastStepOf, none]
    decide
  · obtain ⟨⟨k, found⟩, -⟩ :=
      mem_listing.mp ((List.mem_insertionSort _).mp (mem_of_mem_capped listed))
    rw [lastStepOf, ← same]
    exact small k step found

/-- What `Check` reports, with where in the store it comes from. -/
inductive Reported (s : MemoryStore F) (runs : List (Run F)) : DriftIssue → Prop where
  | missing {task : Task F} {detail : String} (found : s.tasks.lookup task.taskID = some task)
      (absent : runByTaskRun runs (runKey task.taskID task.activeRunID) = none) :
      Reported s runs
        ⟨.missingActiveRun, task.tenantID, task.taskID, task.activeRunID, detail⟩
  | mismatch {task : Task F} {run : Run F} {detail : String}
      (found : s.tasks.lookup task.taskID = some task)
      (active : runByTaskRun runs (runKey task.taskID task.activeRunID) = some run)
      (stored : s.runs.lookup (runKey task.taskID task.activeRunID) = some run)
      (named : run.runID = task.activeRunID) :
      Reported s runs ⟨.taskRunStatusMismatch, task.tenantID, task.taskID, run.runID, detail⟩
  | drift {run : Run F} (found : s.runs.lookup (runKey run.taskID run.runID) = some run)
      (some : 0 ≤ lastStepOf s run.runID) :
      Reported s runs ⟨.runLastStepDrift, run.tenantID, run.taskID, run.runID,
        "run.last_step_index=" ++ GoText.decimal run.lastStepIndex ++ " expected=" ++
          GoText.decimal (lastStepOf s run.runID)⟩

/-- The runs of the scan. -/
def scannedRuns (s : MemoryStore F) (tenantID : String) (limit : Int64) : List (Run F) :=
  s.listRuns tenantID [] (checkLimits limit).2.toInt

private theorem reported_of_mem_check (keyed : s.Keyed)
    (plain : ∀ k run, s.runs.lookup k = some run → '#' ∉ run.taskID.toList ∧ '#' ∉ run.runID.toList)
    (member : issue ∈ check s tenantID limit) : Reported s (scannedRuns s tenantID limit) issue := by
  simp only [check, List.mem_append, List.mem_filterMap] at member
  rcases member with ⟨task, listed, raised⟩ | ⟨run, listed, raised⟩
  · obtain ⟨⟨t, there⟩, -⟩ := mem_listTasks listed
    have found : s.tasks.lookup task.taskID = some task := by
      rw [keyed.task t task there]
      exact there
    rw [← scannedRuns] at raised
    rcases taskIssue_cases (scannedRuns s tenantID limit) task with
      ⟨absent, issue'⟩ | ⟨run, active, ⟨-, none⟩ | ⟨-, detail, issue'⟩⟩
    · rw [issue'] at raised
      cases raised
      exact .missing found absent
    · rw [none] at raised
      cases raised
    · rw [issue'] at raised
      cases raised
      obtain ⟨stored, -⟩ := lookup_of_runByTaskRun keyed active
      obtain ⟨plainTask, plainRun⟩ := plain _ run stored
      have named := (runKey_unique plainTask plainRun (keyed.run _ run stored)).2
      exact .mismatch found active stored named
  · obtain ⟨⟨k, there⟩, -⟩ := of_mem_listRuns listed
    have found : s.runs.lookup (runKey run.taskID run.runID) = some run := by
      rw [keyed.run k run there]
      exact there
    unfold runIssue at raised
    rw [← lastStepOf] at raised
    dsimp only at raised
    split_ifs at raised with drifted
    cases raised
    exact .drift found drifted.1

/-- The issue is repaired by a change of this task. -/
def DriftIssue.AboutTask (issue : DriftIssue) (t : String) : Prop :=
  issue.type ≠ .runLastStepDrift ∧ issue.taskID = t

/-- The issue is repaired by a change of the run under this key. -/
def DriftIssue.AboutRun (issue : DriftIssue) (k : String) : Prop :=
  issue.type = .runLastStepDrift ∧ runKey issue.taskID issue.runID = k

/-! ## A repair under way -/

/-- A task before and after the repairs: only its status and its time may have changed, and
only if it was reported. -/
structure TaskRepair (reported : Prop) (agreed : TaskStatus) (task task' : Task F) : Prop where
  rest : task' = { task with status := task'.status, updatedAt := task'.updatedAt }
  kept : ¬ reported → task' = task
  repaired : reported → task'.status = agreed

/-- A run before and after the repairs: only its last step may have changed, and only if it
was reported. -/
structure RunRepair (reported : Prop) (last : Int) (run run' : Run F) : Prop where
  rest : run' = { run with lastStepIndex := run'.lastStepIndex }
  kept : ¬ reported → run' = run
  repaired : reported → run'.lastStepIndex = last

/-- The store before the repairs and after those of some issues. -/
structure Repairing (s : MemoryStore F) (runs : List (Run F)) (done : List DriftIssue)
    (s' : MemoryStore F) : Prop where
  task : ∀ t task, s.tasks.lookup t = some task → ∃ task', s'.tasks.lookup t = some task' ∧
    TaskRepair (∃ issue ∈ done, issue.AboutTask t) (agreedStatus runs task) task task'
  noTask : ∀ t, s.tasks.lookup t = none → s'.tasks.lookup t = none
  run : ∀ k run, s.runs.lookup k = some run → ∃ run', s'.runs.lookup k = some run' ∧
    RunRepair (∃ issue ∈ done, issue.AboutRun k) (lastStepOf s run.runID) run run'
  noRun : ∀ k, s.runs.lookup k = none → s'.runs.lookup k = none
  frame : s' = { s with tasks := s'.tasks, runs := s'.runs }

namespace Repairing

private theorem start (s : MemoryStore F) (runs : List (Run F)) : Repairing s runs [] s where
  task _ task found := ⟨task, found, rfl, fun _ => rfl, by simp⟩
  noTask _ missing := missing
  run _ run found := ⟨run, found, rfl, fun _ => rfl, by simp⟩
  noRun _ missing := missing
  frame := rfl

private theorem exists_mem_append {p : DriftIssue → Prop} (other : ¬ p issue) :
    (∃ issue' ∈ done ++ [issue], p issue') ↔ ∃ issue' ∈ done, p issue' := by
  simp [or_and_right, exists_or, other]

/-- One more issue about a task, which is given the status it should have. -/
theorem setTask (repairing : Repairing s runs done s') (about : issue.AboutTask t)
    (found : s.tasks.lookup t = some task) (found' : s'.tasks.lookup t = some task') (now : Time) :
    Repairing s runs (done ++ [issue]) { s' with
      tasks := s'.tasks.insert t
        { task' with status := agreedStatus runs task, updatedAt := now } } where
  task u old there := by
    by_cases same : u = t
    · subst same
      obtain rfl := Option.some.inj (found.symm.trans there)
      obtain ⟨task'', there', repair⟩ := repairing.task u task there
      obtain rfl := Option.some.inj (found'.symm.trans there')
      refine ⟨_, AList.lookup_insert _, ?_, fun unreported => ?_, fun _ => rfl⟩
      · rw [repair.rest]
      · exact absurd ⟨issue, by simp, about⟩ unreported
    · obtain ⟨old', there', repair⟩ := repairing.task u old there
      rw [exists_mem_append fun mine => same (mine.2.symm.trans about.2)]
      exact ⟨old', (AList.lookup_insert_ne same).trans there', repair⟩
  noTask u missing := by
    have other : u ≠ t := by
      rintro rfl
      rw [found] at missing
      cases missing
    exact (AList.lookup_insert_ne other).trans (repairing.noTask u missing)
  run k run there := by
    obtain ⟨run', there', repair⟩ := repairing.run k run there
    rw [exists_mem_append fun mine => about.1 mine.1]
    exact ⟨run', there', repair⟩
  noRun := repairing.noRun
  frame := by rw [repairing.frame]

/-- One more issue about a run, which is given the last step it should have. -/
theorem setRun (repairing : Repairing s runs done s') (about : issue.AboutRun k)
    (found : s.runs.lookup k = some run) (found' : s'.runs.lookup k = some run') :
    Repairing s runs (done ++ [issue]) { s' with
      runs := s'.runs.insert k { run' with lastStepIndex := lastStepOf s run.runID } } where
  task t task there := by
    obtain ⟨task', there', repair⟩ := repairing.task t task there
    rw [exists_mem_append fun mine => mine.1 about.1]
    exact ⟨task', there', repair⟩
  noTask := repairing.noTask
  run j old there := by
    by_cases same : j = k
    · subst same
      obtain rfl := Option.some.inj (found.symm.trans there)
      obtain ⟨run'', there', repair⟩ := repairing.run j run there
      obtain rfl := Option.some.inj (found'.symm.trans there')
      refine ⟨_, AList.lookup_insert _, ?_, fun unreported => ?_, fun _ => rfl⟩
      · rw [repair.rest]
      · exact absurd ⟨issue, by simp, about⟩ unreported
    · obtain ⟨old', there', repair⟩ := repairing.run j old there
      rw [exists_mem_append fun mine => same (mine.2.symm.trans about.2)]
      exact ⟨old', (AList.lookup_insert_ne same).trans there', repair⟩
  noRun j missing := by
    have other : j ≠ k := by
      rintro rfl
      rw [found] at missing
      cases missing
    exact (AList.lookup_insert_ne other).trans (repairing.noRun j missing)
  frame := by rw [repairing.frame]

end Repairing

/-! ## The loop -/

/-- The context is not cancelled. -/
def RepairCall.Uncancelled : (call : RepairCall) → call.Ans F → Prop
  | .contextErr, answer => answer = (false : Bool)
  | .getRun .., _ | .updateTaskStatusForRun .., _ | .updateLastStepIndex .., _
  | .updateTaskStatus .., _ => True

/-- A call of a `Repair` that nobody disturbs and nobody cancels. -/
def RepairUndisturbed (pc : RepairPC) (w : World F) (call : RepairCall) (answer : call.Ans F)
    (w' : World F) : Prop := RepairAlone pc w call answer w' ∧ call.Uncancelled answer

/-- The world but for the store and the clock. -/
def World.SameBeside (w w' : World F) : Prop :=
  w' = { w with store := w'.store, clock := w'.clock }

section Issues

variable {w : World F} {rest : List DriftIssue} {report : RepairReport} {Q : World F → RepairPC → Prop}

/-- The repair goes on from every world in which the issue at hand is done. -/
def GoesOn (s : MemoryStore F) (runs : List (Run F)) (done : List DriftIssue) (issue : DriftIssue)
    (rest : List DriftIssue) (quote : String → String) (Q : World F → RepairPC → Prop)
    (w : World F) : Prop :=
  ∀ w' report, w.SameBeside w' → Repairing s runs (done ++ [issue]) w'.store →
    Ends (RepairPC.view quote) RepairUndisturbed Q w' (RepairPC.loop report rest)

private theorem missing_ends (repairing : Repairing s runs done w.store)
    (found : s.tasks.lookup task.taskID = some task)
    (absent : runByTaskRun runs (runKey task.taskID task.activeRunID) = none)
    (named : issue.AboutTask task.taskID) (goesOn : GoesOn s runs done issue rest quote Q w) :
    Ends (RepairPC.view quote) RepairUndisturbed Q w (.updateTask report issue rest) := by
  obtain ⟨task', found', -⟩ := repairing.task _ task found
  have agreed : agreedStatus runs task = .failed := by
    rw [agreedStatus, absent]
  have result : ∀ clock, w.store.updateTaskStatus clock issue.taskID repairableStatuses .failed =
      (.ok (), { w.store with
        tasks := w.store.tasks.insert task.taskID
          { task' with status := agreedStatus runs task, updatedAt := clock } }) := by
    intro clock
    rw [named.2, agreed]
    exact changeTask_done found' (if_pos (mem_repairableStatuses _))
  refine .call rfl ⟨_, _, ⟨0, rfl, rfl⟩, trivial⟩ ?_
  rintro answer w' ⟨⟨clock, rfl, rfl⟩, -⟩
  simp only [World.after, result]
  exact goesOn _ _ rfl (repairing.setTask named found found' clock)

private theorem mismatch_ends (repairing : Repairing s runs done w.store)
    (found : s.tasks.lookup task.taskID = some task)
    (active : runByTaskRun runs (runKey task.taskID task.activeRunID) = some run)
    (stored : s.runs.lookup (runKey task.taskID task.activeRunID) = some run)
    (named : issue.AboutTask task.taskID) (ofRun : issue.runID = task.activeRunID)
    (goesOn : GoesOn s runs done issue rest quote Q w) :
    Ends (RepairPC.view quote) RepairUndisturbed Q w (.getRun report issue rest) := by
  obtain ⟨task', found', taskRepair⟩ := repairing.task _ task found
  obtain ⟨run', stored', runRepair⟩ := repairing.run _ run stored
  have agreed : agreedStatus runs task = mapRunToTaskStatus run'.status := by
    rw [agreedStatus, active, runRepair.rest]
  have read : w.store.getRun issue.taskID issue.runID = .ok run' := by
    rw [getRun_eq_ok, named.2, ofRun]
    exact stored'
  have owner : task'.activeRunID = issue.runID := by
    rw [ofRun, taskRepair.rest]
  have result : ∀ clock, w.store.updateTaskStatusForRun clock issue.taskID issue.runID
      repairableStatuses (mapRunToTaskStatus run'.status) =
      (.ok (), { w.store with
        tasks := w.store.tasks.insert task.taskID
          { task' with status := agreedStatus runs task, updatedAt := clock } }) := by
    intro clock
    rw [named.2, agreed]
    refine changeTask_done found' ?_
    rw [if_neg (not_not.mpr owner), if_pos (mem_repairableStatuses _)]
  refine .call rfl ⟨_, _, ⟨0, rfl, rfl⟩, trivial⟩ ?_
  rintro answer w₁ ⟨⟨clock, rfl, rfl⟩, -⟩
  simp only [read]
  refine .call rfl ⟨_, _, ⟨0, rfl, rfl⟩, trivial⟩ ?_
  rintro answer w₂ ⟨⟨clock', rfl, rfl⟩, -⟩
  simp only [World.after, result]
  exact goesOn _ _ rfl (repairing.setTask named found found' clock')

private theorem drift_ends (repairing : Repairing s runs done w.store)
    (found : s.runs.lookup k = some run) (named : issue.AboutRun k)
    (goesOn : GoesOn s runs done issue rest quote Q w) :
    Ends (RepairPC.view quote) RepairUndisturbed Q w
      (.updateLastStep report issue (lastStepOf s run.runID) rest) := by
  obtain ⟨run', found', -⟩ := repairing.run _ run found
  have result : w.store.updateLastStepIndex issue.taskID issue.runID (lastStepOf s run.runID) =
      (.ok (), { w.store with
        runs := w.store.runs.insert k { run' with lastStepIndex := lastStepOf s run.runID } }) := by
    rw [← named.2]
    exact changeRun_always _ (named.2.symm ▸ found')
  refine .call rfl ⟨_, _, ⟨0, rfl, rfl⟩, trivial⟩ ?_
  rintro answer w' ⟨⟨clock, rfl, rfl⟩, -⟩
  simp only [World.after, result]
  exact goesOn _ _ rfl (repairing.setRun named found found')

/-- Whatever was reported is repaired. -/
theorem repairIssue_ends (small : ∀ k step, s.steps.lookup k = some step → step.stepIndex < 2 ^ 63)
    (repairing : Repairing s runs done w.store) (reported : Reported s runs issue)
    (goesOn : GoesOn s runs done issue rest quote Q w) :
    Ends (RepairPC.view quote) RepairUndisturbed Q w
      (RepairPC.repairIssue quote report issue rest) := by
  cases reported with
  | missing found absent => exact missing_ends repairing found absent ⟨nofun, rfl⟩ goesOn
  | mismatch found active stored named =>
    exact mismatch_ends repairing found active stored ⟨nofun, rfl⟩ named goesOn
  | @drift run found some =>
    have parsed := parseExpectedFromDetail_eq quote run.lastStepIndex (by omega)
      (lastStepOf_lt small run.runID)
    simp only [RepairPC.repairIssue, parsed]
    exact drift_ends repairing found ⟨rfl, rfl⟩ goesOn

end Issues

/-- Every issue is repaired, one after the other. -/
theorem repair_ends (report : RepairReport)
    (small : ∀ k step, s.steps.lookup k = some step → step.stepIndex < 2 ^ 63)
    (repairing : Repairing s runs done w.store) (reported : ∀ issue ∈ rest, Reported s runs issue) :
    Ends (RepairPC.view quote) RepairUndisturbed
      (fun w' _ => Repairing s runs (done ++ rest) w'.store ∧ w.SameBeside w')
      w (RepairPC.loop report rest) := by
  induction rest generalizing w done report with
  | nil =>
    rw [List.append_nil]
    exact .done rfl ⟨repairing, rfl⟩
  | cons issue rest ih =>
    have goesOn : ∀ clock, GoesOn s runs done issue rest quote
        (fun w' _ => Repairing s runs (done ++ issue :: rest) w'.store ∧ w.SameBeside w')
        { w with clock := clock } := by
      intro clock w₁ report same repairing'
      have ends := ih report repairing'
        fun issue' member => reported issue' (List.mem_cons_of_mem _ member)
      refine ends.imp fun w₂ _ holds => ⟨?_, ?_⟩
      · rw [List.append_cons]
        exact holds.1
      · have same' : w₁.SameBeside w₂ := holds.2
        unfold World.SameBeside at same same' ⊢
        rw [same', same]
    refine .call rfl ⟨false, w, ⟨w.clock, rfl⟩, rfl⟩ ?_
    rintro answer w₁ ⟨⟨clock, rfl⟩, uncancelled⟩
    obtain rfl : answer = (false : Bool) := uncancelled
    exact repairIssue_ends (w := { w with clock := clock }) small repairing
      (reported issue List.mem_cons_self) (goesOn clock)

/-! ## The second scan -/

/-- The record of a task, and of a run, in a later store. -/
def MemoryStore.laterTask (s : MemoryStore F) (task : Task F) : Task F :=
  (s.tasks.lookup task.taskID).getD task

def MemoryStore.laterRun (s : MemoryStore F) (run : Run F) : Run F :=
  (s.runs.lookup (runKey run.taskID run.runID)).getD run

namespace Repairing

section Later

variable (repairing : Repairing s runs done s')

include repairing

/-- What the repairs have made of a task. -/
theorem laterTask (keyed : s.Keyed) (found : s.tasks.lookup t = some task) :
    s'.tasks.lookup t = some (s'.laterTask task) ∧
      TaskRepair (∃ issue ∈ done, issue.AboutTask t) (agreedStatus runs task) task
        (s'.laterTask task) := by
  obtain ⟨task', found', repair⟩ := repairing.task t task found
  have same : s'.laterTask task = task' := by
    rw [MemoryStore.laterTask, keyed.task t task found, found', Option.getD_some]
  rw [same]
  exact ⟨found', repair⟩

private theorem laterRun (keyed : s.Keyed) (found : s.runs.lookup k = some run) :
    s'.runs.lookup k = some (s'.laterRun run) ∧
      RunRepair (∃ issue ∈ done, issue.AboutRun k) (lastStepOf s run.runID) run (s'.laterRun run) := by
  obtain ⟨run', found', repair⟩ := repairing.run k run found
  have same : s'.laterRun run = run' := by
    rw [MemoryStore.laterRun, keyed.run k run found, found', Option.getD_some]
  rw [same]
  exact ⟨found', repair⟩

private theorem lookup_task (keyed : s.Keyed) (t : String) :
    s'.tasks.lookup t = (s.tasks.lookup t).map s'.laterTask := by
  cases found : s.tasks.lookup t with
  | none => exact repairing.noTask t found
  | some task => exact (repairing.laterTask keyed found).1

private theorem lookup_run (keyed : s.Keyed) (k : String) :
    s'.runs.lookup k = (s.runs.lookup k).map s'.laterRun := by
  cases found : s.runs.lookup k with
  | none => exact repairing.noRun k found
  | some run => exact (repairing.laterRun keyed found).1

private theorem keyed (keyed : s.Keyed) : s'.Keyed := by
  constructor
  · intro t task' found'
    rw [repairing.lookup_task keyed, Option.map_eq_some_iff] at found'
    obtain ⟨task, found, rfl⟩ := found'
    rw [(repairing.laterTask keyed found).2.rest]
    exact keyed.task t task found
  · intro k run' found'
    rw [repairing.lookup_run keyed, Option.map_eq_some_iff] at found'
    obtain ⟨run, found, rfl⟩ := found'
    rw [(repairing.laterRun keyed found).2.rest]
    exact keyed.run k run found

/-- The same tasks are listed in the same order. -/
theorem listTasks (keyed : s.Keyed) (tenantID : String) (n : Int) :
    s'.listTasks tenantID [] n = (s.listTasks tenantID [] n).map s'.laterTask := by
  have unseen : ∀ task ∈ values s.tasks, (s'.laterTask task).tenantID = task.tenantID ∧
      (s'.laterTask task).createdAt = task.createdAt ∧
      (s'.laterTask task).taskID = task.taskID := by
    intro task member
    obtain ⟨⟨t, task⟩, entry, rfl⟩ := List.mem_map.mp member
    rw [(repairing.laterTask keyed (AList.mem_lookup_iff.mpr entry)).2.rest]
    exact ⟨rfl, rfl, rfl⟩
  rw [MemoryStore.listTasks, MemoryStore.listTasks, ← capped_map]
  congr 1
  refine listing_map (repairing.lookup_task keyed) taskBefore_total taskBefore_trans
    (taskBefore_separates (repairing.keyed keyed) _) (fun task member => ?_)
    fun a inside b inside' before => ?_
  · rw [MemoryStore.taskMatches, (unseen task member).1]
    rfl
  · obtain ⟨-, created, named⟩ := unseen a inside
    obtain ⟨-, created', named'⟩ := unseen b inside'
    rwa [MemoryStore.taskBefore, created, named, created', named']

/-- The same runs are listed in the same order. -/
theorem listRuns (keyed : s.Keyed) (tenantID : String) (n : Int) :
    s'.listRuns tenantID [] n = (s.listRuns tenantID [] n).map s'.laterRun := by
  have unseen : ∀ run ∈ values s.runs, (s'.laterRun run).tenantID = run.tenantID ∧
      (s'.laterRun run).startedAt = run.startedAt ∧
      runKey (s'.laterRun run).taskID (s'.laterRun run).runID = runKey run.taskID run.runID := by
    intro run member
    obtain ⟨⟨k, run⟩, entry, rfl⟩ := List.mem_map.mp member
    rw [(repairing.laterRun keyed (AList.mem_lookup_iff.mpr entry)).2.rest]
    exact ⟨rfl, rfl, rfl⟩
  rw [MemoryStore.listRuns, MemoryStore.listRuns, ← capped_map]
  congr 1
  refine listing_map (repairing.lookup_run keyed) runBefore_total runBefore_trans
    (runBefore_separates (repairing.keyed keyed)) (fun run member => ?_)
    fun a inside b inside' before => ?_
  · rw [MemoryStore.runMatches, (unseen run member).1]
    rfl
  · obtain ⟨-, started, named⟩ := unseen a inside
    obtain ⟨-, started', named'⟩ := unseen b inside'
    rwa [MemoryStore.runBefore, started, named, started', named']

end Later

end Repairing

private theorem runByTaskRun_map {change : Run F → Run F}
    (same : ∀ run ∈ runs, runKey (change run).taskID (change run).runID = runKey run.taskID run.runID)
    (key : String) : runByTaskRun (runs.map change) key = (runByTaskRun runs key).map change := by
  unfold runByTaskRun
  rw [← List.map_reverse, List.find?_map]
  congr 1
  have same' : ∀ run ∈ runs.reverse, runKey (change run).taskID (change run).runID =
      runKey run.taskID run.runID := fun run member => same run (List.mem_reverse.mp member)
  generalize runs.reverse = back at same'
  induction back with
  | nil => rfl
  | cons run back ih =>
    have here := same' run List.mem_cons_self
    unfold runKey at here
    rw [List.find?_cons, List.find?_cons, ih fun run member => same' run (List.mem_cons_of_mem _ member),
      Function.comp_apply, here]

section Second

variable (keyed : s.Keyed)
  (repairing : Repairing s (scannedRuns s tenantID limit) (check s tenantID limit) s')

include keyed repairing

/-- A task whose active run was scanned agrees with it now; of one whose active run was
not, the same is said again. -/
theorem taskIssue_later (listed : task ∈ s.listTasks tenantID [] (checkLimits limit).1.toInt) :
    taskIssue ((scannedRuns s tenantID limit).map s'.laterRun) (s'.laterTask task) =
      (taskIssue (scannedRuns s tenantID limit) task).filter
        fun issue => issue.type = .missingActiveRun := by
  obtain ⟨⟨t, found⟩, -⟩ := mem_listTasks listed
  obtain ⟨-, repair⟩ := repairing.laterTask keyed found
  have sameKeys : ∀ run ∈ scannedRuns s tenantID limit,
      runKey (s'.laterRun run).taskID (s'.laterRun run).runID = runKey run.taskID run.runID := by
    intro run scanned
    obtain ⟨⟨k, there⟩, -⟩ := of_mem_listRuns scanned
    rw [(repairing.laterRun keyed there).2.rest]
  have fields : (s'.laterTask task).tenantID = task.tenantID ∧
      (s'.laterTask task).taskID = task.taskID ∧
      (s'.laterTask task).activeRunID = task.activeRunID := by
    rw [repair.rest]
    exact ⟨rfl, rfl, rfl⟩
  have second := taskIssue_cases ((scannedRuns s tenantID limit).map s'.laterRun)
    (s'.laterTask task)
  rw [fields.1, fields.2.1, fields.2.2, runByTaskRun_map sameKeys] at second
  rcases taskIssue_cases (scannedRuns s tenantID limit) task with
    ⟨absent, issue⟩ | ⟨run, active, first⟩
  · rw [absent] at second
    rcases second with ⟨-, issue'⟩ | ⟨_, other, -⟩
    · rw [issue, issue']
      rfl
    · cases other
  · obtain ⟨stored, scanned⟩ := lookup_of_runByTaskRun keyed active
    have sameStatus : (s'.laterRun run).status = run.status := by
      rw [(repairing.laterRun keyed stored).2.rest]
    have agrees : (s'.laterTask task).status = mapRunToTaskStatus run.status := by
      by_cases reported : ∃ issue ∈ check s tenantID limit, issue.AboutTask t
      · rw [repair.repaired reported, agreedStatus, active]
      · rw [repair.kept reported]
        rcases first with ⟨agrees, -⟩ | ⟨-, detail, issue⟩
        · exact agrees
        · exact absurd ⟨_, List.mem_append_left _ (List.mem_filterMap.mpr ⟨task, listed, issue⟩),
            nofun, keyed.task t task found⟩ reported
    have unseen : (taskIssue (scannedRuns s tenantID limit) task).filter
        (fun issue => issue.type = .missingActiveRun) = none := by
      rcases first with ⟨-, issue⟩ | ⟨-, detail, issue⟩ <;> rw [issue] <;> rfl
    rw [active] at second
    rcases second with ⟨none, -⟩ | ⟨_, same, ⟨-, issue'⟩ | ⟨differs, -⟩⟩
    · cases none
    · rw [issue', unseen]
    · cases same
      rw [sameStatus] at differs
      exact absurd agrees differs

/-- No run is reported again. -/
theorem runIssue_later (listed : run ∈ scannedRuns s tenantID limit) :
    runIssue s' (s'.laterRun run) = none := by
  obtain ⟨⟨k, found⟩, -⟩ := of_mem_listRuns listed
  obtain ⟨-, repair⟩ := repairing.laterRun keyed found
  have steps : ∀ runID, lastStepOf s' runID = lastStepOf s runID := by
    intro runID
    rw [repairing.frame]
    rfl
  have named : (s'.laterRun run).runID = run.runID := by
    rw [repair.rest]
  rw [runIssue, ← lastStepOf, steps, named]
  refine if_neg ?_
  rintro ⟨some, differs⟩
  by_cases reported : ∃ issue ∈ check s tenantID limit, issue.AboutRun k
  · exact differs (repair.repaired reported)
  · rw [repair.kept reported] at differs
    refine reported ⟨_, List.mem_append_right _ (List.mem_filterMap.mpr
      ⟨run, listed, if_pos ⟨some, differs⟩⟩), rfl, keyed.run k run found⟩

/-- The second scan reports the missing runs of the first, and nothing else. -/
theorem check_later :
    check s' tenantID limit =
      (check s tenantID limit).filter fun issue => issue.type = .missingActiveRun := by
  have runs : s'.listRuns tenantID [] (checkLimits limit).2.toInt =
      (scannedRuns s tenantID limit).map s'.laterRun := repairing.listRuns keyed tenantID _
  have repaired : ((scannedRuns s tenantID limit).map s'.laterRun).filterMap (runIssue s') = [] := by
    rw [List.filterMap_map, List.filterMap_eq_nil_iff]
    exact fun run listed => runIssue_later keyed repairing listed
  have drifts : ((scannedRuns s tenantID limit).filterMap (runIssue s)).filter
      (fun issue => issue.type = .missingActiveRun) = [] := by
    refine List.filter_eq_nil_iff.mpr fun issue member => ?_
    obtain ⟨run, -, raised⟩ := List.mem_filterMap.mp member
    simp only [runIssue] at raised
    split_ifs at raised
    cases raised
    exact Bool.false_ne_true
  unfold check
  dsimp only
  rw [runs, repairing.listTasks keyed, repaired, List.append_nil, List.filter_append,
    ← scannedRuns, drifts, List.append_nil, List.filterMap_map, List.filter_filterMap]
  exact List.filterMap_congr fun task listed => taskIssue_later keyed repairing listed

end Second

/-- One store comes from the other by changes of the status and the time of tasks, and of
the last step of runs, that are reported. -/
structure OnlyRepaired (issues : List DriftIssue) (s s' : MemoryStore F) : Prop where
  task : ∀ t, s'.tasks.lookup t = s.tasks.lookup t ∨
    (∃ issue ∈ issues, issue.AboutTask t) ∧ ∃ task status updatedAt,
      s.tasks.lookup t = some task ∧
        s'.tasks.lookup t = some { task with status := status, updatedAt := updatedAt }
  run : ∀ k, s'.runs.lookup k = s.runs.lookup k ∨
    (∃ issue ∈ issues, issue.AboutRun k) ∧ ∃ run lastStepIndex,
      s.runs.lookup k = some run ∧
        s'.runs.lookup k = some { run with lastStepIndex := lastStepIndex }
  rest : s' = { s with tasks := s'.tasks, runs := s'.runs }

private theorem Repairing.onlyRepaired (repairing : Repairing s runs done s') :
    OnlyRepaired done s s' where
  task t := by
    cases found : s.tasks.lookup t with
    | none => exact .inl (repairing.noTask t found)
    | some task =>
      obtain ⟨task', found', repair⟩ := repairing.task t task found
      by_cases reported : ∃ issue ∈ done, issue.AboutTask t
      · exact .inr ⟨reported, task, task'.status, task'.updatedAt, rfl, repair.rest ▸ found'⟩
      · rw [found', repair.kept reported]
        exact .inl rfl
  run k := by
    cases found : s.runs.lookup k with
    | none => exact .inl (repairing.noRun k found)
    | some run =>
      obtain ⟨run', found', repair⟩ := repairing.run k run found
      by_cases reported : ∃ issue ∈ done, issue.AboutRun k
      · exact .inr ⟨reported, run, run'.lastStepIndex, rfl, repair.rest ▸ found'⟩
      · rw [found', repair.kept reported]
        exact .inl rfl
  rest := repairing.frame

/-- **Repair converges.** With no other writer a `Repair` of what `Check` found comes to an
end, and then `Check` reports neither a mismatch nor a drift, and the same missing runs as
before. All that has changed are the status and the time of tasks, and the last step of
runs, that were reported. -/
theorem repair_converges [Float64 F] {w : World F} (reached : w.store.Reached)
    (plain : ∀ k run, w.store.runs.lookup k = some run →
      '#' ∉ run.taskID.toList ∧ '#' ∉ run.runID.toList)
    (small : ∀ k step, w.store.steps.lookup k = some step → step.stepIndex < 2 ^ 63)
    (tenantID : String) (limit : Int64) (quote : String → String) :
    Ends (RepairPC.view quote) RepairUndisturbed
      (fun w' _ =>
        (∀ issue ∈ check w'.store tenantID limit, issue.type ≠ .taskRunStatusMismatch ∧
          issue.type ≠ .runLastStepDrift) ∧
        (∀ issue, issue.type = .missingActiveRun →
          (issue ∈ check w'.store tenantID limit ↔ issue ∈ check w.store tenantID limit)) ∧
        OnlyRepaired (check w.store tenantID limit) w.store w'.store ∧ w.SameBeside w')
      w (.start (check w.store tenantID limit)) := by
  have keyed := reached.keyed
  have ends : Ends (RepairPC.view quote) RepairUndisturbed _ w
      (.start (check w.store tenantID limit)) :=
    repair_ends _ small (Repairing.start w.store (scannedRuns w.store tenantID limit))
      fun issue member => reported_of_mem_check keyed plain member
  refine ends.imp fun w' pc holds => ?_
  obtain ⟨repairing, same⟩ := holds
  rw [List.nil_append] at repairing
  have second := check_later keyed repairing
  refine ⟨fun issue member => ?_, fun issue missing => ?_, repairing.onlyRepaired, same⟩
  · rw [second, List.mem_filter] at member
    rw [of_decide_eq_true member.2]
    exact ⟨nofun, nofun⟩
  · rw [second, List.mem_filter]
    exact and_iff_left (decide_eq_true missing)

end RepairConverges

/-! ## One of each -/

def driftedTo3 : Step where
  runID := "run_5"
  stepIndex := 3
  type := .final
  status := .ok
  tsStart := 5
  tsEnd := 6

/-- The run has succeeded with a step that it does not record, the task is running, and the
active run of a second task is missing. -/
def driftedStore : MemoryStore Rat :=
  StoreWrite.apply (StoreWrite.apply (storeOfRuns [startedRun "run_5" .succeeded 5]) 0
    (.putTask { resumedTask with taskID := "task_2" })) 0 (.putStep driftedTo3)

theorem repair_converges_one_of_each :
    (check driftedStore "acme" 2).map DriftIssue.type =
        [.taskRunStatusMismatch, .missingActiveRun, .runLastStepDrift] ∧
      ∃ w' pc, Solo (RepairPC.view id) RepairUndisturbed { store := driftedStore }
          (.start (check driftedStore "acme" 2)) w' pc ∧
        pc.view (F := Rat) id = .done ∧
        ∀ issue ∈ check w'.store "acme" 2, issue.type ≠ .taskRunStatusMismatch ∧
          issue.type ≠ .runLastStepDrift := by
  have reached : driftedStore.Reached :=
    ((storeOfRuns_reached [startedRun "run_5" .succeeded 5]).write 0 _).write 0 _
  have plain : ∀ k run, driftedStore.runs.lookup k = some run →
      '#' ∉ run.taskID.toList ∧ '#' ∉ run.runID.toList := by
    intro k run found
    have entry : (⟨k, run⟩ : Sigma fun _ : String => Run Rat) =
        ⟨runKey "task_1" "run_5", startedRun "run_5" .succeeded 5⟩ :=
      List.mem_singleton.mp (AList.mem_lookup_iff.mp found)
    cases entry
    decide
  have small : ∀ k step, driftedStore.steps.lookup k = some step → step.stepIndex < 2 ^ 63 := by
    intro k step found
    have entry : (⟨k, step⟩ : Sigma fun _ : String => Step) = ⟨stepKey "run_5" 3, driftedTo3⟩ :=
      List.mem_singleton.mp (AList.mem_lookup_iff.mp found)
    cases entry
    decide
  have ends := repair_converges (w := { store := driftedStore }) reached plain small "acme" 2 id
  obtain ⟨w', pc, solo, halted, holds⟩ := ends.exists_run
  exact ⟨by decide, w', pc, solo, halted, holds.1⟩

end AgentForge
