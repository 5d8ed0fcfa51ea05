import AgentForge.StoreRecords
import AgentForge.System

/-! What each call of the services does to the ledger of the lifecycle protocol.
The simulation of the services knows the store through these facts alone. -/
namespace AgentForge

open Lifecycle (Ledger)

variable {F : Type} {w w' : World F} {t k taskID runID : String} {task : Task F} {run : Run F}

/-! ## Reading and writing the ledger -/

theorem ledger_task (found : w.store.tasks.lookup t = some task) :
    w.ledger.task t = some (runKey t task.activeRunID, task.status) := by
  simp [World.ledger, found]

theorem ledger_run (found : w.store.runs.lookup k = some run) :
    w.ledger.run k = some (run.taskID, run.status) := by
  simp [World.ledger, found]

theorem task_of_ledger (there : w.ledger.task t = some (k, status)) :
    ∃ task, w.store.tasks.lookup t = some task ∧ runKey t task.activeRunID = k ∧
      task.status = status := by
  simpa [World.ledger] using there

theorem run_of_ledger (there : w.ledger.run k = some (owner, status)) :
    ∃ run, w.store.runs.lookup k = some run ∧ run.taskID = owner ∧ run.status = status := by
  simpa [World.ledger] using there

theorem ledger_insertTask (w : World F) (t : String) (task : Task F) :
    World.ledger { w with store := { w.store with tasks := w.store.tasks.insert t task } } =
      w.ledger.setTask t (runKey t task.activeRunID) task.status := by
  simp only [World.ledger, Ledger.setTask, Ledger.mk.injEq, and_true]
  funext t'
  by_cases same : t' = t
  · subst same
    simp
  · simp [same, AList.lookup_insert_ne same]

theorem ledger_insertRun (w : World F) (k : String) (run : Run F) :
    World.ledger { w with store := { w.store with runs := w.store.runs.insert k run } } =
      w.ledger.setRun run.taskID k run.status := by
  simp only [World.ledger, Ledger.setRun, Ledger.mk.injEq, and_true, true_and]
  funext k'
  by_cases same : k' = k
  · subst same
    simp
  · simp [same, AList.lookup_insert_ne same]

/-- The two transactions write a task and a run at once. -/
theorem ledger_insertBoth (w : World F) (t k : String) (task : Task F) (run : Run F)
    (idempotency : GoMap String) :
    World.ledger { w with store := { w.store with
      tasks := w.store.tasks.insert t task, runs := w.store.runs.insert k run
      idempotency := idempotency } } =
      (w.ledger.setTask t (runKey t task.activeRunID) task.status).setRun run.taskID k
        run.status := by
  rw [← ledger_insertTask, ← ledger_insertRun]
  rfl

/-- Writing a task or a run back as it was changes nothing. -/
theorem setTask_same {l : Ledger String String} (found : l.task t = some (k, status)) :
    l.setTask t k status = l := by
  cases l
  simp only [Ledger.setTask, Ledger.mk.injEq, and_true]
  exact Function.update_eq_self_iff.mpr found.symm

private theorem setRun_same {l : Ledger String String} (found : l.run k = some (t, status)) :
    l.setRun t k status = l := by
  cases l
  simp only [Ledger.setRun, Ledger.mk.injEq, and_true, true_and]
  exact Function.update_eq_self_iff.mpr found.symm

theorem ledger_send :
    World.ledger { w with sent := msg :: w.sent } = w.ledger.send msg.taskID msg.key := by
  simp [World.ledger, Ledger.send, eq_comm]

theorem ledger_refuse :
    World.ledger { w with refused := msg :: w.refused } = w.ledger.refuse msg.taskID msg.key := by
  simp [World.ledger, Ledger.refuse, eq_comm]

/-! ## The calls -/

section Calls

variable [Float64 F] {sha256 : Bytes → String} {answer : Except StoreError Unit}

/-- A claim succeeds on a queued run and on no other. -/
theorem runs_claimRun (ran : w.Runs sha256 (.claimRun taskID runID) answer w') :
    (answer = .ok () ∧ ∃ owner, w.ledger.run (runKey taskID runID) = some (owner, .queued) ∧
      w'.ledger = w.ledger.setRun owner (runKey taskID runID) .running) ∨
    ∃ e, answer = .error e ∧ e.isStale = true ∧ w' = w ∧
      ∀ owner, w.ledger.run (runKey taskID runID) ≠ some (owner, .queued) := by
  obtain ⟨rfl, rfl⟩ := ran
  unfold MemoryStore.claimRun
  cases found : w.store.runs.lookup (runKey taskID runID) with
  | none =>
    rw [changeRun_missing found]
    exact .inr ⟨_, rfl, rfl, rfl, by simp [World.ledger, found]⟩
  | some run =>
    by_cases queued : run.status = .queued
    · rw [changeRun_done found (if_neg (by simp [queued]))]
      exact .inl ⟨rfl, run.taskID, by rw [ledger_run found, queued], ledger_insertRun ..⟩
    · rw [changeRun_refused found (if_pos queued)]
      exact .inr ⟨_, rfl, rfl, rfl, by simp [ledger_run found, queued]⟩

/-- Completing a run that exists gives it the status, whatever it was. -/
theorem runs_completeRun (found : w.ledger.run (runKey taskID runID) = some (owner, old))
    (ran : w.Runs sha256 (.completeRun taskID runID status) answer w') :
    answer = .ok () ∧ w'.ledger = w.ledger.setRun owner (runKey taskID runID) status := by
  obtain ⟨rfl, rfl⟩ := ran
  obtain ⟨run, there, rfl, -⟩ := run_of_ledger found
  unfold MemoryStore.completeRun
  rw [changeRun_always _ there]
  exact ⟨rfl, ledger_insertRun ..⟩

/-- A task's status moves for its active run only, and from the given statuses. -/
theorem runs_updateTaskStatusForRun
    (ran : w.Runs sha256 (.updateTaskStatusForRun taskID runID fromStatuses toStatus) answer w') :
    (answer = .ok () ∧ ∃ status ∈ fromStatuses,
      w.ledger.task taskID = some (runKey taskID runID, status) ∧
      w'.ledger = w.ledger.setTask taskID (runKey taskID runID) toStatus) ∨
    ∃ e, answer = .error e ∧ e.isStale = true ∧ w' = w ∧
      ∀ status, w.ledger.task taskID = some (runKey taskID runID, status) →
        status ∉ fromStatuses := by
  obtain ⟨rfl, rfl⟩ := ran
  unfold MemoryStore.updateTaskStatusForRun
  cases found : w.store.tasks.lookup taskID with
  | none =>
    rw [changeTask_missing found]
    exact .inr ⟨_, rfl, rfl, rfl, by simp [World.ledger, found]⟩
  | some task =>
    by_cases active : task.activeRunID = runID
    · by_cases allowed : task.status ∈ fromStatuses
      · rw [changeTask_done found ((if_neg (not_not.mpr active)).trans (if_pos allowed))]
        refine .inl ⟨rfl, task.status, allowed, by rw [ledger_task found, active], ?_⟩
        rw [World.after, ledger_insertTask, active]
      · rw [changeTask_refused found ((if_neg (not_not.mpr active)).trans (if_neg allowed))]
        refine .inr ⟨_, rfl, rfl, rfl, ?_⟩
        rintro status there
        simp only [ledger_task found, Option.some.injEq, Prod.mk.injEq] at there
        exact there.2 ▸ allowed
    · rw [changeTask_refused found (if_pos active)]
      refine .inr ⟨_, rfl, rfl, rfl, ?_⟩
      rintro status there
      simp only [ledger_task found, Option.some.injEq, Prod.mk.injEq, runKey_inj] at there
      exact absurd there.1 active

/-- Asking for an abort leaves statuses and active runs alone. -/
theorem runs_setAbortRequested (ran : w.Runs sha256 (.setAbortRequested taskID reason) answer w') :
    w'.ledger = w.ledger := by
  obtain ⟨-, rfl⟩ := ran
  unfold MemoryStore.setAbortRequested
  cases found : w.store.tasks.lookup taskID with
  | none => rw [changeTask_missing found]; rfl
  | some task =>
    rw [changeTask_always _ found, World.after, ledger_insertTask]
    exact setTask_same (ledger_task found :)

theorem runs_applyCreateTransition
    (ran : w.Runs sha256 (.applyCreateTransition task run) answer w') :
    (answer = .ok () ∧ run.taskID = task.taskID ∧ w.ledger.task task.taskID = none ∧
      w.ledger.run (runKey run.taskID run.runID) = none ∧
      w'.ledger = (w.ledger.setTask task.taskID (runKey task.taskID task.activeRunID)
        task.status).setRun run.taskID (runKey run.taskID run.runID) run.status) ∨
    ∃ e, answer = .error e ∧ w' = w := by
  obtain ⟨rfl, rfl⟩ := ran
  rcases applyCreateTransition_cases w.store w.clock task run with
    ⟨e, result⟩ | ⟨owner, newTask, newRun, -, result⟩
  · rw [result]
    exact .inr ⟨e, rfl, rfl⟩
  · rw [result]
    refine .inl ⟨rfl, owner, by simp [World.ledger, newTask], by simp [World.ledger, newRun], ?_⟩
    exact (ledger_insertBoth ..).trans (by simp)

theorem runs_applyResumeTransition
    (ran : w.Runs sha256 (.applyResumeTransition taskID run fromStatuses toStatus) answer w') :
    (answer = .ok () ∧ run.taskID = taskID ∧ run.taskID ≠ "" ∧ run.runID ≠ "" ∧
      (∃ k status, w.ledger.task taskID = some (k, status) ∧ status ∈ fromStatuses) ∧
      w.ledger.run (runKey run.taskID run.runID) = none ∧
      w'.ledger = (w.ledger.setTask taskID (runKey taskID run.runID) toStatus).setRun run.taskID
        (runKey run.taskID run.runID) run.status) ∨
    ∃ e, answer = .error e ∧ w' = w := by
  obtain ⟨rfl, rfl⟩ := ran
  rcases applyResumeTransition_cases w.store w.clock taskID run fromStatuses toStatus with
    ⟨e, result⟩ | ⟨task, owner, named, numbered, found, newRun, resumable, result⟩
  · rw [result]
    exact .inr ⟨e, rfl, rfl⟩
  · rw [result]
    refine .inl ⟨rfl, owner, named, numbered, ⟨_, _, ledger_task found, resumable⟩,
      by simp [World.ledger, newRun], ?_⟩
    exact (ledger_insertBoth w taskID _ _ _ w.store.idempotency).trans (by simp)

omit [Float64 F] in
/-- Nothing the engine does shows in the ledger. -/
theorem World.EngineEffect.ledger (did : w.EngineEffect call w') : w'.ledger = w.ledger := by
  cases did with
  | lastStep found | usage found =>
    exact (ledger_insertRun ..).trans (setRun_same (ledger_run found :))
  | _ => rfl

end Calls

end AgentForge
