import AgentForge.Sequential
import AgentForge.ServiceSafety

/-! A message is handled with one call failing, and handled again when that made
`handleMessage` return an error. The second delivery finds the run as the first
left it: a run that is no longer queued cannot be claimed again, so whatever the
first delivery left undone stays undone. -/
namespace AgentForge

open Lifecycle (Ledger)
open Transition (Solo)

/-- The calls of `handleMessage`, by their place in it. Each is made at most once; a
call of the engine is told by what is left of the engine's program. -/
inductive WorkerCall (F : Type) where
  | claimRun | setTaskRunning | completeStale | completeUpdateFailed
  | getTask | completeTaskLoadFailed | completeMismatch | updateMismatch
  | getRun | completeRunLoadFailed | updateRunLoadFailed
  | newLocalManager
  | engine (program : EngineProg F (Except EngineError (RunResult F)))
  | finalizeCompleteRun | finalizeUpdateTaskStatus

section Delivering

variable {F : Type} [Float64 F]

/-- The run is terminal and the task has the matching status. -/
def Settled (w : World F) (msg : SQSMessage F) : Prop :=
  ∃ task run, w.store.tasks.lookup msg.taskID = some task ∧
    w.store.runs.lookup msg.key = some run ∧ run.status.terminal = true ∧
    task.status = mapRunToTaskStatus run.status

variable (eenv : EngineEnv F)

/-- The calls whose failure leaves a message that no delivery can settle any more.
Those after the tenants were compared are made only if the tenants agree. -/
def WorkerCall.Strands (sameTenant : Prop) : WorkerCall F → Prop
  | .setTaskRunning | .getTask => True
  | .newLocalManager | .finalizeCompleteRun | .finalizeUpdateTaskStatus => sameTenant
  | _ => False

end Delivering

/-! ## Where a message stands -/

section Stands

variable {F : Type} {w : World F} {msg : SQSMessage F} {ts : TaskStatus} {rs : RunStatus}

/-- The message's run is the task's active one, and the two have these statuses. -/
structure Stands (w : World F) (msg : SQSMessage F) (ts : TaskStatus) (rs : RunStatus) : Prop where
  task : w.ledger.task msg.taskID = some (msg.key, ts)
  run : ∃ owner, w.ledger.run msg.key = some (owner, rs)

theorem Stands.settled (stands : Stands w msg ts rs) (terminal : rs.terminal = true)
    (agree : ts = mapRunToTaskStatus rs) : Settled w msg := by
  obtain ⟨task, found, -, status⟩ := task_of_ledger stands.task
  obtain ⟨owner, owned⟩ := stands.run
  obtain ⟨run, there, -, rfl⟩ := run_of_ledger owned
  exact ⟨task, run, found, there, terminal, status.trans agree⟩

theorem Stands.unsettled (stands : Stands w msg ts rs)
    (off : rs.terminal = false ∨ ts ≠ mapRunToTaskStatus rs) : ¬ Settled w msg := by
  rintro ⟨task, run, found, there, terminal, status⟩
  obtain ⟨owner, owned⟩ := stands.run
  have task' := stands.task
  simp only [ledger_task found, Option.some.injEq, Prod.mk.injEq] at task'
  simp only [ledger_run there, Option.some.injEq, Prod.mk.injEq] at owned
  obtain ⟨-, rfl⟩ := task'
  obtain ⟨-, rfl⟩ := owned
  rcases off with off | off
  · rw [terminal] at off
    cases off
  · exact off status

theorem WorkerCall.Strands.cases {call : WorkerCall F} (strands : call.Strands sameTenant) :
    call = .setTaskRunning ∨ call = .getTask ∨ sameTenant ∧
      (call = .newLocalManager ∨ call = .finalizeCompleteRun ∨
        call = .finalizeUpdateTaskStatus) := by
  cases call <;> simp_all [WorkerCall.Strands]

/-- The ledger is all that counts. -/
theorem Stands.congr (stands : Stands w msg ts rs) (same : w'.ledger = w.ledger) :
    Stands w' msg ts rs :=
  ⟨same ▸ stands.task, same ▸ stands.run⟩

variable [Float64 F]

theorem Stands.claim (stands : Stands w msg ts .queued)
    (ran : w.Runs sha256 (.claimRun msg.taskID msg.runID) answer w') :
    answer = .ok () ∧ Stands w' msg ts .running := by
  obtain ⟨owner, owned⟩ := stands.run
  rcases runs_claimRun ran with ⟨done, owner', -, left⟩ | ⟨e, -, -, -, unqueued⟩
  · refine ⟨done, ⟨by simpa [left] using stands.task, owner', ?_⟩⟩
    simp [left, SQSMessage.key]
  · exact absurd owned (unqueued owner)

theorem Stands.update (stands : Stands w msg ts rs) (allowed : ts ∈ fromStatuses)
    (ran : w.Runs sha256 (.updateTaskStatusForRun msg.taskID msg.runID fromStatuses toStatus)
      answer w') :
    answer = .ok () ∧ Stands w' msg toStatus rs := by
  rcases runs_updateTaskStatusForRun ran with ⟨done, -, -, -, left⟩ | ⟨e, -, -, -, lost⟩
  · exact ⟨done, ⟨by simp [left, SQSMessage.key], by simpa [left] using stands.run⟩⟩
  · exact absurd allowed (lost ts stands.task)

theorem Stands.complete (stands : Stands w msg ts rs)
    (ran : w.Runs sha256 (.completeRun msg.taskID msg.runID status) answer w') :
    answer = .ok () ∧ Stands w' msg ts status := by
  obtain ⟨owner, owned⟩ := stands.run
  obtain ⟨done, left⟩ := runs_completeRun owned ran
  refine ⟨done, ⟨by simpa [left] using stands.task, owner, ?_⟩⟩
  simp [left, SQSMessage.key]

end Stands

/-! ## One delivery, place by place -/

section Places

variable {F : Type} [Float64 F] {eenv : EngineEnv F} {w : World F} {msg : SQSMessage F}

section Queued

variable (stands : Stands w msg ts .queued) (open' : ts = .queued ∨ ts = .running)
  (tenant : w.store.OfTenant msg.taskID tenantID)

include stands open' tenant

end Queued

end Places

end AgentForge
