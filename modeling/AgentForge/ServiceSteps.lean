import AgentForge.Refinement

/-! What the calls of requests and workers do to the ledger whoever else is at work, and
what each of them knows meanwhile. Nothing is assumed of the queue: any `Enqueue` may
fail, and a run refused to one request may be queued by another. What is left is that a
run is claimed at most once and never queued again, that a task is moved on only for a
run that was begun, and that what a request or a worker has learned stays true. -/
namespace AgentForge

open Lifecycle (Ledger)
open Transition (Config Event View Pool forall_update)

namespace Lifecycle

section Effects

variable {T K : Type} [DecidableEq T] [DecidableEq K] {l : Ledger T K} {t : T} {k : K}
  {status : TaskStatus} {run : RunStatus} {touched : Option K}

/-- The run exists and has left the queue for good. -/
def Ledger.Begun (l : Ledger T K) (k : K) : Prop :=
  ∃ t run, l.run k = some (t, run) ∧ run ≠ .queued

/-- A task's active run is its own, and begun unless the task is queued. -/
def Ledger.Active (l : Ledger T K) : Prop :=
  ∀ t k status, l.task t = some (k, status) →
    ∃ run, l.run k = some (t, run) ∧ (status ≠ .queued → run ≠ .queued)

/-- What one call may do. Of the runs that exist it changes at most the one it may
touch. -/
inductive Effect (touched : Option K) (l : Ledger T K) : Ledger T K → Prop where
  | quiet : Effect touched l l
  | openRun {t : T} {k : K} (newRun : l.run k = none) :
      Effect touched l ((l.setTask t k .queued).setRun t k .queued)
  | claim {t : T} {k : K} (own : touched = some k) (queued : l.run k = some (t, .queued)) :
      Effect touched l (l.setRun t k .running)
  | complete {t : T} {k : K} {old status : RunStatus} (own : touched = some k)
      (found : l.run k = some (t, old)) (unqueued : status ≠ .queued) :
      Effect touched l (l.setRun t k status)
  | update {t : T} {k : K} {old status : TaskStatus} (active : l.task t = some (k, old))
      (begun : l.Begun k) : Effect touched l (l.setTask t k status)
  | send (t : T) (k : K) : Effect touched l (l.send t k)
  | refuse (t : T) (k : K) : Effect touched l (l.refuse t k)

section Kept

variable {l' : Ledger T K} (effect : Effect touched l l')

include effect

/-- A run that exists is changed only by giving it another status than `RUN_QUEUED`. -/
theorem Effect.run_after (found : l.run k = some (t, run)) :
    ∃ run', l'.run k = some (t, run') ∧ (run' = .queued → run = .queued) := by
  cases effect with
  | quiet | update | send | refuse => exact ⟨run, found, id⟩
  | @openRun t' k' newRun =>
    have other : k ≠ k' := by
      rintro rfl
      rw [newRun] at found
      cases found
    exact ⟨run, by simpa [other] using found, id⟩
  | @claim t' k' own queued =>
    by_cases same : k = k'
    · subst same
      cases queued.symm.trans found
      exact ⟨.running, by simp, fun _ => rfl⟩
    · exact ⟨run, by simpa [same] using found, id⟩
  | @complete t' k' old status own found' unqueued =>
    by_cases same : k = k'
    · subst same
      cases found'.symm.trans found
      exact ⟨status, by simp, fun queued => absurd queued unqueued⟩
    · exact ⟨run, by simpa [same] using found, id⟩

/-- A run that is not touched stays as it is. -/
theorem Effect.run_untouched (untouched : touched ≠ some k)
    (found : l.run k = some (t, run)) : l'.run k = some (t, run) := by
  cases effect with
  | quiet | update | send | refuse => exact found
  | @openRun t' k' newRun =>
    have other : k ≠ k' := by
      rintro rfl
      rw [newRun] at found
      cases found
    simpa [other] using found
  | @claim t' k' own queued | @complete t' k' old status own found' unqueued =>
    have other : k ≠ k' := by
      rintro rfl
      exact untouched own
    simpa [other] using found

theorem Effect.owns (owns : l.Owns t k) : l'.Owns t k := by
  obtain ⟨run, found⟩ := owns
  obtain ⟨run', found', -⟩ := effect.run_after found
  exact ⟨run', found'⟩

theorem Effect.begun (begun : l.Begun k) : l'.Begun k := by
  obtain ⟨t, run, found, left⟩ := begun
  obtain ⟨run', found', still⟩ := effect.run_after found
  exact ⟨t, run', found', fun queued => left (still queued)⟩

theorem Effect.active (active : l.Active) : l'.Active := by
  intro t k status there
  have kept : l.task t = some (k, status) →
      ∃ run, l'.run k = some (t, run) ∧ (status ≠ .queued → run ≠ .queued) := by
    intro before
    obtain ⟨run, found, left⟩ := active t k status before
    obtain ⟨run', found', still⟩ := effect.run_after found
    exact ⟨run', found', fun moved queued => left moved (still queued)⟩
  cases effect with
  | quiet | claim | complete | send | refuse => exact kept there
  | @openRun t' k' newRun =>
    by_cases same : t = t'
    · subst same
      obtain ⟨rfl, rfl⟩ : k' = k ∧ .queued = status := by simpa using there
      exact ⟨.queued, by simp, fun moved => absurd rfl moved⟩
    · exact kept (by simpa [same] using there)
  | @update t' k' old status' active' begun =>
    by_cases same : t = t'
    · subst same
      obtain ⟨rfl, rfl⟩ : k' = k ∧ status' = status := by simpa using there
      obtain ⟨run, found, -⟩ := active t k' old active'
      obtain ⟨t', run', found', left⟩ := begun
      cases found.symm.trans found'
      exact ⟨run, found, fun _ => left⟩
    · exact kept (by simpa [same] using there)

end Kept

end Effects

end Lifecycle

/-! ## What a thread knows -/

section Knowledge

variable {F : Type}

/-- The message of a worker that has claimed its run. -/
def WorkerPC.message : WorkerPC F → Option (SQSMessage F)
  | .claim _ | .returned _ => none
  | .setRunning msg | .completeStale msg | .completeUpdateFailed msg _ | .getTask msg
  | .completeTaskLoadFailed msg _ | .completeMismatch msg | .updateMismatch msg | .getRun msg _
  | .completeRunLoadFailed msg _ | .updateRunLoadFailed msg _ | .newWorkspace msg _ _
  | .executing msg _ _ _ | .finalizeComplete msg _ | .finalizeUpdate msg _ => some msg

/-- The message a worker was started on, until it has returned. -/
def WorkerPC.carries : WorkerPC F → Option (SQSMessage F)
  | .claim msg => some msg
  | pc => pc.message

/-- What a request has learned of the task and the run it will answer with. -/
def CreatePC.Informed (l : Ledger String String) : CreatePC F → Prop
  | .loadActiveRun existing =>
    l.Owns existing.taskID (runKey existing.taskID existing.activeRunID) ∧
      (existing.status ≠ .queued → l.Begun (runKey existing.taskID existing.activeRunID))
  | .stamp existing run =>
    run.runID = existing.activeRunID ∧
      l.Owns existing.taskID (runKey existing.taskID existing.activeRunID) ∧
      (existing.status ≠ .queued ∨ run.status ≠ .queued →
        l.Begun (runKey existing.taskID existing.activeRunID))
  | .enqueue response msg =>
    msg.taskID = response.taskID ∧ msg.runID = response.runID ∧ l.Owns msg.taskID msg.key
  | .returned (.ok response) => l.Owns response.taskID (runKey response.taskID response.runID)
  | .apply _ _ _ _ runID => runID ≠ ""
  | _ => True

/-- The run a resuming request has opened, and whether it has failed it. -/
def ResumePC.Informed (l : Ledger String String) : ResumePC F → Prop
  | .apply _ _ _ _ _ runID => runID ≠ ""
  | .enqueue msg => msg.taskID ≠ "" ∧ msg.runID ≠ "" ∧ l.Owns msg.taskID msg.key
  | .failRun taskID runID _ => l.Owns taskID (runKey taskID runID)
  | .failTask taskID runID _ => l.Begun (runKey taskID runID)
  | _ => True

/-- The run a thread's next call may change. -/
def Thread.touches : Thread F → Option String
  | .worker (.claim msg) => some msg.key
  | .worker pc => pc.message.map SQSMessage.key
  | .resume (.failRun taskID runID _) => some (runKey taskID runID)
  | _ => none

theorem Thread.touches_worker (pc : WorkerPC F) :
    (Thread.worker pc).touches = pc.carries.map SQSMessage.key := by
  cases pc <;> rfl

/-- A worker that has claimed its run knows it was begun. -/
def Thread.Informed (l : Ledger String String) : Thread F → Prop
  | .create pc => pc.Informed l
  | .resume pc => pc.Informed l
  | .abort _ => True
  | .worker pc => ∀ msg, pc.message = some msg → l.Begun msg.key

variable {l l' : Ledger String String} {thread : Thread F} {touched : Option String}

/-- What a thread knows stays true. -/
theorem Thread.Informed.stays (informed : thread.Informed l)
    (effect : Lifecycle.Effect touched l l') :
    thread.Informed l' := by
  cases thread with
  | create pc =>
    cases pc with
    | loadActiveRun existing =>
      exact ⟨effect.owns informed.1, fun moved => effect.begun (informed.2 moved)⟩
    | stamp existing run =>
      exact ⟨informed.1, effect.owns informed.2.1, fun moved => effect.begun (informed.2.2 moved)⟩
    | enqueue response msg => exact ⟨informed.1, informed.2.1, effect.owns informed.2.2⟩
    | apply req mc now taskID runID => exact informed
    | returned result =>
      cases result with
      | ok response => exact effect.owns informed
      | error e => trivial
    | _ => trivial
  | resume pc =>
    cases pc with
    | enqueue msg => exact ⟨informed.1, informed.2.1, effect.owns informed.2.2⟩
    | failRun taskID runID message => exact effect.owns informed
    | failTask taskID runID message => exact effect.begun informed
    | apply taskID req task mc now runID => exact informed
    | _ => trivial
  | abort pc => trivial
  | worker pc => exact fun msg held => effect.begun (informed msg held)

end Knowledge

/-! ## The calls -/

section Calls

variable {F : Type} [Float64 F] {senv : ServiceEnv} {eenv : EngineEnv F} {w w' : World F}
  {sha256 : Bytes → String} {call : Call F} {answer : call.Ans}

private theorem newRunID_ne_empty (random : Vector UInt8 12) : newID "run_" random ≠ "" := by
  simp [newID]

/-- `enqueueQueuedRun` answers at once if the task or the run is no longer queued, and
otherwise goes on to queue the run. -/
theorem enqueueQueued_cases (senv : ServiceEnv) (response : RunResponse) (task : Task F)
    (run : Run F) (now : Time) :
    ((task.status ≠ .queued ∨ run.status ≠ .queued) ∧
      CreatePC.enqueueQueued senv response task run now = .returned (.ok response)) ∨
    ∃ msg, CreatePC.enqueueQueued senv response task run now = .enqueue response msg ∧
      msg.taskID = task.taskID ∧ msg.runID = run.runID := by
  unfold CreatePC.enqueueQueued queuedRunMessage
  by_cases moved : task.status ≠ .queued ∨ run.status ≠ .queued
  · exact .inl ⟨moved, by rw [if_pos moved]⟩
  · exact .inr ⟨_, by rw [if_neg moved], rfl, rfl⟩

theorem CreatePC.informed_enqueueQueued {response : RunResponse} {run : Run F}
    (sameTask : task.taskID = response.taskID) (sameRun : run.runID = response.runID)
    (owns : l.Owns response.taskID (runKey response.taskID response.runID)) :
    (CreatePC.enqueueQueued senv response task run now).Informed l := by
  rcases enqueueQueued_cases senv response task run now with
    ⟨-, next⟩ | ⟨msg, next, msgTask, msgRun⟩
  · rw [next]
    exact owns
  · rw [next]
    refine ⟨msgTask.trans sameTask, msgRun.trans sameRun, ?_⟩
    rw [SQSMessage.key, msgTask.trans sameTask, msgRun.trans sameRun]
    exact owns

theorem CreatePC.effect (keyed : w.store.Keyed) (active : w.ledger.Active)
    (informed : pc.Informed w.ledger) (calls : pc.view senv = .call call resume)
    (works : StoreWorks call answer) (ran : w.Exec sha256 call answer w') :
    Lifecycle.Effect (Thread.create pc).touches w.ledger w'.ledger ∧
      (resume answer).Informed w'.ledger := by
  have owned : ∀ {existing : Task F} {status : TaskStatus},
      w.ledger.task existing.taskID =
        some (runKey existing.taskID existing.activeRunID, status) →
      w.ledger.Owns existing.taskID (runKey existing.taskID existing.activeRunID) ∧
        (status ≠ .queued → w.ledger.Begun (runKey existing.taskID existing.activeRunID)) := by
    intro existing status there
    obtain ⟨run, found, moved⟩ := active _ _ _ there
    exact ⟨⟨run, found⟩, fun left => ⟨_, run, found, moved left⟩⟩
  cases pc with
  | lookup req mc =>
    cases calls
    obtain ⟨read, unchanged⟩ := works.runs ran
    subst w'
    refine ⟨.quiet, ?_⟩
    cases answer with
    | ok existing =>
      have known := owned (task_by_key keyed read.symm)
      dsimp only
      split
      · exact known.1
      · exact known
    | error e => cases e <;> trivial
  | loadActiveRun existing =>
    cases calls
    obtain ⟨read, unchanged⟩ := works.runs ran
    subst w'
    refine ⟨.quiet, ?_⟩
    cases answer with
    | error e => trivial
    | ok run =>
      refine ⟨loaded_run keyed informed.1 read.symm, informed.1, fun moved => ?_⟩
      rcases moved with moved | moved
      · exact informed.2 moved
      · exact ⟨_, _, ledger_run (getRun_eq_ok.mp (Eq.symm read)), moved⟩
  | stamp existing run =>
    cases calls
    obtain ⟨-, rfl⟩ := works.runs ran
    exact ⟨.quiet, informed_enqueueQueued rfl informed.1 informed.2.1⟩
  | readClock req mc | newTaskID req mc now =>
    cases calls
    obtain ⟨-, rfl⟩ := works.runs ran
    exact ⟨.quiet, trivial⟩
  | newRunID req mc now taskID =>
    cases calls
    obtain ⟨⟨random, rfl⟩, unchanged⟩ := works.runs ran
    subst w'
    exact ⟨.quiet, newRunID_ne_empty random⟩
  | apply req mc now taskID runID =>
    cases calls
    rcases runs_applyCreateTransition (works.runs ran) with
      ⟨rfl, -, -, newRun, left⟩ | ⟨e, rfl, rfl⟩
    · rw [left]
      refine ⟨.openRun newRun, ?_⟩
      have owns : (((w.ledger.setTask taskID (runKey taskID runID) .queued).setRun taskID
          (runKey taskID runID) .queued)).Owns taskID (runKey taskID runID) := ⟨.queued, by simp⟩
      exact informed_enqueueQueued rfl rfl owns
    · refine ⟨.quiet, ?_⟩
      dsimp only
      split
      · contradiction
      · split <;> trivial
      · trivial
  | fetchWinner tenantID idempotencyKey =>
    cases calls
    obtain ⟨read, unchanged⟩ := works.runs ran
    subst w'
    refine ⟨.quiet, ?_⟩
    cases answer with
    | ok existing => exact (owned (task_by_key keyed read.symm)).1
    | error e => trivial
  | enqueue response msg =>
    cases calls
    have queued := works.runs ran
    cases answer with
    | ok _ =>
      obtain rfl := queued
      rw [ledger_send]
      refine ⟨.send _ _, ?_⟩
      have owns : (w.ledger.send msg.taskID msg.key).Owns msg.taskID msg.key := informed.2.2
      rw [SQSMessage.key, informed.1, informed.2.1] at owns
      exact owns
    | error message =>
      obtain rfl := queued
      rw [ledger_refuse]
      exact ⟨.refuse _ _, trivial⟩
  | returned result => cases calls

/-- Moving on the task of a run that was begun. -/
theorem effect_updateTaskStatusForRun {fromStatuses : List TaskStatus}
    {answer : Except StoreError Unit} (begun : w.ledger.Begun (runKey taskID runID))
    (touched : Option String)
    (ran : w.Runs sha256 (.updateTaskStatusForRun taskID runID fromStatuses toStatus) answer w') :
    Lifecycle.Effect touched w.ledger w'.ledger := by
  rcases runs_updateTaskStatusForRun ran with ⟨-, status, -, active, left⟩ | ⟨e, -, -, rfl, -⟩
  · rw [left]
    exact .update active begun
  · exact .quiet

/-- Completing a run that exists. -/
theorem effect_completeRun {taskID runID owner : String} {answer : Except StoreError Unit}
    (unqueued : status ≠ .queued) (found : w.ledger.run (runKey taskID runID) = some (owner, old))
    (ran : w.Runs sha256 (.completeRun taskID runID status) answer w') :
    Lifecycle.Effect (some (runKey taskID runID)) w.ledger w'.ledger ∧
      w'.ledger.Begun (runKey taskID runID) := by
  obtain ⟨-, left⟩ := runs_completeRun found ran
  rw [left]
  exact ⟨.complete rfl found unqueued, owner, status, by simp, unqueued⟩

theorem ResumePC.effect {resume : call.Ans → ResumePC F} (informed : pc.Informed w.ledger)
    (calls : pc.view senv = .call call resume) (works : StoreWorks call answer)
    (ran : w.Exec sha256 call answer w') :
    Lifecycle.Effect (Thread.resume pc).touches w.ledger w'.ledger ∧
      (resume answer).Informed w'.ledger := by
  cases pc with
  | getTask taskID req =>
    cases calls
    obtain ⟨-, rfl⟩ := works.runs ran
    refine ⟨.quiet, ?_⟩
    cases answer with
    | ok task =>
      dsimp only
      unfold ResumePC.checkRequest
      split_ifs <;> trivial
    | error e => trivial
  | getRun taskID req task =>
    cases calls
    obtain ⟨-, rfl⟩ := works.runs ran
    cases answer <;> exact ⟨.quiet, trivial⟩
  | getStep taskID req task =>
    cases calls
    obtain ⟨-, rfl⟩ := works.runs ran
    refine ⟨.quiet, ?_⟩
    cases answer with
    | ok step =>
      dsimp only
      split <;> trivial
    | error e => trivial
  | readClock taskID req task =>
    cases calls
    obtain ⟨-, rfl⟩ := works.runs ran
    exact ⟨.quiet, trivial⟩
  | newRunID taskID req task now =>
    cases calls
    obtain ⟨⟨random, rfl⟩, unchanged⟩ := works.runs ran
    subst w'
    refine ⟨.quiet, ?_⟩
    dsimp only
    split
    · trivial
    · exact newRunID_ne_empty random
  | apply taskID req task mc now runID =>
    cases calls
    rcases runs_applyResumeTransition (works.runs ran) with
      ⟨rfl, -, named, numbered, -, newRun, left⟩ | ⟨e, rfl, rfl⟩
    · rw [left]
      exact ⟨.openRun newRun, named, numbered, .queued, by simp [SQSMessage.key, runMessage, resumedRun]⟩
    · exact ⟨.quiet, trivial⟩
  | enqueue msg =>
    cases calls
    have queued := works.runs ran
    cases answer with
    | ok _ =>
      obtain rfl := queued
      rw [ledger_send]
      exact ⟨.send _ _, trivial⟩
    | error message =>
      obtain rfl := queued
      rw [ledger_refuse]
      refine ⟨.refuse _ _, ?_⟩
      dsimp only
      split
      · trivial
      · exact informed.2.2
  | failRun taskID runID message =>
    cases calls
    obtain ⟨old, found⟩ := informed
    exact effect_completeRun (by decide) found (works.runs ran)
  | failTask taskID runID message =>
    cases calls
    exact ⟨effect_updateTaskStatusForRun informed _ (works.runs ran), trivial⟩
  | returned result => cases calls

omit [Float64 F] in
theorem WorkerPC.carries_of_message {pc : WorkerPC F} (held : pc.message = some msg) :
    pc.carries = some msg := by
  cases pc with
  | claim _ => cases held
  | _ => exact held

/-- A worker stays with its message. -/
theorem WorkerPC.carries_next {pc : WorkerPC F} {resume : call.Ans → WorkerPC F}
    (calls : pc.view eenv = .call call resume) (carries : (resume answer).carries = some msg) :
    pc.carries = some msg := by
  cases pc with
  | claim msg =>
    cases calls
    cases answer with
    | ok _ => exact carries
    | error e =>
      dsimp only at carries
      split at carries <;> cases carries
  | setRunning msg =>
    cases calls
    cases answer with
    | ok _ => exact carries
    | error e =>
      dsimp only at carries
      split at carries <;> exact carries
  | completeStale msg | completeUpdateFailed msg e | completeTaskLoadFailed msg e
  | updateMismatch msg | updateRunLoadFailed msg e =>
    cases calls
    cases carries
  | completeMismatch msg | completeRunLoadFailed msg e =>
    cases calls
    exact carries
  | getTask msg =>
    cases calls
    cases answer with
    | ok task =>
      dsimp only at carries
      split at carries <;> exact carries
    | error e => exact carries
  | getRun msg task =>
    cases calls
    cases answer <;> exact carries
  | newWorkspace msg task run =>
    cases calls
    cases answer with
    | ok _ => exact carries
    | error message => cases carries
  | executing msg task run program =>
    cases program with
    | ret outcome => cases calls
    | call request next =>
      cases calls
      exact carries
  | finalizeComplete msg status =>
    cases calls
    cases answer with
    | ok _ => exact carries
    | error e => cases carries
  | finalizeUpdate msg status =>
    cases calls
    cases answer with
    | ok _ => cases carries
    | error e =>
      dsimp only at carries
      split at carries <;> cases carries
  | returned result => cases calls

theorem WorkerPC.effect (informed : ∀ msg, pc.message = some msg → w.ledger.Begun msg.key)
    (calls : pc.view eenv = .call call resume) (works : StoreWorks call answer)
    (ran : w.Exec sha256 call answer w') :
    Lifecycle.Effect (Thread.worker pc).touches w.ledger w'.ledger ∧
      ∀ msg, (resume answer).message = some msg → w'.ledger.Begun msg.key := by
  -- every call but the claim is about a run that was begun, and keeps the message
  have later : ∀ {msg}, pc.message = some msg →
      Lifecycle.Effect (Thread.worker pc).touches w.ledger w'.ledger →
      Lifecycle.Effect (Thread.worker pc).touches w.ledger w'.ledger ∧
        ∀ msg, (resume answer).message = some msg → w'.ledger.Begun msg.key := by
    intro msg held effect
    refine ⟨effect, fun msg' held' => ?_⟩
    cases (carries_of_message held).symm.trans (carries_next calls (carries_of_message held'))
    exact effect.begun (informed msg held)
  have completes : ∀ {msg : SQSMessage F} {status answer}, status ≠ .queued →
      pc.message = some msg → w.Runs sha256 (.completeRun msg.taskID msg.runID status) answer w' →
      Lifecycle.Effect (some msg.key) w.ledger w'.ledger := by
    intro msg status answer unqueued held ran
    obtain ⟨owner, old, found, -⟩ := informed msg held
    exact (effect_completeRun unqueued found ran).1
  cases pc with
  | claim msg =>
    cases calls
    rcases runs_claimRun (works.runs ran) with
      ⟨rfl, owner, queued, left⟩ | ⟨e, rfl, stale, rfl, -⟩
    · rw [left]
      refine ⟨.claim rfl queued, fun msg' held => ?_⟩
      cases held
      exact ⟨owner, .running, by simp [SQSMessage.key], by decide⟩
    · simp only [stale, if_true]
      refine ⟨.quiet, fun msg' held => ?_⟩
      cases held
  | setRunning msg | updateMismatch msg | updateRunLoadFailed msg e | finalizeUpdate msg status =>
    cases calls
    exact later rfl (effect_updateTaskStatusForRun (informed msg rfl) _ (works.runs ran))
  | completeStale msg | completeUpdateFailed msg e | completeTaskLoadFailed msg e
  | completeMismatch msg | completeRunLoadFailed msg e =>
    cases calls
    exact later rfl (completes (by decide) rfl (works.runs ran))
  | getTask msg | getRun msg task =>
    cases calls
    obtain ⟨-, rfl⟩ := works.runs ran
    exact later rfl .quiet
  | newWorkspace msg task run =>
    cases calls
    obtain rfl := works.runs ran
    exact later rfl .quiet
  | executing msg task run program =>
    cases program with
    | ret outcome => cases calls
    | call request next =>
      cases calls
      refine later rfl ?_
      rw [exec_engine_ledger ran]
      exact .quiet
  | finalizeComplete msg status =>
    cases calls
    have unqueued : status.1 ≠ .queued := by
      intro queued
      have terminal := status.2
      rw [queued] at terminal
      cases terminal
    exact later rfl (completes unqueued rfl (works.runs ran))
  | returned result => cases calls

/-- One thread's call, in whichever handler it is. -/
theorem Thread.effect {thread : Thread F} {resume : call.Ans → Thread F} (keyed : w.store.Keyed)
    (active : w.ledger.Active) (informed : thread.Informed w.ledger)
    (calls : thread.view senv eenv = .call call resume) (works : StoreWorks call answer)
    (ran : w.Exec sha256 call answer w') :
    Lifecycle.Effect thread.touches w.ledger w'.ledger ∧
      (resume answer).Informed w'.ledger := by
  cases thread with
  | create pc =>
    obtain ⟨resume', calls', rfl⟩ := View.map_eq_call.mp calls
    exact CreatePC.effect keyed active informed calls' works ran
  | resume pc =>
    obtain ⟨resume', calls', rfl⟩ := View.map_eq_call.mp calls
    exact ResumePC.effect informed calls' works ran
  | abort pc =>
    obtain ⟨resume', calls', rfl⟩ := View.map_eq_call.mp calls
    rw [AbortPC.moves calls' works ran]
    exact ⟨.quiet, trivial⟩
  | worker pc =>
    obtain ⟨resume', calls', rfl⟩ := View.map_eq_call.mp calls
    exact WorkerPC.effect informed calls' works ran

end Calls

/-! ## The system -/

section System

variable {F : Type} [Float64 F] {senv : ServiceEnv} {eenv : EngineEnv F}
  {permits : Thread F → (call : Call F) → call.Ans → Prop} {c c' : Config (World F) (Thread F)}

/-- Every task has an active run. -/
def MemoryStore.Numbered (s : MemoryStore F) : Prop :=
  ∀ t task, s.tasks.lookup t = some task → task.activeRunID ≠ ""

/-- A new run has an id by the time it is applied. -/
theorem Thread.numbered {thread : Thread F} {answer : call.Ans} {w w' : World F}
    {resume : call.Ans → Thread F} (numbered : w.store.Numbered)
    (informed : thread.Informed w.ledger) (calls : thread.view senv eenv = .call call resume)
    (ran : w.Exec sha256 call answer w') :
    w'.store.Numbered := by
  intro t task there
  have transaction := view_transaction calls
  rcases exec_records ran with same | done
  · obtain ⟨task', before, identity⟩ := same.task_before there
    simp only [Task.identity, Prod.mk.injEq] at identity
    exact identity.2.2.2 ▸ numbered t task' before
  cases done with
  | @create task' =>
    by_cases mine : t = task'.taskID
    · rw [mine, AList.lookup_insert, Option.some.injEq] at there
      obtain ⟨req, mc, now, taskID, runID, rfl, rfl, rfl⟩ := transaction
      subst there
      exact informed
    · rw [AList.lookup_insert_ne mine] at there
      exact numbered t task there
  | @resume taskID _ _ _ _ _ _ _ _ identity =>
    by_cases mine : t = taskID
    · rw [mine, AList.lookup_insert, Option.some.injEq] at there
      obtain ⟨req, task, mc, now, runID, rfl, rfl⟩ := transaction
      simp only [Task.identity, Prod.mk.injEq] at identity
      rw [← there, identity.2.2.2]
      exact informed
    · rw [AList.lookup_insert_ne mine] at there
      exact numbered t task there

/-- What every reachable configuration has, whatever the queue refuses. -/
structure ServiceFacts (c : Config (World F) (Thread F)) : Prop where
  keyed : c.world.store.Keyed
  active : c.world.ledger.Active
  numbered : c.world.store.Numbered
  informed : ∀ i thread, c.threads i = some thread → thread.Informed c.world.ledger

theorem Thread.Starts.informed {w : World F} (begins : Thread.Starts senv w thread)
    (l : Ledger String String) : thread.Informed l := by
  cases begins with
  | create req =>
    unfold CreatePC.start
    split
    · trivial
    · split <;> trivial
  | resume taskID req =>
    unfold ResumePC.start
    split_ifs <;> trivial
  | abort tenantID taskID req => trivial
  | worker queued => exact nofun

theorem Thread.tau_informed {thread next : Thread F} (moves : thread.view senv eenv = .tau next)
    (informed : thread.Informed l) :
    next.Informed l := by
  obtain ⟨msg, task, run, outcome, rfl, rfl⟩ := Thread.tau_eq moves
  intro msg' held
  cases held
  exact informed msg rfl

theorem facts_of_reachable (reached : (servicePool senv eenv permits).system.Reachable c) :
    ServiceFacts c := by
  refine reached.invariant ?_ ?_
  · rintro c ⟨⟨store, -, -⟩, threads⟩
    have tasks : ∀ t, c.world.ledger.task t = none := fun t => by simp [World.ledger, store]
    refine ⟨⟨by simp [store], by simp [store]⟩, ?_, by simp [MemoryStore.Numbered, store],
      by simp [threads]⟩
    intro t k status there
    rw [tasks] at there
    cases there
  · intro c e c' _ facts step
    cases step with
    | start free begins =>
      exact ⟨facts.keyed, facts.active, facts.numbered,
        forall_update (begins.informed _) facts.informed⟩
    | tau there moves =>
      exact ⟨facts.keyed, facts.active, facts.numbered,
        forall_update (Thread.tau_informed moves (facts.informed _ _ there)) facts.informed⟩
    | call there calls permitted ran =>
      obtain ⟨effect, informed⟩ := Thread.effect facts.keyed facts.active (facts.informed _ _ there)
        calls permitted.1 ran
      exact ⟨exec_keyed facts.keyed ran, effect.active facts.active,
        Thread.numbered facts.numbered (facts.informed _ _ there) calls ran,
        forall_update informed fun j other at' => (facts.informed j other at').stays effect⟩
    | env changed =>
      obtain ⟨clock, rfl⟩ := changed
      exact ⟨facts.keyed, facts.active, facts.numbered, facts.informed⟩
    | stop there dies => exact dies.elim

/-- **A task always has its run.** In whatever configuration the services are, and whatever the
queue refused: the active run of a task is stored, is the task's own, and has left the queue
once the task has. -/
theorem task_has_its_run (reached : (servicePool senv eenv permits).system.Reachable c)
    (found : c.world.store.getTask taskID = .ok task) : task.activeRunID ≠ "" ∧
      ∃ run, c.world.store.getRun taskID task.activeRunID = .ok run ∧ run.taskID = taskID ∧
        run.runID = task.activeRunID ∧ (task.status ≠ .queued → run.status ≠ .queued) := by
  have facts := facts_of_reachable reached
  rw [getTask_eq_ok] at found
  obtain ⟨status, there, begun⟩ := facts.active _ _ _ (ledger_task found)
  obtain ⟨run, stored, rfl, rfl⟩ := run_of_ledger there
  have own := facts.keyed.run _ run stored
  rw [runKey_inj] at own
  exact ⟨facts.numbered _ _ found, run, getRun_eq_ok.mpr stored, rfl, own, begun⟩

end System

/-- A request creates a task. -/
theorem task_has_its_run_created : ∃ (c : Config (World Rat) (Thread Rat)) (taskID : String),
    (servicePool plainService plainEngine fun _ _ _ => True).system.Reachable c ∧
    ∃ task run, c.world.store.getTask taskID = .ok task ∧
      c.world.store.getRun taskID task.activeRunID = .ok run := by
  have created := (plainService_serves (outsideWorks 0)).path (plainService_starts.next
    (.start (i := 0) rfl (.create freshRequest))) [0, 0, 0, 0] rfl
  obtain ⟨-, run, stored, -⟩ := task_has_its_run ⟨_, created⟩
    (show MemoryStore.getTask _ (newID "task_" (.replicate 12 0)) = .ok _ from rfl)
  exact ⟨_, _, ⟨_, created⟩, _, run, rfl, stored⟩

end AgentForge
