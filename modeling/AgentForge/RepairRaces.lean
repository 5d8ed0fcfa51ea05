import AgentForge.Repair
import AgentForge.ServiceSteps

/-! A `Repair` and a worker over one store. The worker moves its run and its task on in
two steps, so that a `Check` made meanwhile may find them apart and `Repair` may set out
to bring them together; by the time it writes, the worker may have moved on. What it
writes does no harm exactly if it fits what the run and the worker have come to by then,
and for the last step, if it is not below what the worker has written. -/
namespace AgentForge

open Transition (System View)

section RepairRaces

variable {F : Type}

/-- A worker and a repair at work, and the last step index that the worker wrote to each
run. -/
structure RepairState (F : Type) where
  world : World F
  wrote : String → Option Int := fun _ => none
  worker : WorkerPC F
  repair : RepairPC

inductive RepairEvent where
  | worker | repair | clock

/-- The record of the step indices written, after this call. -/
def notedSteps (wrote : String → Option Int) : (call : Call F) → call.Ans → String → Option Int
  | .engine (.updateLastStepIndex taskID runID stepIndex), .ok () =>
    Function.update wrote (runKey taskID runID) (some stepIndex)
  | _, _ => wrote

/-- The store works, and the calls of the two interleave freely. -/
inductive RepairStep [Float64 F] (eenv : EngineEnv F) (quote : String → String) :
    RepairState F → RepairEvent → RepairState F → Prop where
  | moved {s : RepairState F} {next : WorkerPC F} (moves : s.worker.view eenv = .tau next) :
      RepairStep eenv quote s .worker { s with worker := next }
  | worked {s : RepairState F} {call : Call F} {resume : call.Ans → WorkerPC F}
      {answer : call.Ans} {w : World F} (calls : s.worker.view eenv = .call call resume)
      (works : StoreWorks call answer) (ran : s.world.Exec eenv.sha256 call answer w) :
      RepairStep eenv quote s .worker { s with
        world := w, wrote := notedSteps s.wrote call answer, worker := resume answer }
  | repaired {s : RepairState F} {call : RepairCall} {resume : call.Ans F → RepairPC}
      {answer : call.Ans F} {w : World F} (calls : s.repair.view quote = .call call resume)
      (ran : s.world.RepairRuns call answer w) :
      RepairStep eenv quote s .repair { s with world := w, repair := resume answer }
  | ticked {s : RepairState F} (clock : Time) :
      RepairStep eenv quote s .clock { s with world := { s.world with clock := clock } }

/-- The task has the status its active run calls for. -/
def World.AgreesAt (w : World F) (t : String) : Prop :=
  ∀ k status owner run, w.ledger.task t = some (k, status) → w.ledger.run k = some (owner, run) →
    status = mapRunToTaskStatus run

/-- A worker about to handle a message of a task that agrees with its active run, and a
repair of any issues. -/
def repairSystem [Float64 F] (eenv : EngineEnv F) (quote : String → String) (msg : SQSMessage F)
    (issues : List DriftIssue) : System (RepairState F) RepairEvent where
  Initial s := s.worker = .claim msg ∧ s.repair = .start issues ∧ s.wrote = (fun _ => none) ∧
    s.world.AgreesAt msg.taskID
  Step := RepairStep eenv quote

/-! ## What fits -/

/-- The task agrees with the run if that is over. -/
def Over (run : RunStatus) (status : TaskStatus) : Prop :=
  run.terminal = true → status = mapRunToTaskStatus run

/-- What the statuses are while a worker is at this message, if its run is the active
one. -/
def AtWork (msg : SQSMessage F) (k : String) (mine : Prop) (run : RunStatus)
    (status : TaskStatus) : Prop :=
  (msg.key = k → mine) ∧ (msg.key ≠ k → Over run status)

/-- The statuses of the active run and of the task that a worker can go on from, so that
they agree in the end. -/
def WorkerPC.Fits (k : String) (run : RunStatus) (status : TaskStatus) : WorkerPC F → Prop
  | .claim msg => Over run status ∧
    (msg.key = k → run = .queued → status = .queued ∨ status = .running)
  | .setRunning msg =>
    AtWork msg k (run = .running ∧ (status = .queued ∨ status = .running)) run status
  | .completeStale msg => msg.key ≠ k ∧ Over run status
  | .completeUpdateFailed .. | .completeTaskLoadFailed .. => False
  | .getTask msg | .completeMismatch msg | .getRun msg _ | .completeRunLoadFailed msg _
  | .newWorkspace msg _ _ | .executing msg _ _ _ | .finalizeComplete msg _ =>
    AtWork msg k (run = .running ∧ status = .running) run status
  | .updateMismatch msg | .updateRunLoadFailed msg _ =>
    AtWork msg k (run = .failed ∧ status = .running) run status
  | .finalizeUpdate msg final => AtWork msg k (run = final.1 ∧ status = .running) run status
  | .returned _ => Over run status

/-- The task and its active run are such that the worker can go on from them. -/
def Fitting (t : String) (w : World F) (pc : WorkerPC F) : Prop :=
  ∀ k status owner run, w.ledger.task t = some (k, status) → w.ledger.run k = some (owner, run) →
    pc.Fits k run status

/-- What the worker has written to a run is not undone. -/
def StepsKept (w : World F) (wrote : String → Option Int) : Prop :=
  ∀ k n, wrote k = some n → ∃ run, w.store.runs.lookup k = some run ∧ n ≤ run.lastStepIndex

/-- Nothing has drifted, as far as the worker has come. -/
structure Steady (msg : SQSMessage F) (s : RepairState F) : Prop where
  serves : ∀ msg', s.worker.carries = some msg' → msg' = msg
  fitting : Fitting msg.taskID s.world s.worker
  steps : StepsKept s.world s.wrote

/-- What a repair is about to write fits: the status of the task, what its active run and
the worker have come to; the last step, what the worker has written. -/
def WriteFits (msg : SQSMessage F) (s : RepairState F) (e : RepairEvent) : Prop :=
  e = .repair → match s.repair with
    | .updateTaskForRun _ issue target _ => issue.taskID = msg.taskID →
      ∀ status owner run,
        s.world.ledger.task msg.taskID = some (runKey issue.taskID issue.runID, status) →
        s.world.ledger.run (runKey issue.taskID issue.runID) = some (owner, run) →
        s.worker.Fits (runKey issue.taskID issue.runID) run target
    | .updateTask _ issue _ => issue.taskID = msg.taskID →
      ∀ k status owner run, s.world.ledger.task msg.taskID = some (k, status) →
        s.world.ledger.run k = some (owner, run) → s.worker.Fits k run .failed
    | .updateLastStep _ issue want _ =>
      ∀ n, s.wrote (runKey issue.taskID issue.runID) = some n → n ≤ want
    | _ => True

/-! ## What a write does -/

variable {w w' : World F} {t : String} {msg : SQSMessage F} {s : RepairState F}

/-- Where a call leaves the ledger alone, only the worker's place matters. -/
theorem Fitting.unchanged (fitting : Fitting t w pc) (same : w'.ledger = w.ledger)
    (goesOn : ∀ k run status, pc.Fits k run status → next.Fits k run status) :
    Fitting t w' next := by
  intro k status owner run task there
  rw [same] at task there
  exact goesOn k run status (fitting k status owner run task there)

/-- A status written to a task leaves what the worker can go on from exactly if it fits. -/
theorem fitting_setTask_iff (fitting : Fitting t w pc)
    (left : w'.ledger = w.ledger.setTask taskID k target) :
    Fitting t w' pc ↔ (taskID = t → ∀ owner run, w.ledger.run k = some (owner, run) →
      pc.Fits k run target) := by
  constructor
  · rintro after rfl owner run there
    exact after k target owner run (by simp [left]) (by rw [left]; exact there)
  · intro fits k' status owner run task there
    rw [left] at task there
    by_cases same : taskID = t
    · subst same
      obtain ⟨rfl, rfl⟩ : k = k' ∧ target = status := by simpa using task
      exact fits rfl owner run there
    · exact fitting k' status owner run (by simpa [Ne.symm same] using task) there

/-- Failing a task whose active run was reported missing. -/
theorem updateTaskStatus_cases (w : World F) (taskID : String) (target : TaskStatus) :
    (w.ledger.task taskID = none ∧
      (w.store.updateTaskStatus w.clock taskID repairableStatuses target).2 = w.store) ∨
    ∃ k old, w.ledger.task taskID = some (k, old) ∧
      (w.after (w.store.updateTaskStatus w.clock taskID repairableStatuses target)).ledger =
        w.ledger.setTask taskID k target := by
  unfold MemoryStore.updateTaskStatus
  cases found : w.store.tasks.lookup taskID with
  | none =>
    rw [changeTask_missing found]
    exact .inl ⟨by simp [World.ledger, found], rfl⟩
  | some task =>
    rw [changeTask_done found (if_pos (mem_repairableStatuses task.status))]
    exact .inr ⟨_, _, ledger_task found, ledger_insertTask ..⟩

private theorem steady_initial (worker : s.worker = .claim msg) (wrote : s.wrote = fun _ => none)
    (agrees : s.world.AgreesAt msg.taskID) : Steady msg s where
  serves msg' carries := by
    rw [worker] at carries
    exact (Option.some.inj carries).symm
  fitting k status owner run task there := by
    have same := agrees k status owner run task there
    rw [worker]
    refine ⟨fun _ => same, ?_⟩
    rintro - rfl
    exact .inl same
  steps k n noted := by
    rw [wrote] at noted
    cases noted

private theorem Rewritten.lastStep
    (written : Rewritten (fun run : Run F => runKey run.taskID run.runID)
      (fun old run => run.lastStepIndex = old.lastStepIndex) held held')
    (there : held.lookup k = some run) :
    ∃ run', held'.lookup k = some run' ∧ run'.lastStepIndex = run.lastStepIndex := by
  obtain ⟨run', there', rfl | same⟩ := written.stays there
  · exact ⟨run', there', rfl⟩
  · exact ⟨run', there', same⟩

private theorem changeTask_runs {s : MemoryStore F} {taskID : String} :
    (s.changeTask taskID change).2.runs = s.runs := by
  unfold MemoryStore.changeTask
  split
  · rfl
  · split <;> rfl

/-- The engine changes the last step of a run only where that is what it is for. -/
theorem engineEffect_lastStep {call : EngineCall F} {k : String} (did : w.EngineEffect call w')
    (there : w.store.runs.lookup k = some run) :
    (∃ run', w'.store.runs.lookup k = some run' ∧ run'.lastStepIndex = run.lastStepIndex) ∨
    ∃ taskID runID stepIndex, call = .updateLastStepIndex taskID runID stepIndex ∧
      runKey taskID runID = k ∧
      w'.store.runs.lookup k = some { run with lastStepIndex := stepIndex } := by
  cases did with
  | @lastStep taskID runID stepIndex run' found =>
    by_cases same : runKey taskID runID = k
    · subst same
      cases found.symm.trans there
      exact .inr ⟨taskID, runID, stepIndex, rfl, rfl, AList.lookup_insert _⟩
    · exact .inl ⟨run, (AList.lookup_insert_ne (Ne.symm same)).trans there, rfl⟩
  | usage found => exact .inl (Rewritten.lastStep (.changed found rfl) there)
  | _ => exact .inl ⟨run, there, rfl⟩

/-- Writing the last step of a run, from the worker or from the repair. -/
theorem updateLastStepIndex_cases (w : World F) (taskID runID : String) (stepIndex : Int) :
    (w.store.runs.lookup (runKey taskID runID) = none ∧
      w.store.updateLastStepIndex taskID runID stepIndex = (.error .notFound, w.store)) ∨
    ∃ run, w.store.runs.lookup (runKey taskID runID) = some run ∧
      w.store.updateLastStepIndex taskID runID stepIndex = (.ok (), { w.store with
        runs := w.store.runs.insert (runKey taskID runID) { run with lastStepIndex := stepIndex } }) := by
  cases found : w.store.runs.lookup (runKey taskID runID) with
  | none => exact .inl ⟨rfl, changeRun_missing found⟩
  | some run => exact .inr ⟨run, rfl, changeRun_always _ found⟩

private theorem StepsKept.sameRuns (kept : StepsKept w wrote)
    (same : w'.store.runs = w.store.runs) :
    StepsKept w' wrote := by
  intro k n noted
  rw [same]
  exact kept k n noted

/-! ## The worker -/

variable [Float64 F] {eenv : EngineEnv F} {quote : String → String} {sha256 : Bytes → String}
  {call : Call F} {answer : call.Ans}

/-- Completing a run gives it the status if it is there, and changes no other. -/
theorem completed_run {taskID runID k owner : String} {answer : Except StoreError Unit}
    (ran : w.Runs sha256 (.completeRun taskID runID status) answer w')
    (there : w'.ledger.run k = some (owner, run)) :
    w'.ledger.task = w.ledger.task ∧
      ((runKey taskID runID = k ∧ run = status ∧ ∃ old, w.ledger.run k = some (owner, old)) ∨
        (runKey taskID runID ≠ k ∧ w.ledger.run k = some (owner, run))) := by
  cases found : w.ledger.run (runKey taskID runID) with
  | none =>
    have missing : w.store.runs.lookup (runKey taskID runID) = none := by
      simpa [World.ledger] using found
    obtain ⟨-, rfl⟩ := ran
    unfold MemoryStore.completeRun at there ⊢
    rw [changeRun_missing missing] at there ⊢
    refine ⟨rfl, .inr ⟨?_, there⟩⟩
    rintro rfl
    exact absurd (found.symm.trans there) (by simp)
  | some old =>
    obtain ⟨-, left⟩ := runs_completeRun found ran
    rw [left] at there ⊢
    refine ⟨rfl, ?_⟩
    by_cases same : runKey taskID runID = k
    · subst same
      obtain ⟨rfl, rfl⟩ : old.1 = owner ∧ status = run := by simpa using there
      exact .inl ⟨rfl, rfl, old.2, found⟩
    · exact .inr ⟨same, by simpa [Ne.symm same] using there⟩

/-- A worker that completes its run. -/
theorem Fitting.completes {pc next : WorkerPC F} {answer : Except StoreError Unit}
    (fitting : Fitting t w pc)
    (ran : w.Runs sha256 (.completeRun msg.taskID msg.runID final) answer w')
    (mine : ∀ k old status, msg.key = k → pc.Fits k old status → next.Fits k final status)
    (other : ∀ k run status, msg.key ≠ k → pc.Fits k run status → next.Fits k run status) :
    Fitting t w' next := by
  intro k status owner run task there
  obtain ⟨tasks, ⟨same, rfl, old, was⟩ | ⟨apart, was⟩⟩ := completed_run ran there
  · rw [tasks] at task
    exact mine k old status same (fitting k status owner old task was)
  · rw [tasks] at task
    exact other k run status apart (fitting k status owner run task was)

/-- A worker that moves its task on. -/
theorem Fitting.updates {fromStatuses : List TaskStatus} {answer : Except StoreError Unit}
    (fitting : Fitting t w pc) (own : msg.taskID = t)
    (ran : w.Runs sha256 (.updateTaskStatusForRun msg.taskID msg.runID fromStatuses toStatus)
      answer w') (done : answer = .ok () → ∀ k run status, msg.key = k → status ∈ fromStatuses →
      pc.Fits k run status → next.Fits k run toStatus)
    (refused : ∀ e, answer = .error e → e.isStale = true → ∀ k run status,
      (msg.key = k → status ∉ fromStatuses) → pc.Fits k run status → next.Fits k run status) :
    Fitting t w' next := by
  subst own
  intro k status owner run task there
  rcases runs_updateTaskStatusForRun ran with
    ⟨rfl, old, listed, active, left⟩ | ⟨e, rfl, stale, rfl, unlisted⟩
  · rw [left] at task there
    obtain ⟨rfl, rfl⟩ : runKey msg.taskID msg.runID = k ∧ toStatus = status := by simpa using task
    exact done rfl _ run old rfl listed (fitting _ old owner run active there)
  · refine refused e rfl stale k run status ?_ (fitting k status owner run task there)
    rintro rfl
    exact unlisted status task

/-- A worker's call leaves what the worker can go on from. -/
theorem Fitting.worked (serves : ∀ msg, pc.carries = some msg → msg.taskID = t)
    (fitting : Fitting t w pc) (calls : pc.view eenv = .call call resume)
    (works : StoreWorks call answer) (ran : w.Exec sha256 call answer w') :
    Fitting t w' (resume answer) := by
  cases pc with
  | claim msg =>
    cases calls
    rcases runs_claimRun (works.runs ran) with
      ⟨rfl, owner', queued, left⟩ | ⟨e, rfl, stale, rfl, -⟩
    · intro k status owner run task there
      rw [left] at task there
      by_cases same : msg.key = k
      · subst same
        obtain ⟨-, rfl⟩ : owner' = owner ∧ .running = run := by simpa [SQSMessage.key] using there
        have fits := fitting _ status owner' .queued task queued
        exact ⟨fun _ => ⟨rfl, fits.2 rfl rfl⟩, fun apart => absurd rfl apart⟩
      · have apart : k ≠ runKey msg.taskID msg.runID := Ne.symm same
        have was : w.ledger.run k = some (owner, run) := by simpa [apart] using there
        exact ⟨fun here => absurd here same, fun _ => (fitting k status owner run task was).1⟩
    · simp only [stale, if_true]
      exact fitting.unchanged rfl fun k run status fits => fits.1
  | setRunning msg =>
    cases calls
    refine fitting.updates (serves msg rfl) (works.runs ran) ?_ ?_
    · rintro rfl k run status same listed fits
      exact ⟨fun _ => ⟨(fits.1 same).1, rfl⟩, fun apart => absurd same apart⟩
    · rintro e rfl stale k run status unlisted fits
      simp only [stale, if_true]
      have apart : msg.key ≠ k := by
        intro same
        refine unlisted same ?_
        rcases (fits.1 same).2 with rfl | rfl <;> simp
      exact ⟨apart, fits.2 apart⟩
  | completeStale msg =>
    cases calls
    exact fitting.completes (works.runs ran)
      (fun k old status same fits => absurd same fits.1) (fun k run status apart fits => fits.2)
  | completeUpdateFailed msg e | completeTaskLoadFailed msg e =>
    cases calls
    exact fitting.completes (works.runs ran)
      (fun k old status same fits => fits.elim) (fun k run status apart fits => fits.elim)
  | getTask msg =>
    cases calls
    obtain ⟨read, unchanged⟩ := works.runs ran
    subst w'
    cases answer with
    | ok task =>
      dsimp only
      split <;> exact fitting.unchanged rfl fun k run status fits => fits
    | error e =>
      intro k status owner run task there
      obtain ⟨task', found, -⟩ := task_of_ledger task
      have read : Except.error e = w.store.getTask msg.taskID := read
      rw [serves msg rfl, MemoryStore.getTask, found] at read
      cases read
  | completeMismatch msg | completeRunLoadFailed msg e =>
    cases calls
    exact fitting.completes (works.runs ran)
      (fun k old status same fits => ⟨fun _ => ⟨rfl, (fits.1 same).2⟩, fun apart => absurd same apart⟩)
      (fun k run status apart fits => ⟨fun same => absurd same apart, fun _ => fits.2 apart⟩)
  | updateMismatch msg | updateRunLoadFailed msg e =>
    cases calls
    refine fitting.updates (serves msg rfl) (works.runs ran) ?_ ?_
    · rintro rfl k run status same listed fits
      obtain ⟨rfl, -⟩ := fits.1 same
      exact fun _ => rfl
    · rintro e rfl stale k run status unlisted fits
      refine fits.2 fun same => unlisted same ?_
      rw [(fits.1 same).2]
      exact List.mem_singleton.mpr rfl
  | getRun msg task =>
    cases calls
    obtain ⟨-, rfl⟩ := works.runs ran
    cases answer <;> exact fitting.unchanged rfl fun k run status fits => fits
  | newWorkspace msg task run =>
    cases calls
    obtain rfl := works.runs ran
    cases answer with
    | ok _ => exact fitting.unchanged rfl fun k run status fits => fits
    | error message =>
      refine fitting.unchanged rfl fun k run status fits => ?_
      by_cases same : msg.key = k
      · obtain ⟨rfl, -⟩ := fits.1 same
        intro terminal
        cases terminal
      · exact fits.2 same
  | executing msg task run program =>
    cases program with
    | ret outcome => cases calls
    | call request next =>
      cases calls
      exact fitting.unchanged (exec_engine_ledger ran) fun k run status fits => fits
  | finalizeComplete msg final =>
    cases calls
    have ran := works.runs ran
    have answered : Fitting t w' (.finalizeUpdate msg final) :=
      fitting.completes ran
        (fun k old status same fits =>
          ⟨fun _ => ⟨rfl, (fits.1 same).2⟩, fun apart => absurd same apart⟩)
        (fun k run status apart fits => ⟨fun same => absurd same apart, fun _ => fits.2 apart⟩)
    cases answer with
    | ok _ => exact answered
    | error e =>
      -- the run was not there, so that it is not the task's active one
      intro k status owner run task there
      have fits := answered k status owner run task there
      refine fits.2 ?_
      rintro rfl
      obtain ⟨-, ⟨-, -, old, was⟩ | ⟨apart, -⟩⟩ := completed_run ran there
      · cases (runs_completeRun was ran).1
      · exact apart rfl
  | finalizeUpdate msg final =>
    cases calls
    refine fitting.updates (serves msg rfl) (works.runs ran) ?_ ?_
    · rintro rfl k run status same listed fits
      obtain ⟨rfl, -⟩ := fits.1 same
      exact fun _ => finalTaskStatus_eq final
    · rintro e rfl stale k run status unlisted fits
      simp only [stale, if_true]
      refine fits.2 fun same => unlisted same ?_
      rw [(fits.1 same).2]
      exact List.mem_singleton.mpr rfl
  | returned result => cases calls

/-! ## The last step -/

/-- No call but the one that is for it changes the last step of a run. -/
theorem exec_lastStep {k : String} (ran : w.Exec sha256 call answer w')
    (there : w.store.runs.lookup k = some run) :
    (∃ run', w'.store.runs.lookup k = some run' ∧ run'.lastStepIndex = run.lastStepIndex) ∨
    ∃ taskID runID stepIndex, call = .engine (.updateLastStepIndex taskID runID stepIndex) ∧
      runKey taskID runID = k ∧
      w'.store.runs.lookup k = some { run with lastStepIndex := stepIndex } := by
  cases exec_effect ran with
  | still | queue | task => exact .inl ⟨run, there, rfl⟩
  | run sets found kept steps => exact .inl (Rewritten.lastStep (.changed found steps) there)
  | transaction done =>
    cases done with
    | create owner newTask newRun newKey | resume owner found newRun identity =>
      exact .inl (Rewritten.lastStep (.new (by simp) newRun) there)
  | engine did =>
    rcases engineEffect_lastStep did there with kept | ⟨taskID, runID, stepIndex, rfl, same, left⟩
    · exact .inl kept
    · exact .inr ⟨taskID, runID, stepIndex, rfl, same, left⟩

/-- What the worker has written stands after its calls, and so does what it writes. -/
theorem StepsKept.worked (kept : StepsKept w wrote) (ran : w.Exec sha256 call answer w') :
    StepsKept w' (notedSteps wrote call answer) := by
  have stands : (∀ taskID runID n, call ≠ .engine (.updateLastStepIndex taskID runID n)) →
      StepsKept w' wrote := by
    intro other k n noted
    obtain ⟨run, there, bound⟩ := kept k n noted
    rcases exec_lastStep ran there with ⟨run', there', same⟩ | ⟨taskID, runID, index, rfl, -⟩
    · exact ⟨run', there', same ▸ bound⟩
    · exact absurd rfl (other taskID runID index)
  cases call with
  | engine call =>
    cases call with
    | updateLastStepIndex taskID runID index =>
      rcases ran with ⟨answered, left⟩ | ⟨⟨message, failed⟩, rfl⟩
      · rcases updateLastStepIndex_cases w taskID runID index with
          ⟨-, result⟩ | ⟨run, found, result⟩
        · rw [result] at answered left
          subst answered left
          exact kept
        · rw [result] at answered left
          subst answered left
          intro k n noted
          by_cases same : k = runKey taskID runID
          · subst same
            obtain rfl : index = n := by simpa [notedSteps] using noted
            exact ⟨_, AList.lookup_insert _, le_refl _⟩
          · obtain ⟨run', there, bound⟩ := kept k n (by simpa [notedSteps, same] using noted)
            exact ⟨run', (AList.lookup_insert_ne same).trans there, bound⟩
      · subst failed
        exact kept
    | _ => exact stands (fun _ _ _ same => by cases same)
  | _ => exact stands (fun _ _ _ same => by cases same)

/-! ## The repair -/

/-- A repair's call leaves nothing drifted exactly if what it writes fits. -/
theorem steady_repaired_iff {call : RepairCall} {resume : call.Ans F → RepairPC}
    {answer : call.Ans F} (steady : Steady msg s) (calls : s.repair.view quote = .call call resume)
    (ran : s.world.RepairRuns call answer w') :
    Steady msg { s with world := w', repair := resume answer } ↔ WriteFits msg s .repair := by
  -- what is left to compare are the two parts that a write can break
  have parts : Steady msg { s with world := w', repair := resume answer } ↔
      Fitting msg.taskID w' s.worker ∧ StepsKept w' s.wrote :=
    ⟨fun after => ⟨after.fitting, after.steps⟩, fun after => ⟨steady.serves, after.1, after.2⟩⟩
  rw [parts]
  obtain ⟨world, wrote, worker, repair⟩ := s
  dsimp only at calls ran ⊢
  cases repair with
  | contextErr report issue rest =>
    cases calls
    obtain rfl := ran
    exact iff_of_true ⟨steady.fitting, steady.steps⟩ fun _ => trivial
  | getRun report issue rest =>
    cases calls
    obtain ⟨-, rfl⟩ := ran
    exact iff_of_true ⟨steady.fitting, steady.steps⟩ fun _ => trivial
  | updateTaskForRun report issue target rest =>
    cases calls
    have kept : StepsKept w' wrote := by
      obtain ⟨-, rfl⟩ := ran
      exact steady.steps.sameRuns changeTask_runs
    have ran : world.Runs (fun _ => "") (.updateTaskStatusForRun issue.taskID issue.runID
      repairableStatuses target) answer w' := ran
    rw [and_iff_left kept]
    rcases runs_updateTaskStatusForRun ran with
      ⟨-, old, -, active, left⟩ | ⟨e, -, -, rfl, unlisted⟩
    · rw [fitting_setTask_iff steady.fitting left]
      constructor
      · rintro fits - same status owner run task there
        exact fits same owner run there
      · rintro fits same owner run there
        exact fits rfl same old owner run (same ▸ active) there
    · refine iff_of_true steady.fitting ?_
      rintro - same status owner run task -
      exact absurd (mem_repairableStatuses status) (unlisted status (same ▸ task))
  | updateTask report issue rest =>
    cases calls
    obtain ⟨-, rfl⟩ := ran
    rw [and_iff_left (steady.steps.sameRuns changeTask_runs)]
    rcases updateTaskStatus_cases world issue.taskID .failed with
      ⟨missing, result⟩ | ⟨k, old, active, left⟩
    · refine iff_of_true ?_ ?_
      · rw [World.after, result]
        exact steady.fitting
      · rintro - same k status owner run task -
        rw [← same, missing] at task
        cases task
    · rw [fitting_setTask_iff steady.fitting left]
      constructor
      · rintro fits - same k' status owner run task there
        rw [← same, active] at task
        cases task
        exact fits same owner run there
      · rintro fits same owner run there
        exact fits rfl same k old owner run (same ▸ active) there
  | updateLastStep report issue want rest =>
    cases calls
    have same : w'.ledger = world.ledger := by
      have ran : world.EngineRuns (fun _ => "")
        (.updateLastStepIndex issue.taskID issue.runID want) answer w' := ran
      exact (engineRuns_effect ran).ledger
    obtain ⟨-, rfl⟩ := ran
    rw [and_iff_right (steady.fitting.unchanged same fun _ _ _ fits => fits)]
    rcases updateLastStepIndex_cases world issue.taskID issue.runID want with
      ⟨missing, result⟩ | ⟨run, found, result⟩
    · rw [World.after, result]
      refine iff_of_true steady.steps ?_
      rintro - n noted
      obtain ⟨run, there, -⟩ := steady.steps _ n noted
      rw [missing] at there
      cases there
    · rw [World.after, result]
      constructor
      · rintro after - n noted
        obtain ⟨run', there, bound⟩ := after _ n noted
        rw [AList.lookup_insert, Option.some.injEq] at there
        subst there
        exact bound
      · intro fits k n noted
        by_cases mine : k = runKey issue.taskID issue.runID
        · subst mine
          exact ⟨_, AList.lookup_insert _, fits rfl n noted⟩
        · obtain ⟨run', there, bound⟩ := steady.steps k n noted
          exact ⟨run', (AList.lookup_insert_ne mine).trans there, bound⟩
  | returned report cancelled => cases calls

/-- Every step leaves nothing drifted exactly if what a repair writes in it fits. -/
theorem steady_iff {s s' : RepairState F} (steady : Steady msg s)
    (step : RepairStep eenv quote s e s') : Steady msg s' ↔ WriteFits msg s e := by
  cases step with
  | moved moves =>
    refine iff_of_true ?_ fun same => by cases same
    obtain ⟨world, wrote, worker, repair⟩ := s
    cases worker with
    | executing msg' task run program =>
      cases program <;> cases moves
      exact ⟨steady.serves, steady.fitting, steady.steps⟩
    | _ => cases moves
  | worked calls works ran =>
    refine iff_of_true ⟨?_, ?_, ?_⟩ fun same => by cases same
    · exact fun msg' carries => steady.serves msg' (WorkerPC.carries_next calls carries)
    · refine steady.fitting.worked (fun msg' carries => ?_) calls works ran
      rw [steady.serves msg' carries]
    · exact steady.steps.worked ran
  | repaired calls ran => exact steady_repaired_iff steady calls ran
  | ticked clock =>
    exact iff_of_true ⟨steady.serves, steady.fitting, steady.steps⟩ fun same => by cases same

variable {issues : List DriftIssue} {history : List (RepairState F × RepairEvent)}

private theorem WorkerPC.returned_of_done {pc : WorkerPC F} (finished : pc.view eenv = .done) :
    ∃ result, pc = .returned result := by
  cases pc with
  | executing msg task run program => cases program <;> cases finished
  | returned result => exact ⟨result, rfl⟩
  | _ => cases finished

/-- **Repairs and a worker.** Nothing drifts in any state of a run exactly if every status
and every last step that the repair writes fits what the run, the task and the worker have
come to when it is written. Once both have finished, the task then has the status of its
active run if that is over, and the last step of every run is not below what the worker
last wrote there. -/
theorem repair_introduces_no_drift_iff
    (path : (repairSystem eenv quote msg issues).Path history s) :
    (System.Throughout (Steady msg) history s ↔ System.Within (WriteFits msg) history) ∧
      (Steady msg s → s.worker.view eenv = .done → s.repair.view (F := F) quote = .done →
        (∀ task run, s.world.store.tasks.lookup msg.taskID = some task →
          s.world.store.getRun msg.taskID task.activeRunID = .ok run →
          run.status.terminal = true → task.status = mapRunToTaskStatus run.status) ∧
        ∀ taskID runID run n, s.world.store.getRun taskID runID = .ok run →
          s.wrote (runKey taskID runID) = some n → n ≤ run.lastStepIndex) := by
  constructor
  · refine path.throughout_iff_within ?_ fun s e s' _ steady step => steady_iff steady step
    rintro s ⟨worker, -, wrote, agrees⟩
    exact steady_initial worker wrote agrees
  · intro steady finished _
    obtain ⟨result, returned⟩ := WorkerPC.returned_of_done finished
    refine ⟨fun task run there active terminal => ?_, fun taskID runID run n there noted => ?_⟩
    · have fits := steady.fitting _ _ _ _ (ledger_task there) (ledger_run (getRun_eq_ok.mp active))
      rw [returned] at fits
      exact fits terminal
    · obtain ⟨run', there', bound⟩ := steady.steps _ n noted
      cases (getRun_eq_ok.mp there).symm.trans there'
      exact bound

/-! ## A race -/

private theorem worked_step (calls : pc.view eenv = .call call resume) (answer : call.Ans)
    (ran : w.Runs eenv.sha256 call answer w') :
    (repairSystem eenv quote msg issues).Step ⟨w, wrote, pc, repair⟩ .worker
      ⟨w', notedSteps wrote call answer, resume answer, repair⟩ :=
  .worked calls (runs_works ran) (.inl ran)

private theorem moved_step (moves : pc.view eenv = .tau next) :
    (repairSystem eenv quote msg issues).Step ⟨w, wrote, pc, repair⟩ .worker
      ⟨w, wrote, next, repair⟩ :=
  .moved moves

private theorem repaired_step {pc : WorkerPC F} {call : RepairCall} {resume : call.Ans F → RepairPC}
    (calls : repair.view quote = .call call resume) (answer : call.Ans F)
    (ran : w.RepairRuns call answer w') :
    (repairSystem eenv quote msg issues).Step ⟨w, wrote, pc, repair⟩ .repair
      ⟨w', wrote, pc, resume answer⟩ :=
  .repaired calls ran

end RepairRaces

/-- An engine that rejects every prompt of more than one letter. -/
def strictEngine : EngineEnv Rat := { plainEngine with policy := { maxChars := 1 } }

/-- What a check reports of a task whose run was claimed and that is not yet running. -/
def claimedIssue : DriftIssue :=
  ⟨.taskRunStatusMismatch, "acme", "task_1", "run_1", "task=QUEUED run=RUNNING"⟩

private theorem freshWorld_agrees : freshWorld.AgreesAt "task_1" := by
  intro k status owner run task there
  cases task
  cases there
  rfl

/-- The run is claimed and the task is still queued. -/
def claimedWorld : World Rat := freshWorld.after (freshWorld.store.claimRun 0 "task_1" "run_1")

/-- A worker claims the run, a check finds the task behind, and the repair has read the
run's status. -/
theorem claimed_and_read : ∃ history,
    (repairSystem strictEngine id freshMessage [claimedIssue]).Path history
      ⟨claimedWorld, fun _ => none, .setRunning freshMessage,
        .updateTaskForRun ⟨1, 0, 0, []⟩ claimedIssue .running []⟩ ∧
    System.Within (WriteFits freshMessage) history ∧
    ∃ mid e, (mid, e) ∈ history ∧ check mid.world.store "acme" 0 = [claimedIssue] := by
  have s0 : (repairSystem strictEngine id freshMessage [claimedIssue]).Path []
      ⟨freshWorld, fun _ => none, .claim freshMessage, .start [claimedIssue]⟩ :=
    .start ⟨rfl, rfl, rfl, freshWorld_agrees⟩
  have s1 := s0.next (worked_step rfl _ (by exact ⟨rfl, rfl⟩))
  have s2 := s1.next (repaired_step rfl (by exact false) (by exact rfl))
  have s3 := s2.next (repaired_step rfl _ (by exact ⟨rfl, rfl⟩))
  refine ⟨_, s3, ?_, _, _, List.mem_of_getElem? (i := 1) rfl, by decide⟩
  refine System.within_cons.mpr ⟨fun _ => trivial, System.within_cons.mpr ⟨fun _ => trivial,
    System.within_cons.mpr ⟨(fun same => by cases same), ?_⟩⟩⟩
  exact fun past member => by cases member

/-- The repair writes before the worker goes on. -/
theorem repair_introduces_no_drift_in_time : ∃ history s task run,
    (repairSystem strictEngine id freshMessage [claimedIssue]).Path history s ∧
      s.worker.view strictEngine = .done ∧ s.repair.view (F := Rat) id = .done ∧
      s.world.store.getTask "task_1" = .ok task ∧ s.world.store.getRun "task_1" "run_1" = .ok run ∧
      run.status = .failed ∧ task.status = mapRunToTaskStatus run.status := by
  obtain ⟨history, s0, within, -⟩ := claimed_and_read
  have s1 := s0.next (repaired_step rfl _ (by exact ⟨rfl, rfl⟩))
  have s2 := s1.next (worked_step rfl _ (by exact ⟨rfl, rfl⟩))
  have s3 := s2.next (worked_step rfl _ (by exact ⟨rfl, rfl⟩))
  have s4 := s3.next (worked_step rfl _ (by exact ⟨rfl, rfl⟩))
  have s5 := s4.next (worked_step rfl (by exact .ok ()) (by exact rfl))
  have s6 := s5.next (moved_step rfl)
  have s7 := s6.next (worked_step rfl _ (by exact ⟨rfl, rfl⟩))
  have s8 := s7.next (worked_step rfl _ (by exact ⟨rfl, rfl⟩))
  have exact' := repair_introduces_no_drift_iff s8
  refine ⟨_, _, _, _, s8, rfl, rfl, rfl, rfl, rfl, ?_⟩
  refine (exact'.2 (exact'.1.mpr ?_).1 rfl rfl).1 _ _ rfl rfl rfl
  iterate 7 refine System.within_cons.mpr ⟨(fun same => by cases same), ?_⟩
  refine System.within_cons.mpr ⟨?_, within⟩
  rintro - - status owner run task there
  cases there
  exact ⟨fun _ => ⟨rfl, .inr rfl⟩, fun apart => absurd rfl apart⟩

/-- The worker fails the run and the task before the repair writes, which puts the task
back to running. -/
theorem running_written_late : ∃ history s task run,
    (repairSystem strictEngine id freshMessage [claimedIssue]).Path history s ∧
      (∃ mid e, (mid, e) ∈ history ∧ check mid.world.store "acme" 0 = [claimedIssue]) ∧
      s.worker.view strictEngine = .done ∧ s.repair.view (F := Rat) id = .done ∧
      s.world.store.getTask "task_1" = .ok task ∧ s.world.store.getRun "task_1" "run_1" = .ok run ∧
      run.status = .failed ∧ task.status = .running := by
  obtain ⟨history, s0, -, mid, e, member, reported⟩ := claimed_and_read
  have s1 := s0.next (worked_step rfl _ (by exact ⟨rfl, rfl⟩))
  have s2 := s1.next (worked_step rfl _ (by exact ⟨rfl, rfl⟩))
  have s3 := s2.next (worked_step rfl _ (by exact ⟨rfl, rfl⟩))
  have s4 := s3.next (worked_step rfl (by exact .ok ()) (by exact rfl))
  have s5 := s4.next (moved_step rfl)
  have s6 := s5.next (worked_step rfl _ (by exact ⟨rfl, rfl⟩))
  have s7 := s6.next (worked_step rfl _ (by exact ⟨rfl, rfl⟩))
  have s8 := s7.next (repaired_step rfl _ (by exact ⟨rfl, rfl⟩))
  refine ⟨_, _, _, _, s8, ⟨mid, e, ?_, reported⟩, rfl, rfl, rfl, rfl, rfl, rfl⟩
  iterate 8 refine List.mem_cons_of_mem _ ?_
  exact member

end AgentForge
