import AgentForge.LifecycleInvariant
import AgentForge.StoreLedger

/-! Every step of the services and workers is a move of the lifecycle protocol,
so what the protocol's invariant says holds of the code.

A thread's own view of the store is what makes its calls the moves they are: a
request that read a task knows that the task's active run is the task's own, and
a worker knows its message was queued for the run's owner. -/
namespace AgentForge

open Lifecycle (Ledger Phase)
open Transition (Config Event View Pool forall_update)

section Reads

variable {F : Type} {w : World F} {existing : Task F}

/-- A run loaded for its owner is the one asked for. -/
theorem loaded_run (keyed : w.store.Keyed) (owns : w.ledger.Owns taskID (runKey taskID runID))
    (found : w.store.getRun taskID runID = .ok run) : run.runID = runID := by
  have there := getRun_eq_ok.mp found
  obtain ⟨status, owner⟩ := owns
  obtain ⟨same, -⟩ : run.taskID = taskID ∧ run.status = status := by
    simpa [ledger_run there] using owner
  have key := keyed.run _ _ there
  rw [same, runKey_inj] at key
  exact key

/-- A task found by its idempotency key is in the ledger under its own id. -/
theorem task_by_key (keyed : w.store.Keyed)
    (found : w.store.getTaskByIdempotencyKey tenantID key = .ok existing) :
    w.ledger.task existing.taskID =
      some (runKey existing.taskID existing.activeRunID, existing.status) := by
  unfold MemoryStore.getTaskByIdempotencyKey at found
  split at found
  · cases found
  · split at found
    · cases found
    · rename_i there
      cases found
      rw [keyed.task _ _ there]
      exact ledger_task there

end Reads

variable {F : Type} [Float64 F] {senv : ServiceEnv} {eenv : EngineEnv F} {w w' : World F}
  {sha256 : Bytes → String} {call : Call F} {answer : call.Ans}

/-- What the moves rely on beyond their own phase. -/
structure World.Sane (w : World F) : Prop where
  keyed : w.store.Keyed
  active : ∀ t k status, w.ledger.task t = some (k, status) → w.ledger.Owns t k
  sent : ∀ t k, w.ledger.sent t k → w.ledger.Owns t k

/-- A call that does not fail is carried out. -/
theorem StoreWorks.runs (works : StoreWorks call answer) (ran : w.Exec sha256 call answer w')
    (outside : ∀ c, call ≠ .engine c := by simp) : w.Runs sha256 call answer w' := by
  rcases ran with ran | ⟨fault, rfl⟩
  · exact ran
  · cases call with
    | engine c => exact absurd rfl (outside c)
    | newLocalManager _ => exact (rfl : w' = w')
    | _ => exact absurd fault works

/-- A `MemoryStore` carries out every call. -/
theorem runs_works (ran : w.Runs sha256 call answer w') : StoreWorks call answer := by
  cases call
  case engine | newLocalManager => trivial
  case now | newID | enqueue => exact id
  all_goals
    obtain ⟨rfl, -⟩ := ran
    rintro ⟨message, fault⟩
  case applyCreateTransition task run =>
    unfold MemoryStore.applyCreateTransition at fault
    dsimp only at fault
    split_ifs at fault <;> cases fault
  case applyResumeTransition taskID run fromStatuses toStatus =>
    unfold MemoryStore.applyResumeTransition at fault
    dsimp only at fault
    split at fault
    · cases fault
    · split at fault
      · cases fault
      · split_ifs at fault <;> cases fault
  case updateTaskStatusForRun =>
    obtain missing | ⟨task, refused⟩ := changeTask_error fault
    · cases missing
    · split_ifs at refused <;> cases refused
  case claimRun =>
    obtain missing | ⟨run, refused⟩ := changeRun_error fault
    · cases missing
    · split_ifs at refused
      cases refused
  case setAbortRequested =>
    obtain missing | ⟨task, refused⟩ := changeTask_error fault
    · cases missing
    · cases refused
  case completeRun | resetRunToQueued =>
    obtain missing | ⟨run, refused⟩ := changeRun_error fault
    · cases missing
    · cases refused
  case getTask | getRun | getStep =>
    simp only [MemoryStore.getTask, MemoryStore.getRun, MemoryStore.getStep] at fault
    split at fault <;> cases fault
  case getTaskByIdempotencyKey =>
    unfold MemoryStore.getTaskByIdempotencyKey at fault
    split at fault
    · cases fault
    · split at fault <;> cases fault
  case listRuns => cases fault

/-- A call carried out is a step of the system. -/
theorem runs_step (there : c.threads i = some thread)
    (calls : thread.view senv eenv = .call call resume) (answer : call.Ans)
    (permitted : permits thread call answer) (ran : c.world.Runs eenv.sha256 call answer w) :
    (servicePool senv eenv permits).Step c (.step i)
      ⟨w, Function.update c.threads i (some (resume answer))⟩ :=
  .call there calls ⟨runs_works ran, permitted⟩ (.inl ran)

/-- Calls that are all carried out are steps of the system, if their answers are permitted. -/
theorem servicePool_serves (senv : ServiceEnv) (eenv : EngineEnv F) (outside : Outside F)
    (permitted : ∀ thread w call,
      permits thread call (World.respond eenv.sha256 outside w call).1) :
    (servicePool senv eenv permits).Serves (World.respond eenv.sha256 outside) := by
  intro thread w call
  have ran := runs_respond eenv.sha256 outside w call
  exact ⟨⟨runs_works ran, permitted thread w call⟩, .inl ran⟩

theorem queueAccepts_respond (outside : Outside F) (accepts : outside.queue = .ok ())
    (w : World F) (call : Call F) : QueueAccepts call (w.respond sha256 outside call).1 := by
  cases call with
  | enqueue msg => exact accepts
  | _ => trivial

theorem plainService_serves (outside : Outside Rat) :
    (servicePool plainService plainEngine fun _ _ _ => True).Serves
      (World.respond plainEngine.sha256 outside) :=
  servicePool_serves _ _ outside fun _ _ _ => trivial

theorem plainService_starts :
    (servicePool plainService plainEngine fun _ _ _ => True).system.Path []
      ⟨{}, fun _ => none⟩ :=
  .start ⟨⟨rfl, rfl, rfl⟩, rfl⟩

/-- Whether or not a call of the engine fails, it does not show. -/
theorem exec_engine_ledger {answer : c.Ans} (ran : w.Exec sha256 (.engine c) answer w') :
    w'.ledger = w.ledger := by
  rcases ran with ran | ⟨-, rfl⟩
  · exact (engineRuns_effect ran).ledger
  · rfl

/-! ## Create -/

/-- `enqueueQueuedRun` is about the task and the run it was given. -/
theorem enqueueQueued_phase (senv : ServiceEnv) (response : RunResponse) (task : Task F)
    (run : Run F) (now : Time) :
    (CreatePC.enqueueQueued senv response task run now).phase = .idle ∨
    (CreatePC.enqueueQueued senv response task run now).phase =
      .knows task.taskID (runKey task.taskID run.runID) := by
  unfold CreatePC.enqueueQueued
  split
  · exact .inl rfl
  · rename_i msg sends
    unfold queuedRunMessage at sends
    split at sends
    · cases sends
    · cases sends
      exact .inr rfl

private theorem CreatePC.moves {pc : CreatePC F} (sane : w.Sane) (ok : pc.phase.Ok w.ledger)
    (calls : pc.view senv = .call call resume) (works : StoreWorks call answer)
    (accepts : QueueAccepts call answer) (ran : w.Exec sha256 call answer w') :
    Lifecycle.Move w.ledger pc.phase w'.ledger (resume answer).phase := by
  cases pc with
  | lookup req mc =>
    cases calls
    obtain ⟨read, unchanged⟩ := works.runs ran
    subst w'
    cases answer with
    | ok existing =>
      have there := task_by_key sane.keyed read.symm
      dsimp only
      split
      · exact .quiet
      · exact .learn (sane.active _ _ _ there)
    | error e => cases e <;> exact .quiet
  | loadActiveRun existing =>
    cases calls
    obtain ⟨read, unchanged⟩ := works.runs ran
    subst w'
    cases answer with
    | ok run =>
      simp only [phase, loaded_run sane.keyed ok read.symm]
      exact .quiet
    | error e => exact .leave rfl rfl
  | stamp existing run =>
    cases calls
    obtain ⟨-, rfl⟩ := works.runs ran
    rcases enqueueQueued_phase senv _ existing run answer with idle | sends
    · rw [idle]
      exact .leave rfl rfl
    · rw [sends]
      exact .quiet
  | readClock req mc | newTaskID req mc now | newRunID req mc now taskID =>
    cases calls
    obtain ⟨-, rfl⟩ := works.runs ran
    exact .quiet
  | apply req mc now taskID runID =>
    cases calls
    rcases runs_applyCreateTransition (works.runs ran) with
      ⟨rfl, -, newTask, newRun, left⟩ | ⟨e, rfl, rfl⟩
    · rw [left]
      exact .create newTask newRun
    · dsimp only
      split
      · contradiction
      · split <;> exact .quiet
      · exact .quiet
  | fetchWinner tenantID idempotencyKey =>
    cases calls
    obtain ⟨-, rfl⟩ := works.runs ran
    cases answer <;> exact .quiet
  | enqueue response msg =>
    cases calls
    obtain rfl : answer = .ok () := accepts
    obtain rfl := works.runs ran
    rw [ledger_send]
    exact .send
  | returned result => cases calls

/-! ## Resume and Abort -/

private theorem ResumePC.moves (ok : pc.phase.Ok w.ledger) (sound : (Thread.resume pc).Sound)
    (calls : pc.view senv = .call call resume) (works : StoreWorks call answer)
    (ran : w.Exec sha256 call answer w') :
    Lifecycle.Move w.ledger pc.phase w'.ledger (resume answer).phase ∧
      (Thread.resume (resume answer)).Sound := by
  cases pc with
  | getTask taskID req =>
    cases calls
    obtain ⟨-, rfl⟩ := works.runs ran
    cases answer with
    | ok task =>
      dsimp only
      unfold ResumePC.checkRequest
      split_ifs <;> exact ⟨.quiet, trivial⟩
    | error e => exact ⟨.quiet, trivial⟩
  | getRun taskID req task =>
    cases calls
    obtain ⟨-, rfl⟩ := works.runs ran
    cases answer <;> exact ⟨.quiet, trivial⟩
  | getStep taskID req task =>
    cases calls
    obtain ⟨-, rfl⟩ := works.runs ran
    cases answer with
    | ok step =>
      dsimp only
      split <;> exact ⟨.quiet, trivial⟩
    | error e => exact ⟨.quiet, trivial⟩
  | readClock taskID req task =>
    cases calls
    obtain ⟨-, rfl⟩ := works.runs ran
    exact ⟨.quiet, trivial⟩
  | newRunID taskID req task now =>
    cases calls
    obtain ⟨-, rfl⟩ := works.runs ran
    dsimp only
    split <;> exact ⟨.quiet, trivial⟩
  | apply taskID req task mc now runID =>
    cases calls
    rcases runs_applyResumeTransition (works.runs ran) with
      ⟨rfl, -, named, numbered, ⟨k, status, active, stopped⟩, newRun, left⟩ | ⟨e, rfl, rfl⟩
    · rw [left]
      refine ⟨.resume active ?_ newRun, named, numbered⟩
      rintro rfl
      simp [resumableStatuses] at stopped
    · exact ⟨.quiet, trivial⟩
  | enqueue msg =>
    cases calls
    have queued := works.runs ran
    cases answer with
    | ok _ =>
      obtain rfl := queued
      rw [ledger_send]
      exact ⟨.sendResumed, trivial⟩
    | error message =>
      obtain rfl := queued
      rw [ledger_refuse]
      dsimp only
      rw [if_neg (by simpa [Thread.Sound] using sound)]
      exact ⟨.refuse, trivial⟩
  | failRun taskID runID message =>
    cases calls
    obtain ⟨-, left⟩ := runs_completeRun ok.1 (works.runs ran)
    rw [left]
    exact ⟨.failRun, trivial⟩
  | failTask taskID runID message =>
    cases calls
    rcases runs_updateTaskStatusForRun (works.runs ran) with
      ⟨-, status, open', active, left⟩ | ⟨e, -, -, rfl, lost⟩
    · rw [left]
      exact ⟨.failTask active (by simpa using open'), trivial⟩
    · exact ⟨.yield fun status active => by simpa using lost status active, trivial⟩
  | returned result => cases calls

theorem AbortPC.moves {pc : AbortPC F} (calls : pc.view = .call call resume)
    (works : StoreWorks call answer) (ran : w.Exec sha256 call answer w') :
    w'.ledger = w.ledger := by
  cases pc with
  | getTask tenantID taskID req | getTaskAgain taskID =>
    cases calls
    obtain ⟨-, rfl⟩ := works.runs ran
    rfl
  | setAbort taskID reason =>
    cases calls
    exact runs_setAbortRequested (works.runs ran)
  | returned result => cases calls

/-! ## The worker -/

/-- `finalizeRun` writes the task status that its run status calls for. -/
theorem finalTaskStatus_eq (status : TerminalStatus) :
    finalTaskStatus status.1 = mapRunToTaskStatus status.1 := by
  obtain ⟨status, terminal⟩ := status
  cases status <;> first | rfl | cases terminal

/-- Closing a task whose active run is the worker's own always succeeds. -/
theorem closes {msg : SQSMessage F} {status : RunStatus} {answer : Except StoreError Unit}
    (ok : (Phase.closing msg.taskID msg.key status).Ok w.ledger)
    (matching : toStatus = mapRunToTaskStatus status)
    (ran : w.Runs sha256 (.updateTaskStatusForRun msg.taskID msg.runID [.running] toStatus)
      answer w') :
    answer = .ok () ∧ Lifecycle.Move w.ledger (.closing msg.taskID msg.key status) w'.ledger .idle := by
  rcases runs_updateTaskStatusForRun ran with ⟨done, old, -, -, left⟩ | ⟨e, -, -, -, lost⟩
  · refine ⟨done, ?_⟩
    rw [left, matching]
    exact .close ok.2.2.2
  · exact absurd (List.mem_singleton.mpr rfl) (lost .running ok.2.2.2)

/-- Completing the run a worker executes always succeeds. -/
theorem completes {msg : SQSMessage F} {answer : Except StoreError Unit}
    (ok : (Phase.running msg.taskID msg.key).Ok w.ledger) (terminal : status.terminal = true)
    (ran : w.Runs sha256 (.completeRun msg.taskID msg.runID status) answer w') :
    answer = .ok () ∧ Lifecycle.Move w.ledger (.running msg.taskID msg.key) w'.ledger
      (.closing msg.taskID msg.key status) := by
  obtain ⟨done, left⟩ := runs_completeRun ok.1 ran
  refine ⟨done, ?_⟩
  rw [left]
  exact .complete terminal

private theorem WorkerPC.moves (sane : w.Sane) (ok : pc.phase.Ok w.ledger)
    (sound : (Thread.worker pc).Sound) (calls : pc.view eenv = .call call resume)
    (works : StoreWorks call answer) (ran : w.Exec sha256 call answer w') :
    Lifecycle.Move w.ledger pc.phase w'.ledger (resume answer).phase ∧
      (Thread.worker (resume answer)).Sound := by
  cases pc with
  | claim msg =>
    cases calls
    rcases runs_claimRun (works.runs ran) with
      ⟨rfl, owner, queued, left⟩ | ⟨e, rfl, stale, rfl, -⟩
    · obtain ⟨status, owned⟩ := sane.sent _ _ ok
      obtain rfl : owner = msg.taskID := by
        rw [SQSMessage.key, queued] at owned
        cases owned
        rfl
      rw [left]
      exact ⟨.claim queued, trivial⟩
    · simp only [stale, if_true]
      exact ⟨.leave rfl rfl, trivial⟩
  | setRunning msg =>
    cases calls
    rcases runs_updateTaskStatusForRun (works.runs ran) with
      ⟨rfl, status, open', active, left⟩ | ⟨e, rfl, stale, rfl, lost⟩
    · rw [left]
      exact ⟨.begin active (by simpa using open'), trivial⟩
    · simp only [stale, if_true]
      exact ⟨.lose fun status active => by simpa using lost status active, trivial⟩
  | completeStale msg =>
    cases calls
    obtain ⟨-, left⟩ := runs_completeRun ok.1 (works.runs ran)
    rw [left]
    exact ⟨.abortStale, trivial⟩
  | completeUpdateFailed msg e => exact sound.elim
  | getTask msg =>
    cases calls
    obtain ⟨read, unchanged⟩ := works.runs ran
    subst w'
    obtain ⟨task, there, -⟩ := task_of_ledger ok.2.2
    obtain rfl : answer = .ok task := by rw [read, MemoryStore.getTask, there]
    dsimp only
    split
    · exact ⟨.quiet, trivial⟩
    · exact ⟨.quiet, sane.keyed.task _ _ there⟩
  | completeTaskLoadFailed msg e => exact sound.elim
  | completeMismatch msg | completeRunLoadFailed msg e =>
    cases calls
    exact ⟨(completes ok rfl (works.runs ran)).2, trivial⟩
  | updateMismatch msg | updateRunLoadFailed msg e =>
    cases calls
    exact ⟨(closes ok rfl (works.runs ran)).2, trivial⟩
  | getRun msg task =>
    cases calls
    obtain ⟨read, unchanged⟩ := works.runs ran
    subst w'
    cases answer with
    | ok run => exact ⟨.quiet, sound, loaded_run sane.keyed ⟨_, ok.1⟩ read.symm⟩
    | error e => exact ⟨.quiet, trivial⟩
  | newWorkspace msg task run =>
    cases calls
    obtain rfl := works.runs ran
    cases answer with
    | ok _ => exact ⟨.quiet, sound⟩
    | error message => exact ⟨.abandon, trivial⟩
  | executing msg task run program =>
    cases program with
    | ret outcome => cases calls
    | call request next =>
      cases calls
      rw [exec_engine_ledger ran]
      exact ⟨.quiet, sound⟩
  | finalizeComplete msg status =>
    cases calls
    obtain ⟨rfl, moved⟩ := completes ok status.2 (works.runs ran)
    exact ⟨moved, trivial⟩
  | finalizeUpdate msg status =>
    cases calls
    obtain ⟨rfl, moved⟩ := closes ok (finalTaskStatus_eq status) (works.runs ran)
    exact ⟨moved, trivial⟩
  | returned result => cases calls

/-! ## The system -/

section Invariant

variable {F : Type} {w w' : World F} {c : Config (World F) (Thread F)} {i : Nat}
  {thread : Thread F}

/-- What every reachable configuration has. -/
structure ServiceInv (c : Config (World F) (Thread F)) : Prop where
  inv : Lifecycle.Inv (lifecycle c)
  keyed : c.world.store.Keyed
  sound : ∀ i thread, c.threads i = some thread → thread.Sound

theorem ServiceInv.sane (si : ServiceInv c) : c.world.Sane where
  keyed := si.keyed
  active t k status there := by
    obtain ⟨run, found, -⟩ := si.inv.agrees t k status there
    exact ⟨run, found⟩
  sent := si.inv.sentOwned

theorem lifecycle_phase (there : c.threads i = some thread) :
    (lifecycle c).phase i = thread.phase := by
  simp [lifecycle, there]

theorem ServiceInv.ok (si : ServiceInv c) (there : c.threads i = some thread) :
    thread.phase.Ok c.world.ledger :=
  lifecycle_phase there ▸ si.inv.ok i

private theorem World.NotRequeued.exclusive (apart : w.NotRequeued) : w.ledger.Exclusive := by
  rintro t k ⟨msg, refused, rfl, rfl⟩ ⟨msg', sent, owner, same⟩
  rw [SQSMessage.key, SQSMessage.key, owner, runKey_inj] at same
  exact apart msg refused msg' sent owner same

theorem World.NotRequeued.of_none (none : w.refused = []) : w.NotRequeued := by
  simp [World.NotRequeued, none]

private theorem World.NotRequeued.before (apart : w'.NotRequeued) (sent : w.sent ⊆ w'.sent)
    (refused : w.refused ⊆ w'.refused) : w.NotRequeued :=
  fun msg hr msg' hs => apart msg (refused hr) msg' (sent hs)

/-- A thread that moves from phase to phase moves the protocol. -/
theorem step_of_move (before : (lifecycle c).phase i = p)
    (moved : Lifecycle.Move c.world.ledger p w.ledger thread.phase) :
    Lifecycle.Step (lifecycle c) (lifecycle ⟨w, Function.update c.threads i (some thread)⟩) := by
  subst before
  have same : lifecycle ⟨w, Function.update c.threads i (some thread)⟩ =
      ⟨w.ledger, Function.update (lifecycle c).phase i thread.phase⟩ := by
    simp only [lifecycle, Lifecycle.State.mk.injEq, true_and]
    funext j
    by_cases mine : j = i
    · subst mine
      simp
    · simp [mine]
  rw [same]
  exact .move moved

end Invariant

variable {c c' : Config (World F) (Thread F)} {i : Nat} {thread next : Thread F}
  {permits : Thread F → (call : Call F) → call.Ans → Prop}

/-- One thread's call, in whichever handler it is, is a move of the protocol. -/
theorem Thread.moves {resume : call.Ans → Thread F} (sane : w.Sane)
    (ok : thread.phase.Ok w.ledger) (sound : thread.Sound)
    (calls : thread.view senv eenv = .call call resume) (works : StoreWorks call answer)
    (mild : QueueMayRefuseResume thread call answer) (ran : w.Exec sha256 call answer w') :
    Lifecycle.Move w.ledger thread.phase w'.ledger (resume answer).phase ∧ (resume answer).Sound := by
  cases thread with
  | create pc =>
    obtain accepts | ⟨pc', other⟩ := mild
    · obtain ⟨resume', calls', rfl⟩ := View.map_eq_call.mp calls
      exact ⟨CreatePC.moves sane ok calls' works accepts ran, trivial⟩
    · cases other
  | resume pc =>
    obtain ⟨resume', calls', rfl⟩ := View.map_eq_call.mp calls
    exact ResumePC.moves ok sound calls' works ran
  | abort pc =>
    obtain ⟨resume', calls', rfl⟩ := View.map_eq_call.mp calls
    rw [AbortPC.moves calls' works ran]
    exact ⟨.quiet, trivial⟩
  | worker pc =>
    obtain ⟨resume', calls', rfl⟩ := View.map_eq_call.mp calls
    exact WorkerPC.moves sane ok sound calls' works ran

private theorem Thread.tau (moves : thread.view senv eenv = .tau next) :
    next.phase = thread.phase ∧ next.Sound := by
  obtain ⟨msg, task, run, outcome, rfl, rfl⟩ := Thread.tau_eq moves
  exact ⟨rfl, trivial⟩

/-- A thread begins with nothing done, except that a worker has its message. -/
theorem Thread.Starts.moves (begins : Thread.Starts senv w thread) :
    Lifecycle.Move w.ledger .idle w.ledger thread.phase ∧ thread.Sound := by
  cases begins with
  | create req =>
    unfold CreatePC.start
    split
    · exact ⟨.quiet, trivial⟩
    · split <;> exact ⟨.quiet, trivial⟩
  | resume taskID req =>
    unfold ResumePC.start
    split_ifs <;> exact ⟨.quiet, trivial⟩
  | abort tenantID taskID req => exact ⟨.quiet, trivial⟩
  | worker queued => exact ⟨.deliver ⟨_, queued, rfl, rfl⟩, trivial⟩

/-- Every event of the system is a move of the protocol. -/
theorem step_simulates {e : Event (Thread F)}
    (mild : ∀ thread call answer, permits thread call answer →
      QueueMayRefuseResume thread call answer)
    (si : ServiceInv c) (step : (servicePool senv eenv permits).Step c e c') :
    Lifecycle.Step (lifecycle c) (lifecycle c') ∧ c'.world.store.Keyed ∧
      ∀ i thread, c'.threads i = some thread → thread.Sound := by
  cases step with
  | start free begins =>
    obtain ⟨moved, sound⟩ := Thread.Starts.moves begins
    exact ⟨step_of_move (by simp [lifecycle, free]) moved, si.keyed, forall_update sound si.sound⟩
  | tau there moves =>
    obtain ⟨same, sound⟩ := Thread.tau moves
    exact ⟨step_of_move (lifecycle_phase there) (same ▸ .quiet), si.keyed, forall_update sound si.sound⟩
  | call there calls permitted ran =>
    obtain ⟨moved, sound⟩ := Thread.moves si.sane (si.ok there) (si.sound _ _ there) calls
      permitted.1 (mild _ _ _ permitted.2) ran
    exact ⟨step_of_move (lifecycle_phase there) moved, exec_keyed si.keyed ran, forall_update sound si.sound⟩
  | env changed =>
    obtain ⟨clock, rfl⟩ := changed
    have still := Lifecycle.Step.move (s := lifecycle c) (i := 0) .quiet
    rw [Function.update_eq_self] at still
    exact ⟨still, si.keyed, si.sound⟩
  | stop there dies => exact dies.elim

private theorem engineRuns_logs {c : EngineCall F} {answer : c.Ans}
    (ran : w.EngineRuns sha256 c answer w') : w'.sent = w.sent ∧ w'.refused = w.refused := by
  cases engineRuns_effect ran <;> exact ⟨rfl, rfl⟩

/-- The logs of the queue grow by the message of an `Enqueue`, and in no other way. -/
theorem exec_logs (ran : w.Exec sha256 call answer w') :
    (w'.sent = w.sent ∧ w'.refused = w.refused) ∨
    ∃ msg, call = .enqueue msg ∧
      ((QueueAccepts call answer ∧ w'.sent = msg :: w.sent ∧ w'.refused = w.refused) ∨
        (¬ QueueAccepts call answer ∧ w'.sent = w.sent ∧ w'.refused = msg :: w.refused)) := by
  rcases ran with ran | ⟨-, rfl⟩
  swap
  · exact .inl ⟨rfl, rfl⟩
  cases call with
  | enqueue msg =>
    cases answer with
    | ok _ =>
      obtain rfl := ran
      exact .inr ⟨msg, rfl, .inl ⟨rfl, rfl, rfl⟩⟩
    | error message =>
      obtain rfl := ran
      exact .inr ⟨msg, rfl, .inr ⟨nofun, rfl, rfl⟩⟩
  | newLocalManager _ =>
    obtain rfl := ran
    exact .inl ⟨rfl, rfl⟩
  | engine c => exact .inl (engineRuns_logs ran)
  | _ =>
    obtain ⟨-, rfl⟩ := ran
    exact .inl ⟨rfl, rfl⟩

theorem exec_grows (ran : w.Exec sha256 call answer w') :
    w.sent ⊆ w'.sent ∧ w.refused ⊆ w'.refused := by
  rcases exec_logs ran with ⟨sent, refused⟩ | ⟨msg, -, ⟨-, sent, refused⟩ | ⟨-, sent, refused⟩⟩ <;>
    simp [sent, refused]

theorem step_notRequeued (step : (servicePool senv eenv permits).Step c e c')
    (apart : c'.world.NotRequeued) :
    c.world.NotRequeued := by
  cases step with
  | start _ _ | tau _ _ => exact apart
  | call _ _ _ ran => exact apart.before (exec_grows ran).1 (exec_grows ran).2
  | env changed =>
    obtain ⟨clock, rfl⟩ := changed
    exact apart
  | stop _ dies => exact dies.elim

private theorem initial_inv (begun : (servicePool senv eenv permits).system.Initial c) :
    ServiceInv c := by
  obtain ⟨⟨store, sent, refused⟩, threads⟩ := begun
  have idle : ∀ i, (lifecycle c).phase i = .idle := fun i => by simp [lifecycle, threads]
  have tasks : ∀ t, (lifecycle c).ledger.task t = none := fun t => by
    simp [lifecycle, World.ledger, store]
  refine ⟨⟨?_, ?_, ?_, ?_, ?_⟩, ⟨?_, ?_⟩, ?_⟩
  · exact fun i => idle i ▸ trivial
  · rintro t k ⟨msg, queued, -⟩
    simp [sent] at queued
  · intro i j k held
    simp [idle, Phase.held] at held
  · intro i j k owed
    simp [idle, Phase.owed] at owed
  · intro t k status there
    simp [tasks] at there
  · simp [store]
  · simp [store]
  · simp [threads]

/-- **The services refine the lifecycle protocol.** While the store works and only
resuming requests are refused, every reachable configuration has the protocol's
invariant. -/
theorem reachable_inv (mild : ∀ thread call answer, permits thread call answer →
      QueueMayRefuseResume thread call answer)
    (reached : (servicePool senv eenv permits).system.Reachable c)
    (apart : c.world.NotRequeued) : ServiceInv c := by
  refine reached.invariant (P := fun c => c.world.NotRequeued → ServiceInv c)
    (fun c begun _ => initial_inv begun) ?_ apart
  intro c e c' _ held step apart
  have si := held (step_notRequeued step apart)
  obtain ⟨simulated, keyed, sound⟩ := step_simulates mild si step
  exact ⟨simulated.inv si.inv apart.exclusive, keyed, sound⟩

end AgentForge
