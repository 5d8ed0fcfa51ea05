import AgentForge.Listings
import AgentForge.Refinement

/-! What the lifecycle invariant means for the services: no task is executed by
two workers at once, and whenever nothing is under way every task agrees with its
active run, so that the consistency checker has nothing to report. -/
namespace AgentForge

open Lifecycle (Phase)
open Transition (Config View forall_update)

variable {F : Type} [Float64 F] {senv : ServiceEnv} {eenv : EngineEnv F}
  {c : Config (World F) (Thread F)} {i j : Nat} {thread : Thread F} {taskID runID : String}

/-! ## Exclusion -/

/-- The queue that accepts everything refuses nothing. -/
theorem reachable_refused
    (reached : (servicePool senv eenv fun _ => QueueAccepts).system.Reachable c) :
    c.world.refused = [] := by
  refine reached.invariant (P := fun c => c.world.refused = []) ?_ ?_
  · intro c begun
    exact begun.1.2.2
  intro c e c' _ none step
  cases step with
  | start _ _ | tau _ _ => exact none
  | call _ _ permitted ran =>
    rcases exec_logs ran with ⟨-, same⟩ | ⟨msg, -, ⟨-, -, same⟩ | ⟨refuses, -, -⟩⟩
    · exact same.trans none
    · exact same.trans none
    · exact absurd permitted.2 refuses
  | env changed =>
    obtain ⟨clock, rfl⟩ := changed
    exact none
  | stop _ dies => exact dies.elim

omit [Float64 F] in
/-- A worker inside the engine is in the running phase of its task and run. -/
theorem executes_phase (sound : thread.Sound) (inside : thread.executes = some (taskID, runID)) :
    thread.phase = .running taskID (runKey taskID runID) := by
  unfold Thread.executes at inside
  split at inside
  · obtain ⟨rfl, rfl⟩ : _ ∧ _ := by simpa using inside
    simp only [Thread.Sound] at sound
    simp [Thread.phase, WorkerPC.phase, SQSMessage.key, sound]
  · cases inside

/-- **At most one worker executes a task.** While no call on the store or the queue
fails, a worker inside the engine is the only one there for its task, it executes
the task's active run, and both the task and the run are `RUNNING`. -/
theorem one_worker_executes_a_task
    (reached : (servicePool senv eenv fun _ => QueueAccepts).system.Reachable c)
    (there : c.threads i = some thread) (inside : thread.executes = some (taskID, runID)) :
    (∀ j other runID', c.threads j = some other → other.executes = some (taskID, runID') →
      j = i) ∧
    (∃ task, c.world.store.tasks.lookup taskID = some task ∧ task.activeRunID = runID ∧
      task.status = .running) ∧
    ∃ run, c.world.store.runs.lookup (runKey taskID runID) = some run ∧ run.status = .running := by
  have si := reachable_inv (fun _ _ _ accepts => .inl accepts) reached
    (.of_none (reachable_refused reached))
  have phase := executes_phase (si.sound i thread there) inside
  obtain ⟨running, -, active⟩ : (Phase.running taskID (runKey taskID runID)).Ok c.world.ledger :=
    phase ▸ si.ok there
  refine ⟨fun j other runID' there' inside' => ?_, ?_, ?_⟩
  · have phase' := executes_phase (si.sound j other there') inside'
    obtain ⟨-, -, active'⟩ : (Phase.running taskID (runKey taskID runID')).Ok c.world.ledger :=
      phase' ▸ si.ok there'
    obtain ⟨same, -⟩ : runKey taskID runID' = runKey taskID runID ∧ True := by
      simpa [active] using active'.symm
    refine si.inv.oneHolder j i (runKey taskID runID) ?_ ?_
    · rw [lifecycle_phase there', phase', same]
      rfl
    · rw [lifecycle_phase there, phase]
      rfl
  · obtain ⟨task, found, same, status⟩ := task_of_ledger active
    exact ⟨task, found, runKey_inj.mp same, status⟩
  · obtain ⟨run, found, -, status⟩ := run_of_ledger running
    exact ⟨run, found, status⟩

/-- A request creates a task and a worker takes it up. -/
theorem one_worker_executes_a_task_created :
    ∃ c, ∃ thread : Thread Rat, ∃ taskID runID,
      (servicePool plainService plainEngine fun _ => QueueAccepts).system.Reachable c ∧
      c.threads 1 = some thread ∧ thread.executes = some (taskID, runID) ∧
      ∃ task, c.world.store.tasks.lookup taskID = some task ∧ task.activeRunID = runID ∧
        task.status = .running := by
  have serves : (servicePool plainService plainEngine fun _ => QueueAccepts).Serves _ :=
    servicePool_serves _ _ (outsideWorks 0) fun _ => queueAccepts_respond _ rfl
  have c0 : (servicePool plainService plainEngine fun _ => QueueAccepts).system.Path []
      ⟨{}, fun _ => none⟩ := .start ⟨⟨rfl, rfl, rfl⟩, rfl⟩
  have c1 := c0.next (.start (i := 0) rfl
    (.create { tenantID := "acme", userID := "ada", prompt := "hello" }))
  -- the request: the clock, two ids, the transaction, the message
  have c2 := serves.path c1 [0, 0, 0, 0, 0] rfl
  -- the worker: the claim, the task's status, both records, the workspace
  have c3 := c2.next (.start (i := 1) rfl (.worker (List.mem_cons_self ..)))
  have c4 := serves.path c3 [1, 1, 1, 1, 1] rfl
  exact ⟨_, _, _, _, ⟨_, c4⟩, rfl, rfl, (one_worker_executes_a_task ⟨_, c4⟩ (i := 1) rfl rfl).2.1⟩

/-! ## Tenants -/

section Tenants

variable {F : Type}

/-- A task's active run has the task's tenant. -/
def MemoryStore.OneTenant (s : MemoryStore F) : Prop :=
  ∀ t task run, s.tasks.lookup t = some task →
    s.runs.lookup (runKey t task.activeRunID) = some run → run.tenantID = task.tenantID

/-- A resuming request that has passed its checks is of its task's tenant. -/
def Thread.TenantChecked (s : MemoryStore F) : Thread F → Prop
  | .resume (.getRun taskID req _) | .resume (.getStep taskID req _)
  | .resume (.readClock taskID req _) | .resume (.newRunID taskID req _ _)
  | .resume (.apply taskID req ..) => s.OfTenant taskID req.tenantID
  | _ => True

private theorem MemoryStore.OneTenant.sameRecords {s s' : MemoryStore F} (one : s.OneTenant)
    (same : s.SameRecords s') : s'.OneTenant := by
  intro t task' run' found there
  obtain ⟨task, was, identity⟩ := same.task_before found
  simp only [Task.identity, Prod.mk.injEq] at identity
  rw [← identity.2.2.2] at there
  obtain ⟨run, ran, mine⟩ := same.run_before there
  simp only [Run.identity, Prod.mk.injEq] at mine
  rw [← mine.2.2, ← identity.2.1]
  exact one t task run was ran

/-- Bringing a run that was not there, and making it the active run of a task of its
own tenant, keeps every other task with the run it had. -/
theorem MemoryStore.OneTenant.insertBoth {s : MemoryStore F} {task : Task F}
    {idempotency : GoMap String} (one : s.OneTenant)
    (active : ∀ t task, s.tasks.lookup t = some task →
      s.runs.lookup (runKey t task.activeRunID) ≠ none)
    (newRun : s.runs.lookup (runKey taskID task.activeRunID) = none)
    (tenant : run.tenantID = task.tenantID) :
    MemoryStore.OneTenant { s with
      tasks := s.tasks.insert taskID task
      runs := s.runs.insert (runKey taskID task.activeRunID) run
      idempotency := idempotency } := by
  intro t task' run' found there
  by_cases mine : t = taskID
  · subst mine
    rw [AList.lookup_insert, Option.some.injEq] at found
    subst found
    rw [AList.lookup_insert, Option.some.injEq] at there
    rw [← there, tenant]
  · rw [AList.lookup_insert_ne mine] at found
    have other : runKey t task'.activeRunID ≠ runKey taskID task.activeRunID :=
      fun same => active t task' found (same ▸ newRun)
    exact one t task' run' found (by rwa [AList.lookup_insert_ne other] at there)

end Tenants

variable {w w' : World F} {sha256 : Bytes → String} {call : Call F} {answer : call.Ans}
  {permits : Thread F → (call : Call F) → call.Ans → Prop}

/-- A task's active run stays of the task's tenant. -/
theorem exec_oneTenant {resume : call.Ans → Thread F} (one : w.store.OneTenant) (sane : w.Sane)
    (calls : thread.view senv eenv = .call call resume) (checked : thread.TenantChecked w.store)
    (ran : w.Exec sha256 call answer w') : w'.store.OneTenant := by
  have active : ∀ t task, w.store.tasks.lookup t = some task →
      w.store.runs.lookup (runKey t task.activeRunID) ≠ none := by
    intro t task found missing
    obtain ⟨status, owned⟩ := sane.active _ _ _ (ledger_task found)
    obtain ⟨run, there, -⟩ := run_of_ledger owned
    rw [missing] at there
    cases there
  rcases exec_records ran with kept | done
  · exact one.sameRecords kept
  cases done with
  | create owner newTask newRun newKey =>
    obtain ⟨req, mc, now, taskID, runID, rfl, rfl, rfl⟩ := view_transaction calls
    exact one.insertBoth active newRun (by simp [createdRun, createdTask])
  | resume owner found newRun identity =>
    simp only [Task.identity, Prod.mk.injEq] at identity
    obtain ⟨req, _, mc, now, runID, rfl, rfl⟩ := view_transaction calls
    obtain ⟨task₀, found₀, tenant⟩ := checked
    rw [found, Option.some.injEq] at found₀
    subst found₀
    rw [← identity.2.2.2] at newRun ⊢
    exact one.insertBoth active newRun (by simp [identity.2.1, tenant, resumedRun])

/-- A resuming request has checked the tenant of its task by the time it reads
anything else. -/
theorem resume_tenantChecked (checked : (Thread.resume pc).TenantChecked w.store)
    (calls : pc.view senv = .call call resume) (works : StoreWorks call answer)
    (ran : w.Exec sha256 call answer w') :
    (Thread.resume (resume answer)).TenantChecked w'.store := by
  cases pc with
  | getTask taskID req =>
    cases calls
    obtain ⟨read, unchanged⟩ := works.runs ran
    subst w'
    cases answer with
    | error e => trivial
    | ok task =>
      have found := getTask_eq_ok.mp (Eq.symm read)
      dsimp only
      unfold ResumePC.checkRequest
      split_ifs with denied
      · trivial
      · trivial
      · trivial
      · simp only [hasTaskAccess, hasTaskTenantAccess, Bool.not_eq_true', Bool.and_eq_false_iff,
          not_or, Bool.not_eq_false, decide_eq_true_eq] at denied
        exact ⟨task, found, denied.1.1.1⟩
  | getRun taskID req task =>
    cases calls
    cases answer with
    | ok _ => exact exec_ofTenant ran checked
    | error e => trivial
  | getStep taskID req task =>
    cases calls
    cases answer with
    | ok step =>
      dsimp only
      split
      · trivial
      · exact exec_ofTenant ran checked
    | error e => trivial
  | readClock taskID req task =>
    cases calls
    exact exec_ofTenant ran checked
  | newRunID taskID req task now =>
    cases calls
    dsimp only
    split
    · trivial
    · exact exec_ofTenant ran checked
  | apply taskID req task mc now runID =>
    cases calls
    cases answer <;> trivial
  | enqueue msg =>
    cases calls
    cases answer with
    | ok _ => trivial
    | error message =>
      dsimp only
      split <;> trivial
  | failRun _ _ _ | failTask _ _ _ =>
    cases calls
    trivial
  | returned result => cases calls

/-- Nobody but a resuming request relies on a task's tenant. -/
theorem Thread.TenantChecked.exec (checked : thread.TenantChecked w.store)
    (ran : w.Exec sha256 call answer w') : thread.TenantChecked w'.store := by
  unfold Thread.TenantChecked at checked ⊢
  split <;> first | trivial | exact exec_ofTenant ran checked

private theorem Thread.moves_tenantChecked {resume : call.Ans → Thread F}
    (checked : thread.TenantChecked w.store) (calls : thread.view senv eenv = .call call resume)
    (works : StoreWorks call answer) (ran : w.Exec sha256 call answer w') :
    (resume answer).TenantChecked w'.store := by
  cases thread with
  | resume pc =>
    obtain ⟨resume', calls', rfl⟩ := View.map_eq_call.mp calls
    exact resume_tenantChecked checked calls' works ran
  | _ =>
    obtain ⟨resume', -, rfl⟩ := View.map_eq_call.mp calls
    trivial

private theorem Thread.tau_tenantChecked (moves : thread.view senv eenv = .tau next) :
    next.TenantChecked s := by
  cases thread with
  | resume pc =>
    obtain ⟨pc', moves', -⟩ := View.map_eq_tau.mp moves
    cases pc <;> cases moves'
  | _ =>
    obtain ⟨pc', -, rfl⟩ := View.map_eq_tau.mp moves
    trivial

private theorem reachable_tenants (mild : ∀ thread call answer, permits thread call answer →
      QueueMayRefuseResume thread call answer)
    (reached : (servicePool senv eenv permits).system.Reachable c) (apart : c.world.NotRequeued) :
    c.world.store.OneTenant ∧
      ∀ i thread, c.threads i = some thread → thread.TenantChecked c.world.store := by
  refine reached.invariant (P := fun c => c.world.NotRequeued → c.world.store.OneTenant ∧
    ∀ i thread, c.threads i = some thread → thread.TenantChecked c.world.store) ?_ ?_ apart
  · rintro c ⟨⟨store, -⟩, threads⟩ -
    simp [MemoryStore.OneTenant, store, threads]
  intro c e c' reached held step apart
  have before := step_notRequeued step apart
  obtain ⟨one, checked⟩ := held before
  have si := reachable_inv mild reached before
  cases step with
  | start free begins =>
    refine ⟨one, forall_update ?_ checked⟩
    cases begins with
    | resume taskID req =>
      unfold ResumePC.start
      split_ifs <;> trivial
    | _ => trivial
  | tau there moves => exact ⟨one, forall_update (Thread.tau_tenantChecked moves) checked⟩
  | call there calls permitted ran =>
    exact ⟨exec_oneTenant one si.sane calls (checked _ _ there) ran,
      forall_update (Thread.moves_tenantChecked (checked _ _ there) calls permitted.1 ran)
        fun j thread there => (checked j thread there).exec ran⟩
  | env changed =>
    obtain ⟨clock, rfl⟩ := changed
    exact ⟨one, checked⟩
  | stop _ dies => exact dies.elim

/-! ## Agreement -/

/-- A thread with nothing left to do has settled all it owed. -/
theorem done_phase (done : thread.view senv eenv = .done) : thread.phase = .idle := by
  cases thread with
  | create pc | resume pc =>
    cases pc <;> first | rfl | cases done
  | abort pc => rfl
  | worker pc =>
    cases pc with
    | executing msg task run program => cases program <;> cases done
    | returned result => rfl
    | _ => cases done

omit [Float64 F] in
/-- A task that agrees with its active run, of the same tenant, raises no issue in
a scan that lists every run. -/
theorem taskIssue_eq_none {s : MemoryStore F} {run : Run F} (keyed : s.Keyed)
    (tenant : tenantID = "" ∨ task.tenantID = tenantID) (same : run.tenantID = task.tenantID)
    (found : s.runs.lookup (runKey task.taskID task.activeRunID) = some run)
    (agrees : task.status = mapRunToTaskStatus run.status) :
    taskIssue (s.listRuns tenantID [] 0) task = none := by
  have listed : run ∈ s.listRuns tenantID [] 0 := mem_listRuns.mpr ⟨⟨_, found⟩, same ▸ tenant⟩
  have active := runByTaskRun_eq keyed (fun run member => (mem_listRuns.mp member).1) listed found
  unfold taskIssue
  rw [← runKey, active]
  simp [taskRunStatusMismatch_eq_none.mpr agrees]

/-- **Tasks agree with their runs whenever nothing is under way.** The queue may
refuse the runs of resuming requests, as long as nobody queues such a run after
all. Once every call has returned, a task's active run exists and the task has the
status that the run's status calls for; so a consistency check that lists every
run reports neither a missing run nor a mismatch. -/
theorem tasks_agree_with_runs_at_rest
    (reached : (servicePool senv eenv QueueMayRefuseResume).system.Reachable c)
    (apart : c.world.NotRequeued)
    (rest : ∀ i thread, c.threads i = some thread → thread.view senv eenv = .done) :
    (∀ t task, c.world.store.tasks.lookup t = some task →
      ∃ run, c.world.store.runs.lookup (runKey t task.activeRunID) = some run ∧
        task.status = mapRunToTaskStatus run.status) ∧
    ∀ tenantID limit,
      c.world.store.listRuns tenantID [] (checkLimits limit).2.toInt =
        c.world.store.listRuns tenantID [] 0 →
      ∀ issue ∈ check c.world.store tenantID limit, issue.type = .runLastStepDrift := by
  have si := reachable_inv (fun _ _ _ mild => mild) reached apart
  obtain ⟨one, -⟩ := reachable_tenants (fun _ _ _ mild => mild) reached apart
  have idle : ∀ i, (lifecycle c).phase i = .idle := by
    intro i
    cases there : c.threads i with
    | none => simp [lifecycle, there]
    | some thread => rw [lifecycle_phase there, done_phase (rest i thread there)]
  have agreement : ∀ t task, c.world.store.tasks.lookup t = some task →
      ∃ run, c.world.store.runs.lookup (runKey t task.activeRunID) = some run ∧
        task.status = mapRunToTaskStatus run.status := by
    intro t task found
    obtain ⟨status, there, agrees⟩ := si.inv.agrees t _ _ (ledger_task found)
    obtain ⟨run, found', -, rfl⟩ := run_of_ledger there
    refine ⟨run, found', ?_⟩
    simpa [Lifecycle.Agrees, idle] using agrees
  refine ⟨agreement, fun tenantID limit complete issue reported => ?_⟩
  simp only [check, complete, List.mem_append, List.mem_filterMap] at reported
  rcases reported with ⟨task, listed, raised⟩ | ⟨run, -, raised⟩
  · obtain ⟨⟨t, found⟩, tenant⟩ := mem_listTasks listed
    obtain ⟨run, there, agrees⟩ := agreement t task found
    have same := one t task run found there
    rw [← si.keyed.task t task found] at there
    rw [taskIssue_eq_none si.keyed tenant same there agrees] at raised
    cases raised
  · simp only [runIssue] at raised
    split at raised <;> cases raised
    rfl

/-- A request creates a task and a worker gives it up for want of a workspace. -/
theorem tasks_agree_with_runs_at_rest_given_up :
    ∃ c : Config (World Rat) (Thread Rat),
      (servicePool plainService plainEngine QueueMayRefuseResume).system.Reachable c ∧
      c.world.NotRequeued ∧
      (∀ i thread, c.threads i = some thread →
        thread.view plainService plainEngine = .done) ∧
      ∀ issue ∈ check c.world.store "acme" 0, issue.type = .runLastStepDrift := by
  have serves : (servicePool plainService plainEngine QueueMayRefuseResume).Serves _ :=
    servicePool_serves _ _ { outsideWorks 0 with workspace := .error "no space left" }
      fun _ w call => .inl (queueAccepts_respond _ rfl w call)
  have c0 : (servicePool plainService plainEngine QueueMayRefuseResume).system.Path []
      ⟨{}, fun _ => none⟩ := .start ⟨⟨rfl, rfl, rfl⟩, rfl⟩
  have c1 := c0.next (.start (i := 0) rfl
    (.create { tenantID := "acme", userID := "ada", prompt := "hello" }))
  have c2 := serves.path c1 [0, 0, 0, 0, 0] rfl
  have c3 := c2.next (.start (i := 1) rfl (.worker (List.mem_cons_self ..)))
  have c4 := serves.path c3 [1, 1, 1, 1, 1] rfl
  refine ⟨_, ⟨_, c4⟩, .of_none rfl, fun i thread there => ?_, ?_⟩
  · rcases i with _ | _ | i <;> cases there <;> rfl
  · refine (tasks_agree_with_runs_at_rest ⟨_, c4⟩ (.of_none rfl) fun i thread there => ?_).2 "acme" 0
      rfl
    rcases i with _ | _ | i <;> cases there <;> rfl

end AgentForge
