import AgentForge.TenantKeys
import AgentForge.WSHandlers

/-! Whether a method of the store that fails has done something. Every method but one
decides before it writes; `PutTask` makes the entry of its idempotency key before it looks
whether the task id is taken, and does not take the entry back. -/
namespace AgentForge

variable {F : Type} {s : MemoryStore F} {now : Time}

/-! ## The calls -/

/-- A call of a method that writes. The two transitions refuse a missing task or run, and
`PutEvent` does nothing with a missing event. -/
inductive StoreCall (F : Type) where
  | write (method : StoreWrite F)
  | createWithout
  | resumeWithout
  | putNoEvent

section Outcome

variable [Float64 F]

/-- What a method answers, and the store it leaves. -/
def StoreWrite.outcome (s : MemoryStore F) (now : Time) :
    StoreWrite F → Except StoreError Unit × MemoryStore F
  | .applyCreateTransition task run => s.applyCreateTransition now task run
  | .putTask task => s.putTask task
  | .updateTaskStatus taskID fromStatuses toStatus =>
    s.updateTaskStatus now taskID fromStatuses toStatus
  | .updateTaskStatusForRun taskID runID fromStatuses toStatus =>
    s.updateTaskStatusForRun now taskID runID fromStatuses toStatus
  | .setAbortRequested taskID reason => s.setAbortRequested now taskID reason
  | .clearAbortRequested taskID => s.clearAbortRequested now taskID
  | .setActiveRun taskID runID => s.setActiveRun now taskID runID
  | .applyResumeTransition taskID run fromStatuses toStatus =>
    s.applyResumeTransition now taskID run fromStatuses toStatus
  | .putRun run => s.putRun now run
  | .claimRun taskID runID => s.claimRun now taskID runID
  | .completeRun taskID runID status => s.completeRun now taskID runID status
  | .updateLastStepIndex taskID runID stepIndex => s.updateLastStepIndex taskID runID stepIndex
  | .addRunUsage taskID runID usage costUSD => s.addRunUsage taskID runID usage costUSD
  | .resetRunToQueued taskID runID => s.resetRunToQueued now taskID runID
  | .putStep step => s.putStep step
  | .putConnection conn => (.ok (), s.putConnection conn)
  | .deleteConnection connectionID => (.ok (), s.deleteConnection connectionID)
  | .putEvent event => s.putEvent now event
  | .compactEvents taskID runID beforeTS => (.ok (), (s.compactEvents taskID runID beforeTS).2)

def StoreCall.outcome (s : MemoryStore F) (now : Time) :
    StoreCall F → Except StoreError Unit × MemoryStore F
  | .write method => method.outcome s now
  | .createWithout | .resumeWithout => (.error .conflict, s)
  | .putNoEvent => (.ok (), s)

/-- The store after a sequence of calls, each with what the clock reads. -/
def MemoryStore.afterCalls (s : MemoryStore F) (calls : List (StoreCall F × Time)) :
    MemoryStore F :=
  calls.foldl (fun s call => (call.1.outcome s call.2).2) s

end Outcome

/-! ## The reads -/

inductive StoreRead where
  | getTask (taskID : String)
  | getRun (taskID runID : String)
  | getStep (runID : String) (stepIndex : Int)
  | getTaskByIdempotencyKey (tenantID idempotencyKey : String)
  | listTasks (tenantID : String) (statuses : List TaskStatus) (limit : Int)
  | listRuns (tenantID : String) (statuses : List RunStatus) (limit : Int)
  | listSteps (runID : String) (start limit : Int)
  | getConnection (connectionID : String)
  | replayEvents (taskID runID : String) (fromSeq fromTS limit : Int)

inductive StoreAnswer (F : Type) where
  | task (answer : Except StoreError (Task F))
  | run (answer : Except StoreError (Run F))
  | step (answer : Except StoreError Step)
  | tasks (answer : List (Task F))
  | runs (answer : List (Run F))
  | steps (answer : List Step)
  | connection (answer : Except StoreError Connection)
  | events (answer : List (StreamEvent F))

def MemoryStore.reads (s : MemoryStore F) : StoreRead → StoreAnswer F
  | .getTask taskID => .task (s.getTask taskID)
  | .getRun taskID runID => .run (s.getRun taskID runID)
  | .getStep runID stepIndex => .step (s.getStep runID stepIndex)
  | .getTaskByIdempotencyKey tenantID idempotencyKey =>
    .task (s.getTaskByIdempotencyKey tenantID idempotencyKey)
  | .listTasks tenantID statuses limit => .tasks (s.listTasks tenantID statuses limit)
  | .listRuns tenantID statuses limit => .runs (s.listRuns tenantID statuses limit)
  | .listSteps runID start limit => .steps (s.listSteps runID start limit)
  | .getConnection connectionID => .connection (s.getConnection connectionID)
  | .replayEvents taskID runID fromSeq fromTS limit =>
    .events (s.replayEvents taskID runID fromSeq fromTS limit)

/-! ## A failed call -/

/-- A call that fails has left the store alone. -/
def LeavesAlone (s : MemoryStore F) (outcome : Except StoreError Unit × MemoryStore F) : Prop :=
  ∀ e, outcome.1 = .error e → outcome.2 = s

private theorem leavesAlone_error : LeavesAlone s (.error e, s) := fun _ _ => rfl

private theorem leavesAlone_ok : LeavesAlone s (.ok (), s') := nofun

section Calls

variable (s)

private theorem changeTask_leavesAlone (taskID : String)
    (change : Task F → Except StoreError (Task F)) : LeavesAlone s (s.changeTask taskID change) := by
  unfold MemoryStore.changeTask
  split
  · exact leavesAlone_error
  · split
    · exact leavesAlone_error
    · exact leavesAlone_ok

private theorem changeRun_leavesAlone (taskID runID : String)
    (change : Run F → Except StoreError (Run F)) :
    LeavesAlone s (s.changeRun taskID runID change) := by
  unfold MemoryStore.changeRun
  split
  · exact leavesAlone_error
  · split
    · exact leavesAlone_error
    · exact leavesAlone_ok

private theorem applyCreateTransition_leavesAlone (now : Time) (task : Task F)
    (run : Run F) : LeavesAlone s (s.applyCreateTransition now task run) := by
  rcases applyCreateTransition_cases s now task run with ⟨e, result⟩ | ⟨-, -, -, -, result⟩
  · rw [result]
    exact leavesAlone_error
  · rw [result]
    exact leavesAlone_ok

private theorem applyResumeTransition_leavesAlone (now : Time) (taskID : String)
    (run : Run F) (fromStatuses : List TaskStatus) (toStatus : TaskStatus) :
    LeavesAlone s (s.applyResumeTransition now taskID run fromStatuses toStatus) := by
  rcases applyResumeTransition_cases s now taskID run fromStatuses toStatus with
    ⟨e, result⟩ | ⟨task, -, -, -, -, -, -, result⟩
  · rw [result]
    exact leavesAlone_error
  · rw [result]
    exact leavesAlone_ok

private theorem putRun_leavesAlone (now : Time) (run : Run F) :
    LeavesAlone s (s.putRun now run) := by
  unfold MemoryStore.putRun
  dsimp only
  split
  · exact leavesAlone_error
  · exact leavesAlone_ok

private theorem putStep_leavesAlone (step : Step) : LeavesAlone s (s.putStep step) := by
  unfold MemoryStore.putStep
  dsimp only
  split
  · exact leavesAlone_error
  · exact leavesAlone_ok

end Calls

private theorem putEvent_leavesAlone (s : MemoryStore F) (now : Time) (event : StreamEvent F) :
    LeavesAlone s (s.putEvent now event) := by
  unfold MemoryStore.putEvent
  split
  · exact leavesAlone_error
  · extract_lets
    split
    · exact leavesAlone_ok
    · exact leavesAlone_ok

/-- A task that comes with a key nobody has used yet under an id that is taken. -/
def MemoryStore.SpendsKey (s : MemoryStore F) (task : Task F) : Prop :=
  task.idempotencyKey ≠ "" ∧
    s.idempotency.lookup (idempKey task.tenantID task.idempotencyKey) = none ∧
    (s.tasks.lookup task.taskID).isSome

instance (s : MemoryStore F) (task : Task F) : Decidable (s.SpendsKey task) :=
  inferInstanceAs (Decidable (_ ∧ _ ∧ _))

private theorem putTask_leavesAlone (spared : ¬ s.SpendsKey task) :
    LeavesAlone s (s.putTask task) := by
  unfold MemoryStore.putTask
  by_cases keyed : task.idempotencyKey = ""
  · simp only [keyed, ne_eq, not_true_eq_false, false_and, if_false]
    split
    · exact leavesAlone_error
    · exact leavesAlone_ok
  cases entry : s.idempotency.lookup (idempKey task.tenantID task.idempotencyKey) with
  | some taskID =>
    have used : (s.idempotency.lookup (idempKey task.tenantID task.idempotencyKey)).isSome := by
      rw [entry]
      rfl
    rw [if_pos ⟨keyed, used⟩]
    exact leavesAlone_error
  | none =>
    have free : ¬ (s.tasks.lookup task.taskID).isSome := fun taken => spared ⟨keyed, entry, taken⟩
    have unused : ¬ (s.idempotency.lookup (idempKey task.tenantID task.idempotencyKey)).isSome := by
      rw [entry]
      exact Bool.false_ne_true
    rw [if_neg fun both => unused both.2]
    simp only [if_pos keyed, if_neg free]
    exact leavesAlone_ok

/-- A task put under an id that is taken is refused, and its key is spent all the same. -/
theorem putTask_spends (spends : s.SpendsKey task) :
    s.putTask task = (.error .alreadyExists, { s with
      idempotency := s.idempotency.insert (idempKey task.tenantID task.idempotencyKey)
        task.taskID }) := by
  obtain ⟨keyed, fresh, taken⟩ := spends
  rw [MemoryStore.putTask]
  simp [keyed, fresh, taken]

/-- The key of the task now finds the task there was, as if it had been made with it. -/
theorem putTask_spends_found (spends : s.SpendsKey task)
    (there : s.tasks.lookup task.taskID = some other) :
    s.getTaskByIdempotencyKey task.tenantID task.idempotencyKey = .error .notFound ∧
      (s.putTask task).2.getTaskByIdempotencyKey task.tenantID task.idempotencyKey =
        .ok other := by
  rw [putTask_spends spends]
  constructor
  · rw [MemoryStore.getTaskByIdempotencyKey, spends.2.1]
  · exact getTaskByIdempotencyKey_eq_ok.mpr ⟨task.taskID, AList.lookup_insert _, there⟩

/-- The call puts a task whose key is spent although it is refused. -/
def StoreCall.SpendsKey (s : MemoryStore F) : StoreCall F → Prop
  | .write (.putTask task) => s.SpendsKey task
  | _ => False

private theorem StoreCall.SpendsKey.putTask {call : StoreCall F} (spends : call.SpendsKey s) :
    ∃ task, call = .write (.putTask task) ∧ s.SpendsKey task := by
  unfold StoreCall.SpendsKey at spends
  split at spends
  · rename_i task
    exact ⟨task, rfl, spends⟩
  · exact spends.elim

variable [Float64 F]

private theorem StoreWrite.leavesAlone (write : StoreWrite F) (s : MemoryStore F) (now : Time)
    (spared : ∀ task, write = .putTask task → ¬ s.SpendsKey task) :
    LeavesAlone s (write.outcome s now) := by
  cases write with
  | applyCreateTransition task run => exact applyCreateTransition_leavesAlone s now task run
  | putTask task => exact putTask_leavesAlone (spared task rfl)
  | applyResumeTransition taskID run fromStatuses toStatus =>
    exact applyResumeTransition_leavesAlone s now taskID run fromStatuses toStatus
  | updateTaskStatus | updateTaskStatusForRun | setAbortRequested | clearAbortRequested
  | setActiveRun => exact changeTask_leavesAlone s _ _
  | claimRun | completeRun | updateLastStepIndex | addRunUsage | resetRunToQueued =>
    exact changeRun_leavesAlone s _ _ _
  | putRun run => exact putRun_leavesAlone s now run
  | putStep step => exact putStep_leavesAlone s step
  | putEvent event => exact putEvent_leavesAlone s now event
  | putConnection | deleteConnection | compactEvents => exact leavesAlone_ok

/-- A call that spends no key has done nothing if it fails. -/
theorem StoreCall.leavesAlone {call : StoreCall F} (spared : ¬ call.SpendsKey s) :
    LeavesAlone s (call.outcome s now) := by
  cases call with
  | write method =>
    refine method.leavesAlone s now ?_
    rintro task rfl
    exact spared
  | createWithout | resumeWithout => exact leavesAlone_error
  | putNoEvent => exact leavesAlone_ok

/-- **Whether the methods of the store are all or nothing.** A call that fails has left no
trace, whatever is called and read later, unless it puts a task with a fresh idempotency
key under an id that is taken; that one always leaves its trace. -/
theorem failed_call_leaves_no_trace_iff (s : MemoryStore F) (now : Time) (call : StoreCall F) :
    (∀ e, (call.outcome s now).1 = .error e →
      ∀ (later : List (StoreCall F × Time)) (read : StoreRead),
        ((call.outcome s now).2.afterCalls later).reads read =
          (s.afterCalls later).reads read) ↔
      ¬ call.SpendsKey s := by
  constructor
  · intro traceless spends
    obtain ⟨task, rfl, spends⟩ := spends.putTask
    obtain ⟨other, there⟩ := Option.isSome_iff_exists.mp spends.2.2
    obtain ⟨before, after⟩ := putTask_spends_found spends there
    have refused : (s.putTask task).1 = .error .alreadyExists := by
      rw [putTask_spends spends]
    have same : StoreAnswer.task
        ((s.putTask task).2.getTaskByIdempotencyKey task.tenantID task.idempotencyKey) =
        .task (s.getTaskByIdempotencyKey task.tenantID task.idempotencyKey) :=
      traceless .alreadyExists refused [] (.getTaskByIdempotencyKey _ _)
    rw [before, after, StoreAnswer.task.injEq] at same
    cases same
  · intro spared e failed later read
    rw [call.leavesAlone spared e failed]

/-! Task `t` is there. A second `t` that comes with the key `k` is refused, and from then on
`k` finds the first. -/

def taskT : Task Rat where
  taskID := "t"
  tenantID := "acme"
  userID := "u"
  status := .queued
  activeRunID := ""
  prompt := "p"
  createdAt := 1
  updatedAt := 1

def onlyT : MemoryStore Rat := (MemoryStore.putTask {} taskT).2

theorem refused_task_spends_key :
    onlyT.Reached ∧
      (onlyT.putTask { taskT with idempotencyKey := "k" }).1 = .error .alreadyExists ∧
      onlyT.getTaskByIdempotencyKey "acme" "k" = .error .notFound ∧
      (onlyT.putTask { taskT with idempotencyKey := "k" }).2.getTaskByIdempotencyKey "acme" "k" =
        .ok taskT :=
  ⟨.write (.new _) 0 (.putTask taskT), rfl, rfl, rfl⟩

end AgentForge
