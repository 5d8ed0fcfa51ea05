import AgentForge.World

/-! What the store's methods do to its records. A method changes one record in
place or runs one of two transactions, and whatever it does, a record stays what
it is about: a task its tenant's, a run its task's, each under its own key. -/
namespace AgentForge

variable {F : Type} {w w' : World F} {s s' : MemoryStore F} {t k taskID runID : String}
  {task task' : Task F} {run run' : Run F} {now : Time} {e : StoreError}

/-- An id that is not empty and has no separator in it. -/
def PlainID (id : String) : Prop := id ≠ "" ∧ '#' ∉ id.toList

instance (id : String) : Decidable (PlainID id) := inferInstanceAs (Decidable (_ ∧ _))

/-- A key made of ids without a separator is made of these two alone. -/
theorem runKey_unique (plain : '#' ∉ taskID.toList) (plain' : '#' ∉ runID.toList)
    (same : runKey taskID runID = runKey taskID' runID') :
    taskID = taskID' ∧ runID = runID' := by
  have letters : taskID.toList ++ '#' :: runID.toList = taskID'.toList ++ '#' :: runID'.toList := by
    simpa [runKey, ← String.toList_inj] using same
  obtain ⟨first, -, second⟩ := (List.append_cons_inj_of_notMem plain plain').mp letters
  exact ⟨String.toList_inj.mp first, String.toList_inj.mp second⟩

/-- Runs of one task are told apart by their ids. -/
theorem runKey_inj : runKey taskID runID = runKey taskID runID' ↔ runID = runID' := by
  simp [runKey, ← String.toList_inj]

/-! ## Changing one record -/

theorem changeTask_missing (missing : s.tasks.lookup taskID = none) :
    s.changeTask taskID changeT = (.error .notFound, s) := by
  simp [MemoryStore.changeTask, missing]

theorem changeTask_refused (found : s.tasks.lookup taskID = some task)
    (refused : changeT task = .error e) : s.changeTask taskID changeT = (.error e, s) := by
  simp [MemoryStore.changeTask, found, refused]

theorem changeTask_done (found : s.tasks.lookup taskID = some task)
    (changed : changeT task = .ok task') :
    s.changeTask taskID changeT = (.ok (), { s with tasks := s.tasks.insert taskID task' }) := by
  simp [MemoryStore.changeTask, found, changed]

theorem changeTask_always (change : Task F → Task F) (found : s.tasks.lookup taskID = some task) :
    s.changeTask taskID (fun t => .ok (change t)) =
      (.ok (), { s with tasks := s.tasks.insert taskID (change task) }) :=
  changeTask_done found rfl

theorem changeRun_missing (missing : s.runs.lookup (runKey taskID runID) = none) :
    s.changeRun taskID runID changeR = (.error .notFound, s) := by
  simp [MemoryStore.changeRun, missing]

theorem changeRun_refused (found : s.runs.lookup (runKey taskID runID) = some run)
    (refused : changeR run = .error e) : s.changeRun taskID runID changeR = (.error e, s) := by
  simp [MemoryStore.changeRun, found, refused]

theorem changeRun_done (found : s.runs.lookup (runKey taskID runID) = some run)
    (changed : changeR run = .ok run') :
    s.changeRun taskID runID changeR =
      (.ok (), { s with runs := s.runs.insert (runKey taskID runID) run' }) := by
  simp [MemoryStore.changeRun, found, changed]

theorem changeRun_always (change : Run F → Run F)
    (found : s.runs.lookup (runKey taskID runID) = some run) :
    s.changeRun taskID runID (fun r => .ok (change r)) =
      (.ok (), { s with runs := s.runs.insert (runKey taskID runID) (change run) }) :=
  changeRun_done found rfl

/-- A change in place fails only as the change itself does, or for want of the
record. -/
theorem changeTask_error (failed : (s.changeTask taskID changeT).1 = .error e) :
    e = .notFound ∨ ∃ task, changeT task = .error e := by
  unfold MemoryStore.changeTask at failed
  split at failed
  · cases failed
    exact .inl rfl
  · rename_i task found
    split at failed
    · rename_i refused
      cases failed
      exact .inr ⟨task, refused⟩
    · cases failed

theorem changeRun_error (failed : (s.changeRun taskID runID changeR).1 = .error e) :
    e = .notFound ∨ ∃ run, changeR run = .error e := by
  unfold MemoryStore.changeRun at failed
  split at failed
  · cases failed
    exact .inl rfl
  · rename_i run found
    split at failed
    · rename_i refused
      cases failed
      exact .inr ⟨run, refused⟩
    · cases failed

/-! ## Reading one record -/

theorem getTask_eq_ok : s.getTask taskID = .ok task ↔ s.tasks.lookup taskID = some task := by
  unfold MemoryStore.getTask
  cases s.tasks.lookup taskID <;> simp

theorem getRun_eq_ok :
    s.getRun taskID runID = .ok run ↔ s.runs.lookup (runKey taskID runID) = some run := by
  unfold MemoryStore.getRun
  cases s.runs.lookup (runKey taskID runID) <;> simp

theorem getRun_eq_notFound :
    s.getRun taskID runID = .error .notFound ↔ s.runs.lookup (runKey taskID runID) = none := by
  unfold MemoryStore.getRun
  cases s.runs.lookup (runKey taskID runID) <;> simp

/-! ## The two transactions -/

@[simp] theorem ensureQueuedAt_taskID : (ensureQueuedAt run now).taskID = run.taskID := by
  unfold ensureQueuedAt
  split <;> rfl

@[simp] theorem ensureQueuedAt_runID : (ensureQueuedAt run now).runID = run.runID := by
  unfold ensureQueuedAt
  split <;> rfl

@[simp] theorem ensureQueuedAt_tenantID : (ensureQueuedAt run now).tenantID = run.tenantID := by
  unfold ensureQueuedAt
  split <;> rfl

@[simp] theorem ensureQueuedAt_status : (ensureQueuedAt run now).status = run.status := by
  unfold ensureQueuedAt
  split <;> rfl

/-- A new task and its first run are written together with the idempotency
entry, or nothing is. -/
theorem applyCreateTransition_cases (s : MemoryStore F) (now : Time) (task : Task F) (run : Run F) :
    (∃ e, s.applyCreateTransition now task run = (.error e, s)) ∨
    (run.taskID = task.taskID ∧ s.tasks.lookup task.taskID = none ∧
      s.runs.lookup (runKey run.taskID run.runID) = none ∧
      (task.idempotencyKey ≠ "" →
        s.idempotency.lookup (idempKey task.tenantID task.idempotencyKey) = none) ∧
      s.applyCreateTransition now task run = (.ok (), { s with
        tasks := s.tasks.insert task.taskID task
        runs := s.runs.insert (runKey run.taskID run.runID) (ensureQueuedAt run now)
        idempotency := if task.idempotencyKey ≠ "" then
            s.idempotency.insert (idempKey task.tenantID task.idempotencyKey) task.taskID
          else s.idempotency })) := by
  unfold MemoryStore.applyCreateTransition
  dsimp only
  rw [ensureQueuedAt_taskID, ensureQueuedAt_runID]
  split
  · exact .inl ⟨_, rfl⟩
  split
  · exact .inl ⟨_, rfl⟩
  split
  · exact .inl ⟨_, rfl⟩
  split
  · exact .inl ⟨_, rfl⟩
  split
  · exact .inl ⟨_, rfl⟩
  · rename_i ids owner newTask newRun newKey
    refine .inr ⟨not_not.mp owner, by simpa using newTask, by simpa using newRun, ?_, rfl⟩
    simpa using newKey

/-- A new run becomes the active one of a task that is in one of the given
statuses, or nothing happens. -/
theorem applyResumeTransition_cases (s : MemoryStore F) (now : Time) (taskID : String) (run : Run F)
    (fromStatuses : List TaskStatus) (toStatus : TaskStatus) :
    (∃ e, s.applyResumeTransition now taskID run fromStatuses toStatus = (.error e, s)) ∨
    ∃ task, run.taskID = taskID ∧ run.taskID ≠ "" ∧ run.runID ≠ "" ∧
      s.tasks.lookup taskID = some task ∧
      s.runs.lookup (runKey run.taskID run.runID) = none ∧ task.status ∈ fromStatuses ∧
      s.applyResumeTransition now taskID run fromStatuses toStatus = (.ok (), { s with
        runs := s.runs.insert (runKey run.taskID run.runID) (ensureQueuedAt run now)
        tasks := s.tasks.insert taskID { task with
          activeRunID := run.runID, abortRequested := false, abortReason := "", abortTS := none,
          status := toStatus, updatedAt := now } }) := by
  unfold MemoryStore.applyResumeTransition
  dsimp only
  rw [ensureQueuedAt_taskID, ensureQueuedAt_runID]
  split
  · exact .inl ⟨_, rfl⟩
  rename_i ids
  obtain ⟨named, numbered, owner⟩ : run.taskID ≠ "" ∧ run.runID ≠ "" ∧ run.taskID = taskID := by
    simpa using ids
  cases found : s.tasks.lookup taskID with
  | none => exact .inl ⟨_, rfl⟩
  | some task =>
    simp only
    split
    · exact .inl ⟨_, rfl⟩
    split
    · exact .inl ⟨_, rfl⟩
    · rename_i newRun resumable
      exact .inr ⟨task, owner, named, numbered, rfl, by simpa using newRun,
        not_not.mp resumable, rfl⟩

theorem putStep_frame (s : MemoryStore F) (step : Step) :
    ∃ steps, (s.putStep step).2 = { s with steps := steps } := by
  unfold MemoryStore.putStep
  dsimp only
  split_ifs <;> exact ⟨_, rfl⟩

private theorem putEvent_frame (s : MemoryStore F) (now : Time) (event : StreamEvent F) :
    ∃ events, (s.putEvent now event).2 = { s with events := events } := by
  unfold MemoryStore.putEvent
  split
  · exact ⟨_, rfl⟩
  · extract_lets stamped key runEvents
    split <;> exact ⟨_, rfl⟩

/-! ## What a record is about never changes -/

/-- What every method but a resume leaves alone in a task. -/
def Task.identity (task : Task F) : String × String × String × String :=
  (task.taskID, task.tenantID, task.idempotencyKey, task.activeRunID)

/-- What every method leaves alone in a run. -/
def Run.identity (run : Run F) : String × String × String :=
  (run.taskID, run.runID, run.tenantID)

/-- The same records lie under the same keys, with whatever else in them. -/
structure MemoryStore.SameRecords (s s' : MemoryStore F) : Prop where
  task : ∀ t, (s'.tasks.lookup t).map Task.identity = (s.tasks.lookup t).map Task.identity
  run : ∀ k, (s'.runs.lookup k).map Run.identity = (s.runs.lookup k).map Run.identity
  idempotency : s'.idempotency = s.idempotency

namespace MemoryStore.SameRecords

protected theorem refl : s.SameRecords s := ⟨fun _ => rfl, fun _ => rfl, rfl⟩

private theorem insertTask (found : s.tasks.lookup t = some task)
    (kept : task'.identity = task.identity) :
    s.SameRecords { s with tasks := s.tasks.insert t task' } := by
  refine ⟨fun t' => ?_, fun _ => rfl, rfl⟩
  by_cases same : t' = t
  · subst same
    simp [found, kept]
  · rw [AList.lookup_insert_ne same]

private theorem insertRun (found : s.runs.lookup k = some run)
    (kept : run'.identity = run.identity) :
    s.SameRecords { s with runs := s.runs.insert k run' } := by
  refine ⟨fun _ => rfl, fun k' => ?_, rfl⟩
  by_cases same : k' = k
  · subst same
    simp [found, kept]
  · rw [AList.lookup_insert_ne same]

/-- A record that is there now was there before. -/
theorem task_before (same : s.SameRecords s') (found : s'.tasks.lookup t = some task') :
    ∃ task, s.tasks.lookup t = some task ∧ task.identity = task'.identity := by
  have was := same.task t
  rw [found, Option.map_some, eq_comm, Option.map_eq_some_iff] at was
  exact was

theorem run_before (same : s.SameRecords s') (found : s'.runs.lookup k = some run') :
    ∃ run, s.runs.lookup k = some run ∧ run.identity = run'.identity := by
  have was := same.run k
  rw [found, Option.map_some, eq_comm, Option.map_eq_some_iff] at was
  exact was

end MemoryStore.SameRecords

section Records

variable {sha256 : Bytes → String} {call : Call F} {answer : call.Ans}

/-- What a call of the engine can do to the world. -/
inductive World.EngineEffect (w : World F) : EngineCall F → World F → Prop where
  | still (call : EngineCall F) : EngineEffect w call w
  | step {step : Step} (fresh : w.store.steps.lookup (stepKey step.runID step.stepIndex) = none) :
      EngineEffect w (.putStep step) { w with store := { w.store with
        steps := w.store.steps.insert (stepKey step.runID step.stepIndex) step } }
  | lastStep {taskID runID : String} {stepIndex : Int} {run : Run F}
      (found : w.store.runs.lookup (runKey taskID runID) = some run) :
      EngineEffect w (.updateLastStepIndex taskID runID stepIndex) { w with store := { w.store with
        runs := w.store.runs.insert (runKey taskID runID) { run with lastStepIndex := stepIndex } } }
  | usage {taskID runID : String} {usage total : Option TokenUsage} {costUSD cost : F} {run : Run F}
      (found : w.store.runs.lookup (runKey taskID runID) = some run) :
      EngineEffect w (.addRunUsage taskID runID usage costUSD) { w with store := { w.store with
        runs := w.store.runs.insert (runKey taskID runID)
          { run with totalTokenUsage := total, totalCostUSD := cost } } }
  | event (event : StreamEvent F) (events : GoMap (List (StreamEvent F))) :
      EngineEffect w (.putEvent event) { w with store := { w.store with events := events } }
  | connection (connectionID : String) : EngineEffect w (.deleteConnection connectionID)
      { w with store := w.store.deleteConnection connectionID }
  | artifact (key : String) (data : Bytes) :
      EngineEffect w (.artifactPut key data) { w with blobs := w.blobs.insert key data }
  | tool {name args : String} {blobs : GoMap Bytes} (keeps : World.KeepsCheckpoints w.blobs blobs) :
      EngineEffect w (.executeTool name args) { w with blobs := blobs }

/-- The two transactions, where they go through: the only calls that bring a new record. -/
inductive World.Transaction (w : World F) : Call F → World F → Prop where
  | create {task : Task F} {run : Run F} (owner : run.taskID = task.taskID)
      (newTask : w.store.tasks.lookup task.taskID = none)
      (newRun : w.store.runs.lookup (runKey run.taskID run.runID) = none)
      (newKey : task.idempotencyKey ≠ "" →
        w.store.idempotency.lookup (idempKey task.tenantID task.idempotencyKey) = none) :
      Transaction w (.applyCreateTransition task run) { w with store := { w.store with
        tasks := w.store.tasks.insert task.taskID task
        runs := w.store.runs.insert (runKey run.taskID run.runID) (ensureQueuedAt run w.clock)
        idempotency := if task.idempotencyKey ≠ "" then
            w.store.idempotency.insert (idempKey task.tenantID task.idempotencyKey) task.taskID
          else w.store.idempotency } }
  | resume {taskID : String} {run : Run F} {fromStatuses : List TaskStatus} {toStatus : TaskStatus}
      {task task' : Task F} (owner : run.taskID = taskID)
      (found : w.store.tasks.lookup taskID = some task)
      (newRun : w.store.runs.lookup (runKey run.taskID run.runID) = none)
      (identity : task'.identity = { task with activeRunID := run.runID }.identity) :
      Transaction w (.applyResumeTransition taskID run fromStatuses toStatus) { w with store :=
        { w.store with
          runs := w.store.runs.insert (runKey run.taskID run.runID) (ensureQueuedAt run w.clock)
          tasks := w.store.tasks.insert taskID task' } }

/-- The run a call changes and the status it gives it. -/
def Call.sets : Call F → Option (String × RunStatus)
  | .claimRun taskID runID => some (runKey taskID runID, .running)
  | .completeRun taskID runID status => some (runKey taskID runID, status)
  | .resetRunToQueued taskID runID => some (runKey taskID runID, .queued)
  | _ => none

/-- What a call of the services can do to the world. -/
inductive World.Effect (w : World F) : Call F → World F → Prop where
  | still (call : Call F) : Effect w call w
  | queue {msg : SQSMessage F} {sent refused : List (SQSMessage F)} :
      Effect w (.enqueue msg) { w with sent := sent, refused := refused }
  | task {call : Call F} {t : String} {old task : Task F}
      (found : w.store.tasks.lookup t = some old) (kept : task.identity = old.identity) :
      Effect w call { w with store := { w.store with tasks := w.store.tasks.insert t task } }
  | run {call : Call F} {k : String} {old run : Run F} (sets : call.sets = some (k, run.status))
      (found : w.store.runs.lookup k = some old) (kept : run.identity = old.identity)
      (steps : run.lastStepIndex = old.lastStepIndex) :
      Effect w call { w with store := { w.store with runs := w.store.runs.insert k run } }
  | transaction {call : Call F} {w' : World F} (done : w.Transaction call w') : Effect w call w'
  | engine {call : EngineCall F} {w' : World F} (did : w.EngineEffect call w') :
      Effect w (.engine call) w'

private theorem World.Effect.changeTask
    (keeps : ∀ task task', changeT task = .ok task' → task'.identity = task.identity) :
    w.Effect call (w.after (w.store.changeTask taskID changeT)) := by
  cases found : w.store.tasks.lookup taskID with
  | none =>
    rw [changeTask_missing found]
    exact .still _
  | some task =>
    cases changed : changeT task with
    | error e =>
      rw [changeTask_refused found changed]
      exact .still _
    | ok task' =>
      rw [changeTask_done found changed]
      exact .task found (keeps _ _ changed)

private theorem World.Effect.changeRun (sets : call.sets = some (runKey taskID runID, status))
    (keeps : ∀ run run', changeR run = .ok run' → run'.status = status ∧
      run'.identity = run.identity ∧ run'.lastStepIndex = run.lastStepIndex) :
    w.Effect call (w.after (w.store.changeRun taskID runID changeR)) := by
  cases found : w.store.runs.lookup (runKey taskID runID) with
  | none =>
    rw [changeRun_missing found]
    exact .still _
  | some run =>
    cases changed : changeR run with
    | error e =>
      rw [changeRun_refused found changed]
      exact .still _
    | ok run' =>
      rw [changeRun_done found changed]
      obtain ⟨rfl, identity, steps⟩ := keeps run run' changed
      exact .run sets found identity steps

variable [Float64 F]

theorem engineRuns_effect {call : EngineCall F} {answer : call.Ans}
    (ran : w.EngineRuns sha256 call answer w') : w.EngineEffect call w' := by
  cases call with
  | putStep step =>
    obtain ⟨-, rfl⟩ := ran
    unfold MemoryStore.putStep
    dsimp only
    split
    · exact .still _
    · exact .step (Option.not_isSome_iff_eq_none.mp ‹_›)
  | updateLastStepIndex taskID runID stepIndex =>
    obtain ⟨-, rfl⟩ := ran
    cases found : w.store.runs.lookup (runKey taskID runID) with
    | none =>
      rw [MemoryStore.updateLastStepIndex, changeRun_missing found]
      exact .still _
    | some run =>
      rw [MemoryStore.updateLastStepIndex, changeRun_always _ found]
      exact .lastStep found
  | addRunUsage taskID runID usage costUSD =>
    obtain ⟨-, rfl⟩ := ran
    cases found : w.store.runs.lookup (runKey taskID runID) with
    | none =>
      rw [MemoryStore.addRunUsage, changeRun_missing found]
      exact .still _
    | some run =>
      rw [MemoryStore.addRunUsage, changeRun_always _ found]
      exact .usage found
  | putEvent event =>
    obtain ⟨-, rfl⟩ := ran
    obtain ⟨events, left⟩ := putEvent_frame w.store w.clock event
    rw [World.after, left]
    exact .event event events
  | deleteConnection connectionID =>
    obtain ⟨-, rfl⟩ := ran
    exact .connection connectionID
  | artifactPut key data =>
    obtain ⟨-, rfl⟩ := ran
    exact .artifact key data
  | executeTool _ _ =>
    obtain ⟨blobs, keeps, rfl⟩ := ran
    exact .tool keeps
  | contextDone | push _ _ | workspaceSnapshot | workspaceRestore _ | chat _ =>
    obtain rfl := ran
    exact .still _
  | _ =>
    obtain ⟨-, rfl⟩ := ran
    exact .still _

theorem exec_effect (ran : w.Exec sha256 call answer w') : w.Effect call w' := by
  rcases ran with ran | ⟨-, rfl⟩
  swap
  · exact .still _
  cases call with
  | applyCreateTransition task run =>
    obtain ⟨-, rfl⟩ := ran
    rcases applyCreateTransition_cases w.store w.clock task run with
      ⟨e, result⟩ | ⟨owner, newTask, newRun, newKey, result⟩
    · rw [World.after, result]
      exact .still _
    · rw [World.after, result]
      exact .transaction (.create owner newTask newRun newKey)
  | applyResumeTransition taskID run fromStatuses toStatus =>
    obtain ⟨-, rfl⟩ := ran
    rcases applyResumeTransition_cases w.store w.clock taskID run fromStatuses toStatus with
      ⟨e, result⟩ | ⟨task, owner, -, -, found, newRun, -, result⟩
    · rw [World.after, result]
      exact .still _
    · rw [World.after, result]
      exact .transaction (.resume owner found newRun rfl)
  | updateTaskStatusForRun taskID runID fromStatuses toStatus =>
    obtain ⟨-, rfl⟩ := ran
    refine .changeTask fun task task' changed => ?_
    split_ifs at changed
    cases changed
    rfl
  | setAbortRequested taskID reason =>
    obtain ⟨-, rfl⟩ := ran
    refine .changeTask fun task task' changed => ?_
    cases changed
    rfl
  | claimRun taskID runID =>
    obtain ⟨-, rfl⟩ := ran
    refine .changeRun rfl fun run run' changed => ?_
    split_ifs at changed
    cases changed
    exact ⟨rfl, rfl, rfl⟩
  | completeRun taskID runID status | resetRunToQueued taskID runID =>
    obtain ⟨-, rfl⟩ := ran
    refine .changeRun rfl fun run run' changed => ?_
    cases changed
    exact ⟨rfl, rfl, rfl⟩
  | enqueue msg => cases answer <;> (obtain rfl := ran; exact .queue)
  | newLocalManager _ =>
    obtain rfl := ran
    exact .still _
  | engine call => exact .engine (engineRuns_effect ran)
  | _ =>
    obtain ⟨-, rfl⟩ := ran
    exact .still _

theorem exec_records (ran : w.Exec sha256 call answer w') :
    w.store.SameRecords w'.store ∨ w.Transaction call w' := by
  cases exec_effect ran with
  | still | queue => exact .inl .refl
  | task found kept => exact .inl (.insertTask found kept)
  | run sets found kept steps => exact .inl (.insertRun found kept)
  | transaction done => exact .inr done
  | engine did =>
    cases did with
    | lastStep found | usage found => exact .inl (.insertRun found rfl)
    | _ => exact .inl ⟨fun _ => rfl, fun _ => rfl, rfl⟩

end Records

/-! ## Records stay under their own keys -/

/-- Records lie under the keys made from their own ids. -/
structure MemoryStore.Keyed (s : MemoryStore F) : Prop where
  task : ∀ t task, s.tasks.lookup t = some task → task.taskID = t
  run : ∀ k run, s.runs.lookup k = some run → runKey run.taskID run.runID = k

/-- A map of records after a write: as it was, with a new record under its own name, or with
one changed in place that keeps what it has to. -/
inductive Rewritten {α : Type} (name : α → String) (keeps : α → α → Prop) (held : GoMap α) :
    GoMap α → Prop where
  | none : Rewritten name keeps held held
  | new {key : String} {record : α} (named : name record = key) (fresh : held.lookup key = none) :
      Rewritten name keeps held (held.insert key record)
  | changed {key : String} {old record : α} (found : held.lookup key = some old)
      (kept : keeps old record) : Rewritten name keeps held (held.insert key record)

/-- Records stay under their names, if those are kept. -/
theorem Rewritten.named {name : α → String} (written : Rewritten name keeps held held')
    (same : ∀ old record, keeps old record → name record = name old)
    (named : ∀ key record, held.lookup key = some record → name record = key) :
    ∀ key record, held'.lookup key = some record → name record = key := by
  intro key record there
  cases written with
  | none => exact named key record there
  | @new key' new own fresh =>
    by_cases here : key = key'
    · subst here
      rw [AList.lookup_insert, Option.some.injEq] at there
      exact there ▸ own
    · exact named key record (by rwa [AList.lookup_insert_ne here] at there)
  | @changed key' old new found kept =>
    by_cases here : key = key'
    · subst here
      rw [AList.lookup_insert, Option.some.injEq] at there
      exact there ▸ (same old new kept).trans (named key old found)
    · exact named key record (by rwa [AList.lookup_insert_ne here] at there)

/-- A record stays, if not as it was. -/
theorem Rewritten.stays {name : α → String} (written : Rewritten name keeps held held')
    (there : held.lookup key = some record) :
    ∃ record', held'.lookup key = some record' ∧ (record' = record ∨ keeps record record') := by
  cases written with
  | none => exact ⟨record, there, .inl rfl⟩
  | @new key' new own fresh =>
    have other : key ≠ key' := by
      rintro rfl
      cases fresh.symm.trans there
    exact ⟨record, (AList.lookup_insert_ne other).trans there, .inl rfl⟩
  | @changed key' old new found kept =>
    by_cases here : key = key'
    · subst here
      cases found.symm.trans there
      exact ⟨new, AList.lookup_insert _, .inr kept⟩
    · exact ⟨record, (AList.lookup_insert_ne here).trans there, .inl rfl⟩

/-- Records stay under their own keys, if a task keeps its id and a run its identity. -/
theorem MemoryStore.Keyed.rewritten {sameTask : Task F → Task F → Prop} (keyed : s.Keyed)
    (tasks : Rewritten Task.taskID sameTask s.tasks s'.tasks)
    (runs : Rewritten (fun run => runKey run.taskID run.runID)
      (fun old run => run.identity = old.identity) s.runs s'.runs)
    (same : ∀ old task, sameTask old task → task.taskID = old.taskID) : s'.Keyed := by
  refine ⟨tasks.named same keyed.task, runs.named (fun old run kept => ?_) keyed.run⟩
  simp only [Run.identity, Prod.mk.injEq] at kept
  rw [kept.1, kept.2.1]

/-- What a call does to the tasks and to the runs. -/
theorem exec_rewrites [Float64 F] {sha256 : Bytes → String} (ran : w.Exec sha256 call answer w') :
    Rewritten Task.taskID (fun old task => task.taskID = old.taskID ∧
      task.tenantID = old.tenantID ∧ task.idempotencyKey = old.idempotencyKey)
      w.store.tasks w'.store.tasks ∧
    Rewritten (fun run => runKey run.taskID run.runID)
      (fun old run => run.identity = old.identity) w.store.runs w'.store.runs := by
  cases exec_effect ran with
  | still | queue => exact ⟨.none, .none⟩
  | task found kept =>
    simp only [Task.identity, Prod.mk.injEq] at kept
    exact ⟨.changed found ⟨kept.1, kept.2.1, kept.2.2.1⟩, .none⟩
  | run sets found kept steps => exact ⟨.none, .changed found kept⟩
  | transaction done =>
    cases done with
    | create owner newTask newRun newKey => exact ⟨.new rfl newTask, .new (by simp) newRun⟩
    | resume owner found newRun identity =>
      simp only [Task.identity, Prod.mk.injEq] at identity
      exact ⟨.changed found ⟨identity.1, identity.2.1, identity.2.2.1⟩, .new (by simp) newRun⟩
  | engine did =>
    cases did with
    | lastStep found | usage found => exact ⟨.none, .changed found rfl⟩
    | _ => exact ⟨.none, .none⟩

/-- Every call leaves records under the keys made from their ids. -/
theorem exec_keyed [Float64 F] {sha256 : Bytes → String} (keyed : w.store.Keyed)
    (ran : w.Exec sha256 call answer w') : w'.store.Keyed :=
  keyed.rewritten (exec_rewrites ran).1 (exec_rewrites ran).2 fun _ _ kept => kept.1

/-! ## Tenants -/

/-- The tenant is the one the task was created with. -/
def MemoryStore.OfTenant (s : MemoryStore F) (taskID tenantID : String) : Prop :=
  ∃ task, s.tasks.lookup taskID = some task ∧ task.tenantID = tenantID

/-- A task keeps its tenant. -/
theorem exec_ofTenant [Float64 F] (ran : w.Exec sha256 call answer w')
    (tenant : w.store.OfTenant taskID tenantID) : w'.store.OfTenant taskID tenantID := by
  obtain ⟨task, found, same⟩ := tenant
  obtain ⟨task', there, rfl | ⟨-, tenant, -⟩⟩ := (exec_rewrites ran).1.stays found
  · exact ⟨task', there, same⟩
  · exact ⟨task', there, tenant.trans same⟩

/-! ## Every state of a store -/

/-- The methods that write. -/
inductive StoreWrite (F : Type) where
  | applyCreateTransition (task : Task F) (run : Run F)
  | putTask (task : Task F)
  | updateTaskStatus (taskID : String) (fromStatuses : List TaskStatus) (toStatus : TaskStatus)
  | updateTaskStatusForRun (taskID runID : String) (fromStatuses : List TaskStatus)
      (toStatus : TaskStatus)
  | setAbortRequested (taskID reason : String)
  | clearAbortRequested (taskID : String)
  | setActiveRun (taskID runID : String)
  | applyResumeTransition (taskID : String) (run : Run F) (fromStatuses : List TaskStatus)
      (toStatus : TaskStatus)
  | putRun (run : Run F)
  | claimRun (taskID runID : String)
  | completeRun (taskID runID : String) (status : RunStatus)
  | updateLastStepIndex (taskID runID : String) (stepIndex : Int)
  | addRunUsage (taskID runID : String) (usage : Option TokenUsage) (costUSD : F)
  | resetRunToQueued (taskID runID : String)
  | putStep (step : Step)
  | putConnection (conn : Connection)
  | deleteConnection (connectionID : String)
  | putEvent (event : StreamEvent F)
  | compactEvents (taskID runID : String) (beforeTS : Int)

/-- The store a method leaves. -/
def StoreWrite.apply [Float64 F] (s : MemoryStore F) (now : Time) : StoreWrite F → MemoryStore F
  | .applyCreateTransition task run => (s.applyCreateTransition now task run).2
  | .putTask task => (s.putTask task).2
  | .updateTaskStatus taskID fromStatuses toStatus =>
    (s.updateTaskStatus now taskID fromStatuses toStatus).2
  | .updateTaskStatusForRun taskID runID fromStatuses toStatus =>
    (s.updateTaskStatusForRun now taskID runID fromStatuses toStatus).2
  | .setAbortRequested taskID reason => (s.setAbortRequested now taskID reason).2
  | .clearAbortRequested taskID => (s.clearAbortRequested now taskID).2
  | .setActiveRun taskID runID => (s.setActiveRun now taskID runID).2
  | .applyResumeTransition taskID run fromStatuses toStatus =>
    (s.applyResumeTransition now taskID run fromStatuses toStatus).2
  | .putRun run => (s.putRun now run).2
  | .claimRun taskID runID => (s.claimRun now taskID runID).2
  | .completeRun taskID runID status => (s.completeRun now taskID runID status).2
  | .updateLastStepIndex taskID runID stepIndex => (s.updateLastStepIndex taskID runID stepIndex).2
  | .addRunUsage taskID runID usage costUSD => (s.addRunUsage taskID runID usage costUSD).2
  | .resetRunToQueued taskID runID => (s.resetRunToQueued now taskID runID).2
  | .putStep step => (s.putStep step).2
  | .putConnection conn => s.putConnection conn
  | .deleteConnection connectionID => s.deleteConnection connectionID
  | .putEvent event => (s.putEvent now event).2
  | .compactEvents taskID runID beforeTS => (s.compactEvents taskID runID beforeTS).2

/-- The states a store may be in: it starts empty, and its methods are called in any
order. -/
inductive MemoryStore.Reached [Float64 F] : MemoryStore F → Prop where
  | new (eventRetention : Int) : Reached { eventRetention := eventRetention }
  | write {s : MemoryStore F} (before : Reached s) (now : Time) (write : StoreWrite F) :
      Reached (write.apply s now)

/-- The store has the steps, connections and events it had. -/
structure MemoryStore.SameStreams (s s' : MemoryStore F) : Prop where
  steps : s'.steps = s.steps
  connections : s'.connections = s.connections
  events : s'.events = s.events
  eventRetention : s'.eventRetention = s.eventRetention

/-- The write is about tasks and runs. -/
def StoreWrite.onRecords : StoreWrite F → Bool
  | .putStep _ | .putConnection _ | .deleteConnection _ | .putEvent _ | .compactEvents .. => false
  | _ => true

/-- What a write leaves of the records and of the rest of the store. -/
structure StoreWrite.Leaves (write : StoreWrite F) (s s' : MemoryStore F) : Prop where
  tasks : Rewritten Task.taskID (fun old task => task.taskID = old.taskID ∧
    task.tenantID = old.tenantID ∧ task.userID = old.userID) s.tasks s'.tasks
  runs : Rewritten (fun run => runKey run.taskID run.runID)
    (fun old run => run.identity = old.identity) s.runs s'.runs
  streams : write.onRecords = true → s.SameStreams s'

theorem StoreWrite.leaves [Float64 F] (write : StoreWrite F) (s : MemoryStore F) (now : Time) :
    write.Leaves s (write.apply s now) := by
  have same : write.Leaves s s := ⟨.none, .none, fun _ => ⟨rfl, rfl, rfl, rfl⟩⟩
  have tasks : ∀ {taskID} {change : Task F → Except StoreError (Task F)},
      (∀ old task, change old = .ok task → task.taskID = old.taskID ∧
        task.tenantID = old.tenantID ∧ task.userID = old.userID) →
      write.Leaves s (s.changeTask taskID change).2 := by
    intro taskID change keeps
    unfold MemoryStore.changeTask
    split
    · exact same
    · split
      · exact same
      · exact ⟨.changed ‹_› (keeps _ _ ‹_›), .none, fun _ => ⟨rfl, rfl, rfl, rfl⟩⟩
  have runs : ∀ {taskID runID} {change : Run F → Except StoreError (Run F)},
      (∀ old run, change old = .ok run → run.identity = old.identity) →
      write.Leaves s (s.changeRun taskID runID change).2 := by
    intro taskID runID change keeps
    unfold MemoryStore.changeRun
    split
    · exact same
    · split
      · exact same
      · exact ⟨.none, .changed ‹_› (keeps _ _ ‹_›), fun _ => ⟨rfl, rfl, rfl, rfl⟩⟩
  cases write with
  | applyCreateTransition task run =>
    dsimp only [apply]
    rcases applyCreateTransition_cases s now task run with
      ⟨e, result⟩ | ⟨-, newTask, newRun, -, result⟩
    · rw [result]
      exact same
    · rw [result]
      exact ⟨.new rfl newTask, .new (by simp) newRun, fun _ => ⟨rfl, rfl, rfl, rfl⟩⟩
  | applyResumeTransition taskID run fromStatuses toStatus =>
    dsimp only [apply]
    rcases applyResumeTransition_cases s now taskID run fromStatuses toStatus with
      ⟨e, result⟩ | ⟨task, -, -, -, found, newRun, -, result⟩
    · rw [result]
      exact same
    · rw [result]
      exact ⟨.changed found ⟨rfl, rfl, rfl⟩, .new (by simp) newRun, fun _ => ⟨rfl, rfl, rfl, rfl⟩⟩
  | putTask task =>
    dsimp only [apply, MemoryStore.putTask]
    split_ifs with taken keyed present present
    · exact same
    · exact ⟨.none, .none, fun _ => ⟨rfl, rfl, rfl, rfl⟩⟩
    · exact ⟨.new rfl (by simpa using present), .none, fun _ => ⟨rfl, rfl, rfl, rfl⟩⟩
    · exact same
    · exact ⟨.new rfl (by simpa using present), .none, fun _ => ⟨rfl, rfl, rfl, rfl⟩⟩
  | updateTaskStatus taskID fromStatuses toStatus
  | updateTaskStatusForRun taskID runID fromStatuses toStatus =>
    refine tasks fun old task changed => ?_
    split_ifs at changed
    cases changed
    exact ⟨rfl, rfl, rfl⟩
  | setAbortRequested taskID reason | clearAbortRequested taskID | setActiveRun taskID runID =>
    refine tasks fun old task changed => ?_
    cases changed
    exact ⟨rfl, rfl, rfl⟩
  | putRun run =>
    dsimp only [apply, MemoryStore.putRun]
    split_ifs with present
    · exact same
    · exact ⟨.none, .new rfl (by simpa using present), fun _ => ⟨rfl, rfl, rfl, rfl⟩⟩
  | claimRun taskID runID =>
    refine runs fun old run changed => ?_
    split_ifs at changed
    cases changed
    rfl
  | completeRun taskID runID status | updateLastStepIndex taskID runID stepIndex
  | addRunUsage taskID runID usage costUSD | resetRunToQueued taskID runID =>
    refine runs fun old run changed => ?_
    cases changed
    rfl
  | putStep step =>
    dsimp only [apply]
    obtain ⟨steps, left⟩ := putStep_frame s step
    rw [left]
    exact ⟨.none, .none, nofun⟩
  | putEvent event =>
    dsimp only [apply]
    obtain ⟨events, left⟩ := putEvent_frame s now event
    rw [left]
    exact ⟨.none, .none, nofun⟩
  | putConnection conn | deleteConnection connectionID => exact ⟨.none, .none, nofun⟩
  | compactEvents taskID runID beforeTS =>
    dsimp only [apply, MemoryStore.compactEvents]
    split_ifs <;> exact ⟨.none, .none, nofun⟩

/-- What is in the store stays there, and a task stays whose it was. -/
structure MemoryStore.Persists (s s' : MemoryStore F) : Prop where
  task : ∀ t task, s.tasks.lookup t = some task → ∃ task', s'.tasks.lookup t = some task' ∧
    task'.tenantID = task.tenantID ∧ task'.userID = task.userID
  run : ∀ k run, s.runs.lookup k = some run → ∃ run', s'.runs.lookup k = some run'

/-- No write takes a task from its user, or a record from the store. -/
theorem StoreWrite.persists [Float64 F] (write : StoreWrite F) (s : MemoryStore F) (now : Time) :
    s.Persists (write.apply s now) where
  task t task found := by
    obtain ⟨task', there, rfl | ⟨-, user⟩⟩ := (write.leaves s now).tasks.stays found
    · exact ⟨task', there, rfl, rfl⟩
    · exact ⟨task', there, user⟩
  run k run found := by
    obtain ⟨run', there, -⟩ := (write.leaves s now).runs.stays found
    exact ⟨run', there⟩

theorem MemoryStore.Reached.keyed [Float64 F] (reached : s.Reached) : s.Keyed := by
  induction reached with
  | new eventRetention => exact ⟨by simp, by simp⟩
  | @write s before now write ih =>
    have left := write.leaves s now
    exact ih.rewritten left.tasks left.runs fun _ _ kept => kept.1

end AgentForge
