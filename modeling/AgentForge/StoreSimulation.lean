import AgentForge.DynamoRequests

/-! The `DynamoStore` simulates the `MemoryStore` on the lifecycle of runs. The two
are told the same calls, each with its own clock; tables and store stay related
record by record, up to the times each store reads from its clock and to a usage
that is nil in one and zero in the other, and so every call is answered alike. -/
namespace AgentForge

open DynamoDB

variable {V F : Type}

/-- A task without the times a store writes into it. -/
def Task.unclocked (task : Task F) : Task F :=
  { task with abortTS := task.abortTS.map fun _ => 0, updatedAt := 0 }

/-- A run without the times a store writes into it, its usage counted from zero. -/
def Run.unclocked (run : Run F) : Run F :=
  { run.counted with
    queuedAt := run.queuedAt.map fun _ => 0
    startedAt := run.startedAt.map fun _ => 0
    endedAt := run.endedAt.map fun _ => 0 }

theorem ensureQueuedAt_unclocked (run : Run F) (now now' : Time) :
    (ensureQueuedAt run now).unclocked = (ensureQueuedAt run now').unclocked := by
  unfold ensureQueuedAt
  split <;> rfl

theorem Task.unclocked_inj {task task' : Task F} (same : task.unclocked = task'.unclocked) :
    task.status = task'.status ∧ task.activeRunID = task'.activeRunID :=
  ⟨(congrArg Task.status same :), (congrArg Task.activeRunID same :)⟩

private theorem Run.unclocked_inj {run run' : Run F} (same : run.unclocked = run'.unclocked) :
    run.status = run'.status :=
  (congrArg Run.status same :)

/-! ## Keys -/

section Keys

variable (d : DynamoStore V F)

@[simp] theorem taskKey_inj : d.taskKey taskID = d.taskKey taskID' ↔ taskID = taskID' := by
  simp [DynamoStore.taskKey, taskPK, ← String.toList_inj]

@[simp] theorem dynamo_runKey_inj :
    d.runKey taskID runID = d.runKey taskID' runID' ↔ taskID = taskID' ∧ runID = runID' := by
  simp [DynamoStore.runKey, runPK, runSK, ← String.toList_inj]

@[simp] theorem dynamo_stepKey_inj :
    d.stepKey runID i = d.stepKey runID' i' ↔ runID = runID' ∧ i = i' := by
  rw [← (GoText.padded_injective 8).eq_iff (a := i)]
  simp [DynamoStore.stepKey, stepPK, stepSK, ← String.toList_inj]

@[simp] theorem idempotencyKey_inj :
    d.idempotencyKey tenantID key = d.idempotencyKey tenantID' key' ↔
      idempKey tenantID key = idempKey tenantID' key' := by
  simp [DynamoStore.idempotencyKey, idempotencyPK, idempKey, ← String.toList_inj]

/-- Texts that start differently are different values. -/
theorem string_ne {c : Marshalling V F} (heads : left.toList.head? ≠ right.toList.head?) :
    c.string left ≠ c.string right := by
  intro same
  exact heads (congrArg (fun text => text.toList.head?) (c.string_injective same))

@[simp] theorem taskKey_ne_runKey : d.taskKey taskID ≠ d.runKey taskID' runID := by
  intro same
  exact string_ne (by simp [taskMetaSK, runSK]) (congrArg Key.sort same)

@[simp] theorem taskKey_ne_stepKey : d.taskKey taskID ≠ d.stepKey runID i := by
  intro same
  exact string_ne (by simp [taskMetaSK, stepSK]) (congrArg Key.sort same)

@[simp] theorem taskKey_ne_idempotencyKey : d.taskKey taskID ≠ d.idempotencyKey tenantID key := by
  intro same
  exact string_ne (by simp [taskPK, idempotencyPK]) (congrArg Key.partition same)

@[simp] theorem runKey_ne_stepKey : d.runKey taskID runID ≠ d.stepKey runID' i := by
  intro same
  exact string_ne (by simp [runPK, stepPK]) (congrArg Key.partition same)

@[simp] theorem runKey_ne_idempotencyKey :
    d.runKey taskID runID ≠ d.idempotencyKey tenantID key := by
  intro same
  exact string_ne (by simp [runPK, idempotencyPK]) (congrArg Key.partition same)

@[simp] theorem stepKey_ne_idempotencyKey : d.stepKey runID i ≠ d.idempotencyKey tenantID key := by
  intro same
  exact string_ne (by simp [stepSK, taskMetaSK]) (congrArg Key.sort same)

end Keys

/-- A step's key is made of its run and its index alone, where the run's id has no
separator. -/
theorem stepKey_unique (plain : '#' ∉ runID.toList) (same : stepKey runID i = stepKey runID' i') :
    runID = runID' ∧ i = i' := by
  have digits : '#' ∉ (GoText.padded 8 i).toList := by
    intro member
    rcases GoText.mem_padded member with sign | digit
    · cases sign
    · cases digit
  obtain ⟨first, second⟩ := runKey_unique plain digits same
  exact ⟨first, GoText.padded_injective 8 second⟩

/-! ## The relation -/

/-- The item is the task, up to the clocks. -/
def KeepsTask (d : DynamoStore V F) (item : Item V) (task : Task F) : Prop :=
  ∃ stored, TaskItem d.av item stored ∧ stored.unclocked = task.unclocked

def KeepsRun [Float64 F] (d : DynamoStore V F) (item : Item V) (run : Run F) : Prop :=
  ∃ stored, RunItem d.av item stored ∧ stored.unclocked = run.unclocked

def KeepsStep (d : DynamoStore V F) (item : Item V) (step : Step) : Prop :=
  d.av.unmarshalStep item = some step

/-- The item is the idempotency entry of a task. -/
def KeepsEntry (d : DynamoStore V F) (item : Item V) (taskID : String) : Prop :=
  item.lookup "task_id" = some (d.av.string taskID) ∧ taskID ≠ ""

/-- Both hold the record, or neither does. -/
theorem related_cases (related : Option.Rel keeps stored kept) :
    (stored = none ∧ kept = none) ∨
      ∃ item record, stored = some item ∧ kept = some record ∧ keeps item record := by
  cases related with
  | none => exact .inl ⟨rfl, rfl⟩
  | some keeps => exact .inr ⟨_, _, rfl, rfl, keeps⟩

theorem related_isSome (related : Option.Rel keeps stored kept) : stored.isSome = kept.isSome := by
  cases related <;> rfl

/-- A record written under its name in both leaves them related under every name. -/
theorem related_insert [DecidableEq κ] [DecidableEq ν] {items : AList fun _ : κ => α}
    {held : AList fun _ : ν => β} {R : α → β → Prop} (names : key' = key ↔ name' = name)
    (keeps : R item record) (related : Option.Rel R (items.lookup key') (held.lookup name')) :
    Option.Rel R ((items.insert key item).lookup key') ((held.insert name record).lookup name') := by
  by_cases same : key' = key
  · rw [same, names.mp same, AList.lookup_insert, AList.lookup_insert]
    exact .some keeps
  · rwa [AList.lookup_insert_ne same, AList.lookup_insert_ne (mt names.mpr same)]

private theorem related_apart [DecidableEq κ] {items : AList fun _ : κ => α} {R : α → β → Prop}
    (apart : key' ≠ key) (related : Option.Rel R (items.lookup key') kept) :
    Option.Rel R ((items.insert key item).lookup key') kept := by
  rwa [AList.lookup_insert_ne apart]

private theorem TaskStatus.text_injective : Function.Injective TaskStatus.text := by
  intro left right same
  have read := congrArg TaskStatus.ofText same
  simpa using read

private theorem RunStatus.text_injective : Function.Injective RunStatus.text := by
  intro left right same
  have read := congrArg RunStatus.ofText same
  simpa using read

variable [DecidableEq V] [Float64 F]

/-- The tables hold what the store holds. -/
structure Simulates (d : DynamoStore V F) (items : AList fun _ : Key V => Item V)
    (s : MemoryStore F) : Prop where
  tasks : ∀ taskID, Option.Rel (KeepsTask d) (items.lookup (d.taskKey taskID))
    (s.tasks.lookup taskID)
  runs : ∀ taskID runID, '#' ∉ taskID.toList → '#' ∉ runID.toList →
    Option.Rel (KeepsRun d) (items.lookup (d.runKey taskID runID))
      (s.runs.lookup (runKey taskID runID))
  steps : ∀ runID i, '#' ∉ runID.toList →
    Option.Rel (KeepsStep d) (items.lookup (d.stepKey runID i)) (s.steps.lookup (stepKey runID i))
  entries : ∀ tenantID key, Option.Rel (KeepsEntry d) (items.lookup (d.idempotencyKey tenantID key))
    (s.idempotency.lookup (idempKey tenantID key))

namespace Simulates

variable {d : DynamoStore V F} {items : AList fun _ : Key V => Item V} {s : MemoryStore F}
  {item : Item V} {taskID runID tenantID key : String} {task : Task F} {run : Run F} {step : Step}

theorem empty (eventRetention : Int) : Simulates d ∅ { eventRetention } :=
  ⟨fun _ => .none, fun _ _ _ _ => .none, fun _ _ _ => .none, fun _ _ => .none⟩

section Inserts

variable (sim : Simulates d items s)

include sim

theorem insertTask (taskID : String) (keeps : KeepsTask d item task) :
    Simulates d (items.insert (d.taskKey taskID) item)
      { s with tasks := s.tasks.insert taskID task } where
  tasks other := related_insert (taskKey_inj d) keeps (sim.tasks other)
  runs other runID plain plain' :=
    related_apart (taskKey_ne_runKey d).symm (sim.runs other runID plain plain')
  steps runID i plain := related_apart (taskKey_ne_stepKey d).symm (sim.steps runID i plain)
  entries tenantID key :=
    related_apart (taskKey_ne_idempotencyKey d).symm (sim.entries tenantID key)

theorem insertRun (taskID runID : String) (keeps : KeepsRun d item run) :
    Simulates d (items.insert (d.runKey taskID runID) item)
      { s with runs := s.runs.insert (AgentForge.runKey taskID runID) run } where
  tasks other := related_apart (taskKey_ne_runKey d) (sim.tasks other)
  runs other otherRun otherPlain otherPlain' := by
    have named : runKey other otherRun = runKey taskID runID ↔ other = taskID ∧ otherRun = runID :=
      ⟨runKey_unique otherPlain otherPlain', fun ⟨task, run⟩ => by rw [task, run]⟩
    exact related_insert ((dynamo_runKey_inj d).trans named.symm) keeps
      (sim.runs other otherRun otherPlain otherPlain')
  steps other i otherPlain :=
    related_apart (runKey_ne_stepKey d).symm (sim.steps other i otherPlain)
  entries tenantID key :=
    related_apart (runKey_ne_idempotencyKey d).symm (sim.entries tenantID key)

theorem insertStep (keeps : KeepsStep d item step) :
    Simulates d (items.insert (d.stepKey runID i) item)
      { s with steps := s.steps.insert (AgentForge.stepKey runID i) step } where
  tasks other := related_apart (taskKey_ne_stepKey d) (sim.tasks other)
  runs other otherRun plain plain' :=
    related_apart (runKey_ne_stepKey d) (sim.runs other otherRun plain plain')
  steps other j plain := by
    have named : stepKey other j = stepKey runID i ↔ other = runID ∧ j = i :=
      ⟨stepKey_unique plain, fun ⟨run, index⟩ => by rw [run, index]⟩
    exact related_insert ((dynamo_stepKey_inj d).trans named.symm) keeps (sim.steps other j plain)
  entries tenantID key :=
    related_apart (stepKey_ne_idempotencyKey d).symm (sim.entries tenantID key)

theorem insertEntry (keeps : KeepsEntry d item taskID) :
    Simulates d (items.insert (d.idempotencyKey tenantID key) item)
      { s with idempotency := s.idempotency.insert (idempKey tenantID key) taskID } where
  tasks other := related_apart (taskKey_ne_idempotencyKey d) (sim.tasks other)
  runs other otherRun plain plain' :=
    related_apart (runKey_ne_idempotencyKey d) (sim.runs other otherRun plain plain')
  steps other i plain := related_apart (stepKey_ne_idempotencyKey d) (sim.steps other i plain)
  entries otherTenant other :=
    related_insert (idempotencyKey_inj d) keeps (sim.entries otherTenant other)

end Inserts

end Simulates

/-! ## Changing one record -/

/-- The two stores answer alike and stay related. -/
structure Agree {S : Service V tableSchema} (d : DynamoStore V F)
    (dynamo : Except StoreError Unit × S.State) (memory : Except StoreError Unit × MemoryStore F) : Prop where
  answer : dynamo.1 = memory.1
  related : Simulates d (S.items dynamo.2) memory.2

section Agreement

variable {d : DynamoStore V F} {S : Service V tableSchema} {db : S.State} {s : MemoryStore F}
  {taskID runID : String} {request : Write V} {holds : Item V → Bool} {changes : Changes V} {refused : StoreError}
  {message : String} {now now' : Time} {statuses : List TaskStatus}
  {changeT : Task F → Except StoreError (Task F)} {changeR : Run F → Except StoreError (Run F)}

/-- An update of a task is the change the other store makes in place. -/
theorem agree_changeTask (sim : Simulates d (S.items db) s)
    (updates : Updates (d.taskKey taskID) request holds changes)
    (missing : (S.items db).lookup (d.taskKey taskID) = none → refused = .notFound)
    (found : ∀ item stored task, (S.items db).lookup (d.taskKey taskID) = some item →
      TaskItem d.av item stored → stored.unclocked = task.unclocked →
      (holds item = true ∧ ∃ task', changeT task = .ok task' ∧
        KeepsTask d (changes.apply item) task') ∨
      (holds item = false ∧ changeT task = .error refused)) :
    Agree d (DynamoStore.writeItem db request refused message) (s.changeTask taskID changeT) := by
  rcases related_cases (sim.tasks taskID) with
    ⟨gone, unknown⟩ | ⟨item, task, there, known, stored, held, same⟩
  · rw [updates.missing gone, changeTask_missing unknown, missing gone]
    exact ⟨rfl, sim⟩
  · rcases found item stored task there held same with
      ⟨met, task', changed, keeps⟩ | ⟨unmet, error⟩
    · obtain ⟨db', written, items⟩ := updates.done there met
      rw [written, changeTask_done known changed]
      exact ⟨rfl, items ▸ sim.insertTask taskID keeps⟩
    · rw [updates.unmet there unmet, changeTask_refused known error]
      exact ⟨rfl, sim⟩

private theorem agree_changeRun (sim : Simulates d (S.items db) s) (plain : '#' ∉ taskID.toList)
    (plain' : '#' ∉ runID.toList) (updates : Updates (d.runKey taskID runID) request holds changes)
    (missing : (S.items db).lookup (d.runKey taskID runID) = none → refused = .notFound)
    (found : ∀ item stored run, (S.items db).lookup (d.runKey taskID runID) = some item →
      RunItem d.av item stored → stored.unclocked = run.unclocked →
      (holds item = true ∧ ∃ run', changeR run = .ok run' ∧
        KeepsRun d (changes.apply item) run') ∨
      (holds item = false ∧ changeR run = .error refused)) :
    Agree d (DynamoStore.writeItem db request refused message)
      (s.changeRun taskID runID changeR) := by
  rcases related_cases (sim.runs taskID runID plain plain') with
    ⟨gone, unknown⟩ | ⟨item, run, there, known, stored, held, same⟩
  · rw [updates.missing gone, changeRun_missing unknown, missing gone]
    exact ⟨rfl, sim⟩
  · rcases found item stored run there held same with
      ⟨met, run', changed, keeps⟩ | ⟨unmet, error⟩
    · obtain ⟨db', written, items⟩ := updates.done there met
      rw [written, changeRun_done known changed]
      exact ⟨rfl, items ▸ sim.insertRun taskID runID keeps⟩
    · rw [updates.unmet there unmet, changeRun_refused known error]
      exact ⟨rfl, sim⟩

/-! ## Tasks -/

attribute [local simp] Changes.Allowed Changes.touched tableSchema Placeholders.allUsed Update.uses
  Condition.uses Condition.resolve Update.resolve Placeholders.attribute List.lookup_cons

omit [Float64 F] in
/-- The condition on the stored status is the other store's membership test. -/
theorem any_status (held : TaskItem d.av item stored) :
    (statuses.any fun status => decide (item.lookup "status" = some (d.av.string status.text))) =
      decide (stored.status ∈ statuses) := by
  rw [Bool.eq_iff_iff, List.any_eq_true, decide_eq_true_iff]
  constructor
  · rintro ⟨status, member, same⟩
    rw [decide_eq_true_iff, held.status, Option.some_inj, Marshalling.string_inj] at same
    exact TaskStatus.text_injective same ▸ member
  · intro member
    exact ⟨_, member, by simp [held.status]⟩

omit [Float64 F] in
theorem isSome_pk (there : (S.items db).lookup key = some item) :
    (item.lookup "pk").isSome = true := by
  have named : item.lookup "pk" = some key.partition := (S.keyed there).1
  simp [named]

omit [Float64 F] in
private theorem mapTaskConditionErr_missing (gone : (S.items db).lookup (d.taskKey taskID) = none) :
    d.mapTaskConditionErr db taskID = .notFound := by
  simp [DynamoStore.mapTaskConditionErr, taskExists_eq, gone]

omit [Float64 F] in
private theorem mapTaskConditionErr_found
    (there : (S.items db).lookup (d.taskKey taskID) = some item) :
    d.mapTaskConditionErr db taskID = .conflict := by
  simp [DynamoStore.mapTaskConditionErr, taskExists_eq, there]

theorem agree_updateTaskStatus (sim : Simulates d (S.items db) s) (some_status : statuses ≠ [])
    (toStatus : TaskStatus) :
    Agree d (d.updateTaskStatus db now taskID statuses toStatus)
      (s.updateTaskStatus now' taskID statuses toStatus) := by
  rw [DynamoStore.updateTaskStatus, if_neg (by simpa using some_status)]
  refine agree_changeTask sim (.ofStatuses
    [(":updated", d.av.time now), (":to", d.av.string toStatus.text)]
    (fun item => (item.lookup "pk").isSome)
    ⟨[("status", d.av.string toStatus.text), ("updated_at", d.av.time now)], []⟩ some_status
    ?_ rfl) mapTaskConditionErr_missing ?_
  · simp
  intro item stored task there held same
  simp only [isSome_pk there, any_status held, Bool.true_and, (Task.unclocked_inj same).1]
  by_cases member : task.status ∈ statuses
  · refine .inl ⟨by simpa using member, _, by rw [if_pos member], ?_⟩
    exact ⟨_, held.setStatus now toStatus,
      congrArg (fun task : Task F => { task with status := toStatus }) same⟩
  · refine .inr ⟨by simpa using member, ?_⟩
    rw [if_neg member, mapTaskConditionErr_found there]

theorem agree_updateTaskStatusForRun (sim : Simulates d (S.items db) s) (some_status : statuses ≠ [])
    (toStatus : TaskStatus) :
    Agree d (d.updateTaskStatusForRun db now taskID runID statuses toStatus)
      (s.updateTaskStatusForRun now' taskID runID statuses toStatus) := by
  rw [DynamoStore.updateTaskStatusForRun, if_neg (by simpa using some_status)]
  refine agree_changeTask sim (.ofStatuses
    [(":updated", d.av.time now), (":to", d.av.string toStatus.text), (":run_id", d.av.string runID)]
    (fun item => (item.lookup "pk").isSome &&
      item.lookup "active_run_id" = some (d.av.string runID))
    ⟨[("status", d.av.string toStatus.text), ("updated_at", d.av.time now)], []⟩ some_status
    ?_ rfl) mapTaskConditionErr_missing ?_
  · simp
  intro item stored task there held same
  obtain ⟨status, activeRunID⟩ := Task.unclocked_inj same
  simp only [isSome_pk there, any_status held, Bool.true_and, status, held.activeRunID,
    activeRunID, Option.some_inj, Marshalling.string_inj]
  by_cases active : task.activeRunID = runID
  · by_cases member : task.status ∈ statuses
    · refine .inl ⟨by simp [active, member], _, by
        rw [if_neg (not_not.mpr active), if_pos member], ?_⟩
      exact ⟨_, held.setStatus now toStatus,
        congrArg (fun task : Task F => { task with status := toStatus }) same⟩
    · exact .inr ⟨by simp [member], by simp [active, member, mapTaskConditionErr_found there]⟩
  · exact .inr ⟨by simp [active], by simp [active, mapTaskConditionErr_found there]⟩

theorem agree_setAbortRequested (sim : Simulates d (S.items db) s) (reason : String) :
    Agree d (d.setAbortRequested db now taskID reason)
      (s.setAbortRequested now' taskID reason) := by
  refine agree_changeTask sim (.of (fun item => (item.lookup "pk").isSome)
    ⟨[("abort_requested", d.av.bool true), ("abort_reason", d.av.string reason),
      ("abort_ts", d.av.time now), ("updated_at", d.av.time now)], []⟩ ?_ rfl)
    (fun _ => rfl) ?_
  · simp
  intro item stored task there held same
  refine .inl ⟨isSome_pk there, _, rfl, _, held.requestAbort now reason, ?_⟩
  exact congrArg (fun task : Task F =>
    { task with abortRequested := true, abortReason := reason, abortTS := some 0 }) same

/-! ## Runs -/

variable (sim : Simulates d (S.items db) s) (plain : '#' ∉ taskID.toList) (plain' : '#' ∉ runID.toList)
include sim plain plain'

theorem agree_claimRun :
    Agree d (d.claimRun db now taskID runID) (s.claimRun now' taskID runID) := by
  refine agree_changeRun sim plain plain' (.of (fun item => (item.lookup "pk").isSome &&
      item.lookup "status" = some (d.av.string RunStatus.queued.text))
    ⟨[("status", d.av.string RunStatus.running.text), ("started_at", d.av.time now)], []⟩ ?_ rfl)
    ?_ ?_
  · simp
  · intro gone
    simp [runExists_eq, gone]
  intro item stored run there held same
  have exists_run : d.runExists db taskID runID = true := by simp [runExists_eq, there]
  simp only [isSome_pk there, held.status, Bool.true_and, Run.unclocked_inj same, Option.some_inj,
    Marshalling.string_inj, RunStatus.text_injective.eq_iff, exists_run, if_true]
  by_cases queued : run.status = .queued
  · refine .inl ⟨by simp [queued], _, by rw [if_neg (not_not.mpr queued)], _, held.claim now, ?_⟩
    exact congrArg (fun run : Run F => { run with status := .running, startedAt := some 0 }) same
  · exact .inr ⟨by simp [queued], by simp [queued]⟩

theorem agree_completeRun (status : RunStatus) :
    Agree d (d.completeRun db now taskID runID status)
      (s.completeRun now' taskID runID status) := by
  refine agree_changeRun sim plain plain' (.of (fun item => (item.lookup "pk").isSome)
    ⟨[("status", d.av.string status.text), ("ended_at", d.av.time now)], []⟩ ?_ rfl)
    (fun _ => rfl) ?_
  · simp
  intro item stored run there held same
  refine .inl ⟨isSome_pk there, _, rfl, _, held.complete now status, ?_⟩
  exact congrArg (fun run : Run F => { run with status := status, endedAt := some 0 }) same

theorem agree_updateLastStepIndex (stepIndex : Int) :
    Agree d (d.updateLastStepIndex db taskID runID stepIndex)
      (s.updateLastStepIndex taskID runID stepIndex) := by
  refine agree_changeRun sim plain plain' (.of (fun item => (item.lookup "pk").isSome)
    ⟨[("last_step_index", d.av.int stepIndex)], []⟩ ?_ rfl)
    (fun _ => rfl) ?_
  · simp [-List.lookup_cons]
  intro item stored run there held same
  refine .inl ⟨isSome_pk there, _, rfl, _, held.setLastStepIndex stepIndex, ?_⟩
  exact congrArg (fun run : Run F => { run with lastStepIndex := stepIndex }) same

theorem agree_resetRunToQueued :
    Agree d (d.resetRunToQueued db now taskID runID) (s.resetRunToQueued now' taskID runID) := by
  refine agree_changeRun sim plain plain' (.of (fun item => (item.lookup "pk").isSome)
    ⟨[("status", d.av.string RunStatus.queued.text), ("queued_at", d.av.time now)],
      ["started_at", "ended_at"]⟩ ?_ rfl)
    (fun _ => rfl) ?_
  · simp
  intro item stored run there held same
  refine .inl ⟨isSome_pk there, _, rfl, _, held.reset now, ?_⟩
  exact congrArg (fun run : Run F =>
    { run with status := .queued, queuedAt := some 0, startedAt := none, endedAt := none }) same

end Agreement

end AgentForge
