import AgentForge.StoreSimulation

/-! The lifecycle of runs in both stores. A run is created and resumed in one
transaction, which the `DynamoStore` tells apart after the fact by the reasons of
a cancellation; the other calls change or read one record. A sequence of calls is
answered by the two stores alike. -/
namespace AgentForge

open DynamoDB

variable {V F : Type}

/-! ## Items under their keys -/

section Items

variable (d : DynamoStore V F) (now now' : Time) (task : Task F) (run : Run F) (step : Step)

private theorem keyed_taskItem :
    Keyed tableSchema (d.taskKey task.taskID) (d.taskItem now task) := by
  constructor <;> simp [tableSchema, DynamoStore.taskItem, DynamoStore.taskKey,
    Marshalling.marshalTask, Marshalling.applyTaskCompatFields]

private theorem keyed_runItem [Float64 F] :
    Keyed tableSchema (d.runKey run.taskID run.runID) (d.runItem run) := by
  constructor <;> simp [tableSchema, DynamoStore.runItem, DynamoStore.runKey,
    Marshalling.marshalRun, Marshalling.applyRunCompatFields]

private theorem keyed_queuedItem [Float64 F] : Keyed tableSchema (d.runKey run.taskID run.runID)
    (d.runItem (ensureQueuedAt run now)) := by
  have keyed := keyed_runItem d (ensureQueuedAt run now)
  rwa [ensureQueuedAt_taskID, ensureQueuedAt_runID] at keyed

private theorem keyed_stepItem :
    Keyed tableSchema (d.stepKey step.runID step.stepIndex) (d.stepItem step) := by
  constructor <;> simp [tableSchema, DynamoStore.stepItem, DynamoStore.stepKey,
    Marshalling.marshalStep]

private theorem keyed_idItem :
    Keyed tableSchema (d.idempotencyKey task.tenantID task.idempotencyKey) (d.idItem now task) := by
  constructor <;> simp [tableSchema, DynamoStore.idItem, DynamoStore.idempotencyKey]

private theorem keepsTask_taskItem : KeepsTask d (d.taskItem now task) task :=
  ⟨task, taskItem_holds d now task, rfl⟩

private theorem keepsRun_queuedItem [Float64 F] :
    KeepsRun d (d.runItem (ensureQueuedAt run now)) (ensureQueuedAt run now') :=
  ⟨_, runItem_holds d _, ensureQueuedAt_unclocked run now now'⟩

private theorem keepsEntry_idItem (named : task.taskID ≠ "") :
    KeepsEntry d (d.idItem now task) task.taskID :=
  ⟨by simp [DynamoStore.idItem], named⟩

end Items

variable [DecidableEq V] [Float64 F] {d : DynamoStore V F} {S : Service V tableSchema}
  {db : S.State} {s : MemoryStore F} {taskID runID : String} {now : Time} {task : Task F} {run : Run F} {step : Step}

/-! ## Transactions -/

omit [Float64 F] in
/-- A transaction of inserts and updates is made, or some condition failed. -/
theorem transact_cases (planned : List.Forall₂ (S.Prepares db) requests plans)
    (apart : (plans.map Plan.key).Nodup) :
    (plans.all Plan.holds = true ∧ ∃ db', S.transact db requests = .ok db' ∧
      S.items db' = plans.foldl (fun items plan => items.insert plan.key plan.item) (S.items db)) ∨
    (plans.all Plan.holds = false ∧
      S.transact db requests = .error (.transactionCanceled (plans.map Plan.reason)) ∧
      isTransactionConditionFailed (.transactionCanceled (plans.map Plan.reason)) = true) := by
  cases met : plans.all Plan.holds with
  | true => exact .inl ⟨rfl, S.transact_done planned apart met⟩
  | false =>
    refine .inr ⟨rfl, S.transact_canceled planned apart met, ?_⟩
    obtain ⟨plan, member, unmet⟩ := List.all_eq_false.mp met
    simp only [isTransactionConditionFailed, List.any_map, List.any_eq_true]
    exact ⟨plan, member, by simp [Plan.reason, unmet]⟩

omit [DecidableEq V] in
private theorem isRunInsertConflict_cons (plan : Plan V) (plans : List (Plan V)) :
    isRunInsertConflict (.transactionCanceled ((plan :: plans).map Plan.reason)) = !plan.holds := by
  cases holds : plan.holds <;> simp [isRunInsertConflict, Plan.reason, holds]

/-- The inserts that create a task. -/
def createPlans (d : DynamoStore V F) (db : S.State) (now : Time) (task : Task F) (run : Run F) :
    List (Plan V) :=
  [⟨d.taskKey task.taskID, ((S.items db).lookup (d.taskKey task.taskID)).isNone, d.taskItem now task⟩,
   ⟨d.runKey run.taskID run.runID, ((S.items db).lookup (d.runKey run.taskID run.runID)).isNone,
    d.runItem (ensureQueuedAt run now)⟩] ++
  if task.idempotencyKey ≠ "" then
    [⟨d.idempotencyKey task.tenantID task.idempotencyKey,
      ((S.items db).lookup (d.idempotencyKey task.tenantID task.idempotencyKey)).isNone,
      d.idItem now task⟩]
  else []

private theorem createPlans_prepared :
    List.Forall₂ (S.Prepares db)
      ([.put d.tasksTable (d.taskItem now task) notExists {},
        .put d.runsTable (d.runItem (ensureQueuedAt run now)) notExists {}] ++
        if task.idempotencyKey ≠ "" then [.put d.tasksTable (d.idItem now task) notExists {}]
        else [])
      (createPlans d db now task run) := by
  have first := prepares_insert db (keyed_taskItem d now task)
  have second := prepares_insert db (keyed_queuedItem d now run)
  have third := prepares_insert db (keyed_idItem d now task)
  refine .cons first (.cons second ?_)
  split
  · exact .cons third .nil
  · exact .nil

private theorem createPlans_apart : ((createPlans d db now task run).map Plan.key).Nodup := by
  unfold createPlans
  split <;> simp

/-- All inserts can be made if neither the task nor the run nor the key is there. -/
theorem createPlans_hold : (createPlans d db now task run).all Plan.holds = true ↔
    (S.items db).lookup (d.taskKey task.taskID) = none ∧
      (S.items db).lookup (d.runKey run.taskID run.runID) = none ∧
      (task.idempotencyKey ≠ "" →
        (S.items db).lookup (d.idempotencyKey task.tenantID task.idempotencyKey) = none) := by
  unfold createPlans
  split <;> simp_all

/-- Made together, the inserts are those of the other store. -/
theorem Simulates.create (sim : Simulates d (S.items db) s) (named : task.taskID ≠ "") :
    Simulates d ((createPlans d db now task run).foldl
        (fun items plan => items.insert plan.key plan.item) (S.items db))
      { s with
        tasks := s.tasks.insert task.taskID task
        runs := s.runs.insert (runKey run.taskID run.runID) (ensureQueuedAt run now')
        idempotency := if task.idempotencyKey ≠ "" then
            s.idempotency.insert (idempKey task.tenantID task.idempotencyKey) task.taskID
          else s.idempotency } := by
  have both := (sim.insertTask task.taskID (keepsTask_taskItem d now task)).insertRun
    run.taskID run.runID (keepsRun_queuedItem d now now' run)
  simp only [createPlans, List.cons_append, List.nil_append, List.foldl_cons]
  split
  · simp only [List.foldl_cons, List.foldl_nil]
    exact both.insertEntry (keepsEntry_idItem d now task named)
  · exact both

private theorem agree_applyCreateTransition (sim : Simulates d (S.items db) s)
    (plain : '#' ∉ run.taskID.toList) (plain' : '#' ∉ run.runID.toList) :
    Agree d (d.applyCreateTransition db now task run)
      (s.applyCreateTransition now' task run) := by
  unfold DynamoStore.applyCreateTransition MemoryStore.applyCreateTransition
  dsimp only
  rw [ensureQueuedAt_taskID, ensureQueuedAt_runID, ensureQueuedAt_taskID, ensureQueuedAt_runID]
  by_cases incomplete : task.taskID = "" ∨ run.taskID = "" ∨ run.runID = ""
  · rw [if_pos incomplete, if_pos incomplete]
    exact ⟨rfl, sim⟩
  by_cases foreign : run.taskID ≠ task.taskID
  · rw [if_neg incomplete, if_neg incomplete, if_pos foreign, if_pos foreign]
    exact ⟨rfl, sim⟩
  rw [if_neg incomplete, if_neg incomplete, if_neg foreign, if_neg foreign,
    ← related_isSome (sim.tasks task.taskID),
    ← related_isSome (sim.runs run.taskID run.runID plain plain'),
    ← related_isSome (sim.entries task.tenantID task.idempotencyKey)]
  rcases transact_cases (createPlans_prepared (d := d)) createPlans_apart with
    ⟨met, db', done, items⟩ | ⟨unmet, canceled, failed⟩
  · obtain ⟨newTask, newRun, newKey⟩ := createPlans_hold.mp met
    rw [done, if_neg (by simp [newTask]), if_neg (by simp [newRun]), if_neg (by simpa using newKey)]
    exact ⟨rfl, items ▸ sim.create fun unnamed => incomplete (.inl unnamed)⟩
  · have taken := mt createPlans_hold.mpr (ne_true_of_eq_false unmet)
    simp only [canceled, failed, Bool.or_true, if_true]
    by_cases oldTask : ((S.items db).lookup (d.taskKey task.taskID)).isSome = true
    · rw [if_pos oldTask]
      exact ⟨rfl, sim⟩
    by_cases oldRun : ((S.items db).lookup (d.runKey run.taskID run.runID)).isSome = true
    · rw [if_neg oldTask, if_pos oldRun]
      exact ⟨rfl, sim⟩
    by_cases oldKey : task.idempotencyKey ≠ "" ∧ ((S.items db).lookup
        (d.idempotencyKey task.tenantID task.idempotencyKey)).isSome = true
    · rw [if_neg oldTask, if_neg oldRun, if_pos oldKey]
      exact ⟨rfl, sim⟩
    · exact absurd ⟨by simpa using oldTask, by simpa using oldRun, by simpa using oldKey⟩ taken

omit [Float64 F] in
/-- The update that makes a run the active one of its task. -/
theorem updates_resume (now : Time) (some_status : statuses ≠ []) (runID : String) (toStatus : TaskStatus) :
    Updates (d.taskKey taskID) (.update (d.taskKey taskID)
        ⟨[("active_run_id", ":run_id"), ("abort_requested", ":abort_requested"),
          ("abort_reason", ":abort_reason"), ("#status", ":to"), ("updated_at", ":updated")],
          ["abort_ts"]⟩
        (.and (.attributeExists "pk") (d.buildStatusConditionTask statuses).1)
        ⟨[("#status", "status")], [(":updated", d.av.time now),
          (":to", d.av.string toStatus.text), (":abort_reason", d.av.string ""),
          (":abort_requested", d.av.bool false), (":run_id", d.av.string runID)] ++
            (d.buildStatusConditionTask statuses).2.2⟩)
      (fun item => (item.lookup "pk").isSome && statuses.any fun status =>
        item.lookup "status" = some (d.av.string status.text))
      ⟨[("active_run_id", d.av.string runID), ("abort_requested", d.av.bool false),
        ("abort_reason", d.av.string ""), ("status", d.av.string toStatus.text),
        ("updated_at", d.av.time now)], ["abort_ts"]⟩ := by
  refine .ofStatuses [(":updated", d.av.time now), (":to", d.av.string toStatus.text),
    (":abort_reason", d.av.string ""), (":abort_requested", d.av.bool false),
    (":run_id", d.av.string runID)] _ _ some_status ⟨?_, ?_, ?_, ?_, ?_⟩ rfl
  · simp [Changes.Allowed, Changes.touched, tableSchema]
  · simp [Update.uses]
  · simp [Update.uses]
  · simp [Condition.resolve, Placeholders.attribute]
  · apply Update.resolve_eq <;> simp [Placeholders.attribute, List.lookup_cons]

section Operations

variable (sim : Simulates d (S.items db) s)

include sim

private theorem agree_applyResumeTransition
    (plain : '#' ∉ run.taskID.toList) (plain' : '#' ∉ run.runID.toList)
    (some_status : statuses ≠ []) (toStatus : TaskStatus) :
    Agree d (d.applyResumeTransition db now taskID run statuses toStatus)
      (s.applyResumeTransition now' taskID run statuses toStatus) := by
  unfold DynamoStore.applyResumeTransition MemoryStore.applyResumeTransition
  dsimp only
  rw [ensureQueuedAt_taskID, ensureQueuedAt_runID, ensureQueuedAt_taskID, ensureQueuedAt_runID]
  by_cases foreign : run.taskID = "" ∨ run.runID = "" ∨ run.taskID ≠ taskID
  · rw [if_pos foreign, if_pos foreign]
    exact ⟨rfl, sim⟩
  rw [if_neg foreign, if_neg foreign, if_neg (by simpa using some_status), taskExists_eq]
  rcases related_cases (sim.tasks taskID) with
    ⟨gone, unknown⟩ | ⟨item, task, there, known, stored, held, same⟩
  · simp only [gone, unknown]
    exact ⟨rfl, sim⟩
  simp only [there, known, Option.isSome_some, Bool.not_true, Bool.false_eq_true, if_false]
  have planned : List.Forall₂ (S.Prepares db) _ _ :=
    .cons (prepares_insert db (keyed_queuedItem d now run))
      (.cons ((updates_resume now some_status run.runID toStatus).plan_found there) .nil)
  have apart : [d.runKey run.taskID run.runID, d.taskKey taskID].Nodup := by
    simp [(taskKey_ne_runKey d).symm]
  have inRuns := related_isSome (sim.runs run.taskID run.runID plain plain')
  generalize transacted : S.transact db _ = outcome
  rcases transact_cases planned apart with ⟨met, db', done, items⟩ | ⟨unmet, canceled, failed⟩
  · obtain rfl : outcome = .ok db' := transacted.symm.trans done
    simp only [List.all_cons, List.all_nil, isSome_pk there, any_status held, Bool.true_and,
      Bool.and_true, Bool.and_eq_true, decide_eq_true_iff, (Task.unclocked_inj same).1] at met
    rw [if_neg (by simpa [← inRuns] using met.1), if_neg (not_not.mpr met.2)]
    refine ⟨rfl, ?_⟩
    have kept : KeepsTask d _ { task with
        activeRunID := run.runID, abortRequested := false, abortReason := "", abortTS := none,
        status := toStatus, updatedAt := now' } :=
      ⟨_, held.resume now run.runID toStatus, congrArg (fun task : Task F => { task with
        activeRunID := run.runID, abortRequested := false, abortReason := "", abortTS := none,
        status := toStatus }) same⟩
    simp only [items, List.foldl_cons, List.foldl_nil]
    exact (sim.insertRun _ _ (keepsRun_queuedItem d now now' run)).insertTask taskID kept
  · obtain rfl := transacted.symm.trans canceled
    simp only [isRunInsertConflict_cons, failed, Bool.or_true, if_true, Option.not_isNone, inRuns]
    by_cases old : (s.runs.lookup (runKey run.taskID run.runID)).isSome = true
    · rw [if_pos old, if_pos old]
      exact ⟨rfl, sim⟩
    · have fresh : ((S.items db).lookup (d.runKey run.taskID run.runID)).isNone = true := by
        rw [← inRuns] at old
        simpa using old
      simp only [List.all_cons, List.all_nil, isSome_pk there, any_status held, Bool.true_and,
        Bool.and_true, fresh, decide_eq_false_iff_not, (Task.unclocked_inj same).1] at unmet
      rw [if_neg old, if_neg old, if_pos unmet]
      exact ⟨rfl, sim⟩

/-! ## Steps -/

private theorem agree_putStep (plain : '#' ∉ step.runID.toList)
    (named : step.runID ≠ "") : Agree d (d.putStep db step) (s.putStep step) := by
  have inSteps := related_isSome (sim.steps step.runID step.stepIndex plain)
  have planned := prepares_insert db (keyed_stepItem d step)
  unfold DynamoStore.putStep DynamoStore.writeItem MemoryStore.putStep
  rw [if_neg named]
  dsimp only
  generalize written : S.write db _ = outcome
  by_cases old : (s.steps.lookup (stepKey step.runID step.stepIndex)).isSome = true
  · have unmet : ((S.items db).lookup (d.stepKey step.runID step.stepIndex)).isNone = false := by
      rw [← Option.not_isSome, inSteps, old, Bool.not_true]
    obtain rfl := written.symm.trans (S.write_refused planned unmet)
    rw [if_pos old]
    exact ⟨rfl, sim⟩
  · have met : ((S.items db).lookup (d.stepKey step.runID step.stepIndex)).isNone = true := by
      rw [← Option.not_isSome, inSteps, eq_false_of_ne_true old, Bool.not_false]
    obtain ⟨db', done, items⟩ := S.write_done planned met
    obtain rfl := written.symm.trans done
    rw [if_neg old]
    exact ⟨rfl, items ▸ sim.insertStep (unmarshal_stepItem d step)⟩

/-! ## Reads -/

private theorem getTask_agree (named : taskID ≠ "") :
    (d.getTask db taskID).map Task.unclocked = (s.getTask taskID).map Task.unclocked := by
  rw [DynamoStore.getTask, MemoryStore.getTask, if_neg named]
  rcases related_cases (sim.tasks taskID) with
    ⟨gone, unknown⟩ | ⟨item, task, there, known, stored, held, same⟩
  · rw [readItem_missing gone, unknown]
  · rw [readItem_found there held.unmarshal, known]
    exact congrArg Except.ok same

private theorem getTaskByIdempotencyKey_agree (tenant : tenantID ≠ "") (named : key ≠ "") :
    (d.getTaskByIdempotencyKey db tenantID key).map Task.unclocked =
      (s.getTaskByIdempotencyKey tenantID key).map Task.unclocked := by
  rw [DynamoStore.getTaskByIdempotencyKey, MemoryStore.getTaskByIdempotencyKey,
    if_neg (not_or.mpr ⟨tenant, named⟩)]
  rcases related_cases (sim.entries tenantID key) with
    ⟨gone, unknown⟩ | ⟨item, taskID, there, known, names, nonempty⟩
  · rw [if_pos (getItem_entries.mpr gone), unknown]
  · have filled : ¬ (S.getItem db (d.idempotencyKey tenantID key)).entries.length = 0 := by
      rw [getItem_entries, there]
      exact Option.some_ne_none item
    have read : (item.lookup "task_id").bind d.av.readString = some taskID := by simp [names]
    rw [if_neg filled, S.getItem_found there, read, known]
    dsimp only
    rw [if_neg nonempty]
    exact getTask_agree sim nonempty

private theorem getRun_agree (plain : '#' ∉ taskID.toList) (plain' : '#' ∉ runID.toList) :
    (d.getRun db taskID runID).map Run.unclocked = (s.getRun taskID runID).map Run.unclocked := by
  rw [DynamoStore.getRun, MemoryStore.getRun]
  rcases related_cases (sim.runs taskID runID plain plain') with
    ⟨gone, unknown⟩ | ⟨item, run, there, known, stored, held, same⟩
  · rw [readItem_missing gone, unknown]
  · rw [readItem_found there held.unmarshal, known]
    exact congrArg Except.ok same

private theorem getStep_agree (plain : '#' ∉ runID.toList) (i : Int) :
    d.getStep db runID i = s.getStep runID i := by
  rw [DynamoStore.getStep, MemoryStore.getStep]
  rcases related_cases (sim.steps runID i plain) with
    ⟨gone, unknown⟩ | ⟨item, step, there, known, read⟩
  · rw [readItem_missing gone, unknown]
  · rw [readItem_found there read, known]

end Operations

/-! ## Sequences of calls -/

/-- The calls that make up the lifecycle of a run. -/
inductive LifecycleCall (F : Type) where
  | applyCreateTransition (task : Task F) (run : Run F)
  | updateTaskStatus (taskID : String) (fromStatuses : List TaskStatus) (toStatus : TaskStatus)
  | updateTaskStatusForRun (taskID runID : String) (fromStatuses : List TaskStatus)
      (toStatus : TaskStatus)
  | applyResumeTransition (taskID : String) (run : Run F) (fromStatuses : List TaskStatus)
      (toStatus : TaskStatus)
  | setAbortRequested (taskID reason : String)
  | claimRun (taskID runID : String)
  | completeRun (taskID runID : String) (status : RunStatus)
  | resetRunToQueued (taskID runID : String)
  | updateLastStepIndex (taskID runID : String) (stepIndex : Int)
  | putStep (step : Step)
  | getTask (taskID : String)
  | getRun (taskID runID : String)
  | getStep (runID : String) (stepIndex : Int)
  | getTaskByIdempotencyKey (tenantID idempotencyKey : String)

/-- The ids of a call are plain, and a change of status names a status to start from. -/
def LifecycleCall.Valid : LifecycleCall F → Prop
  | .applyCreateTransition task run =>
    PlainID task.taskID ∧ PlainID run.taskID ∧ PlainID run.runID
  | .updateTaskStatus taskID fromStatuses _ => PlainID taskID ∧ fromStatuses ≠ []
  | .updateTaskStatusForRun taskID runID fromStatuses _ =>
    PlainID taskID ∧ PlainID runID ∧ fromStatuses ≠ []
  | .applyResumeTransition taskID run fromStatuses _ =>
    PlainID taskID ∧ PlainID run.taskID ∧ PlainID run.runID ∧ fromStatuses ≠ []
  | .setAbortRequested taskID _ | .getTask taskID => PlainID taskID
  | .claimRun taskID runID | .completeRun taskID runID _ | .resetRunToQueued taskID runID
  | .updateLastStepIndex taskID runID _ | .getRun taskID runID => PlainID taskID ∧ PlainID runID
  | .putStep step => PlainID step.runID
  | .getStep runID _ => PlainID runID
  | .getTaskByIdempotencyKey tenantID idempotencyKey => tenantID ≠ "" ∧ idempotencyKey ≠ ""

/-- What a call that does not fail answers. -/
inductive LifecycleAnswer (F : Type) where
  | done
  | task (task : Task F)
  | run (run : Run F)
  | step (step : Step)

/-- An answer up to the clocks. -/
def LifecycleAnswer.unclocked : LifecycleAnswer F → LifecycleAnswer F
  | .done => .done
  | .task task => .task task.unclocked
  | .run run => .run run.unclocked
  | .step step => .step step

/-- The answer of a call that only changes the store. -/
def answerDone {σ : Type} (outcome : Except StoreError Unit × σ) :
    Except StoreError (LifecycleAnswer F) × σ :=
  (outcome.1.map fun _ => .done, outcome.2)

def MemoryStore.answer (s : MemoryStore F) (now : Time) :
    LifecycleCall F → Except StoreError (LifecycleAnswer F) × MemoryStore F
  | .applyCreateTransition task run => answerDone (s.applyCreateTransition now task run)
  | .updateTaskStatus taskID fromStatuses toStatus =>
    answerDone (s.updateTaskStatus now taskID fromStatuses toStatus)
  | .updateTaskStatusForRun taskID runID fromStatuses toStatus =>
    answerDone (s.updateTaskStatusForRun now taskID runID fromStatuses toStatus)
  | .applyResumeTransition taskID run fromStatuses toStatus =>
    answerDone (s.applyResumeTransition now taskID run fromStatuses toStatus)
  | .setAbortRequested taskID reason => answerDone (s.setAbortRequested now taskID reason)
  | .claimRun taskID runID => answerDone (s.claimRun now taskID runID)
  | .completeRun taskID runID status => answerDone (s.completeRun now taskID runID status)
  | .resetRunToQueued taskID runID => answerDone (s.resetRunToQueued now taskID runID)
  | .updateLastStepIndex taskID runID stepIndex =>
    answerDone (s.updateLastStepIndex taskID runID stepIndex)
  | .putStep step => answerDone (s.putStep step)
  | .getTask taskID => ((s.getTask taskID).map .task, s)
  | .getRun taskID runID => ((s.getRun taskID runID).map .run, s)
  | .getStep runID stepIndex => ((s.getStep runID stepIndex).map .step, s)
  | .getTaskByIdempotencyKey tenantID idempotencyKey =>
    ((s.getTaskByIdempotencyKey tenantID idempotencyKey).map .task, s)

def DynamoStore.answer (d : DynamoStore V F) (db : S.State) (now : Time) :
    LifecycleCall F → Except StoreError (LifecycleAnswer F) × S.State
  | .applyCreateTransition task run => answerDone (d.applyCreateTransition db now task run)
  | .updateTaskStatus taskID fromStatuses toStatus =>
    answerDone (d.updateTaskStatus db now taskID fromStatuses toStatus)
  | .updateTaskStatusForRun taskID runID fromStatuses toStatus =>
    answerDone (d.updateTaskStatusForRun db now taskID runID fromStatuses toStatus)
  | .applyResumeTransition taskID run fromStatuses toStatus =>
    answerDone (d.applyResumeTransition db now taskID run fromStatuses toStatus)
  | .setAbortRequested taskID reason => answerDone (d.setAbortRequested db now taskID reason)
  | .claimRun taskID runID => answerDone (d.claimRun db now taskID runID)
  | .completeRun taskID runID status => answerDone (d.completeRun db now taskID runID status)
  | .resetRunToQueued taskID runID => answerDone (d.resetRunToQueued db now taskID runID)
  | .updateLastStepIndex taskID runID stepIndex =>
    answerDone (d.updateLastStepIndex db taskID runID stepIndex)
  | .putStep step => answerDone (d.putStep db step)
  | .getTask taskID => ((d.getTask db taskID).map .task, db)
  | .getRun taskID runID => ((d.getRun db taskID runID).map .run, db)
  | .getStep runID stepIndex => ((d.getStep db runID stepIndex).map .step, db)
  | .getTaskByIdempotencyKey tenantID idempotencyKey =>
    ((d.getTaskByIdempotencyKey db tenantID idempotencyKey).map .task, db)

/-- The answers to a sequence of calls, each with what the clock reads. -/
def MemoryStore.answers (s : MemoryStore F) :
    List (LifecycleCall F × Time) → List (Except StoreError (LifecycleAnswer F))
  | [] => []
  | (call, now) :: calls => (s.answer now call).1 :: (s.answer now call).2.answers calls

def DynamoStore.answers (d : DynamoStore V F) (db : S.State) :
    List (LifecycleCall F × Time) → List (Except StoreError (LifecycleAnswer F))
  | [] => []
  | (call, now) :: calls => (d.answer db now call).1 :: d.answers (d.answer db now call).2 calls

omit [Float64 F] in
/-- Records that are alike up to the clocks are answered alike. -/
theorem read_agree (wrap : α → LifecycleAnswer F) {unclock : α → α}
    (commutes : ∀ record, (wrap record).unclocked = wrap (unclock record))
    {dynamo memory : Except StoreError α} (same : dynamo.map unclock = memory.map unclock) :
    (dynamo.map wrap).map LifecycleAnswer.unclocked =
      (memory.map wrap).map LifecycleAnswer.unclocked := by
  cases dynamo with
  | error e =>
    cases memory with
    | error e' => simpa [Except.map] using same
    | ok record => simp [Except.map] at same
  | ok record =>
    cases memory with
    | error e => simp [Except.map] at same
    | ok record' =>
      have alike : unclock record = unclock record' := by simpa [Except.map] using same
      simp [Except.map, commutes, alike]

/-- One call is answered alike, and the stores stay related. -/
theorem answer_agree (now now' : Time) (sim : Simulates d (S.items db) s) {call : LifecycleCall F}
    (valid : call.Valid) :
    (d.answer db now call).1.map LifecycleAnswer.unclocked =
        (s.answer now' call).1.map LifecycleAnswer.unclocked ∧
      Simulates d (S.items (d.answer db now call).2) (s.answer now' call).2 := by
  have changed : ∀ {dynamo : Except StoreError Unit × S.State}
      {memory : Except StoreError Unit × MemoryStore F}, Agree d dynamo memory →
      (answerDone (F := F) dynamo).1.map LifecycleAnswer.unclocked =
          (answerDone (F := F) memory).1.map LifecycleAnswer.unclocked ∧
        Simulates d (S.items (answerDone (F := F) dynamo).2) (answerDone (F := F) memory).2 :=
    fun agree => ⟨by rw [answerDone, answerDone, agree.answer], agree.related⟩
  cases call with
  | applyCreateTransition task run =>
    exact changed (agree_applyCreateTransition sim valid.2.1.2 valid.2.2.2)
  | updateTaskStatus taskID fromStatuses toStatus =>
    exact changed (agree_updateTaskStatus sim valid.2 toStatus)
  | updateTaskStatusForRun taskID runID fromStatuses toStatus =>
    exact changed (agree_updateTaskStatusForRun sim valid.2.2 toStatus)
  | applyResumeTransition taskID run fromStatuses toStatus =>
    exact changed (agree_applyResumeTransition sim valid.2.1.2 valid.2.2.1.2 valid.2.2.2 toStatus)
  | setAbortRequested taskID reason => exact changed (agree_setAbortRequested sim reason)
  | claimRun taskID runID => exact changed (agree_claimRun sim valid.1.2 valid.2.2)
  | completeRun taskID runID status =>
    exact changed (agree_completeRun sim valid.1.2 valid.2.2 status)
  | resetRunToQueued taskID runID =>
    exact changed (agree_resetRunToQueued sim valid.1.2 valid.2.2)
  | updateLastStepIndex taskID runID stepIndex =>
    exact changed (agree_updateLastStepIndex sim valid.1.2 valid.2.2 stepIndex)
  | putStep step => exact changed (agree_putStep sim valid.2 valid.1)
  | getTask taskID =>
    exact ⟨read_agree .task (fun _ => rfl) (getTask_agree sim valid.1), sim⟩
  | getRun taskID runID =>
    exact ⟨read_agree .run (fun _ => rfl) (getRun_agree sim valid.1.2 valid.2.2), sim⟩
  | getStep runID stepIndex =>
    have same := getStep_agree sim valid.2 stepIndex
    exact ⟨read_agree .step (fun _ => rfl) (congrArg (Except.map id) same), sim⟩
  | getTaskByIdempotencyKey tenantID idempotencyKey =>
    exact ⟨read_agree .task (fun _ => rfl) (getTaskByIdempotencyKey_agree sim valid.1 valid.2), sim⟩

/-- So is a sequence of calls, from stores that are related. -/
theorem answers_agree (calls : List (LifecycleCall F × Time × Time))
    (valid : ∀ entry ∈ calls, entry.1.Valid) :
    ∀ {db : S.State} {s : MemoryStore F}, Simulates d (S.items db) s →
      (d.answers db (calls.map fun entry => (entry.1, entry.2.1))).map
          (Except.map LifecycleAnswer.unclocked) =
        (s.answers (calls.map fun entry => (entry.1, entry.2.2))).map
          (Except.map LifecycleAnswer.unclocked) := by
  induction calls with
  | nil => exact fun _ => rfl
  | cons entry calls ih =>
    intro db s sim
    obtain ⟨same, related⟩ := answer_agree entry.2.1 entry.2.2 sim
      (valid entry List.mem_cons_self)
    have rest := ih (fun later member => valid later (List.mem_cons_of_mem _ member)) related
    simp only [List.map_cons, DynamoStore.answers, MemoryStore.answers, same, rest]

/-- **Simulation.** Whatever service keeps the laws, told the same calls from empty
tables on, each with a clock of its own, the two stores give the same answers up to what they read from their clocks and to
a usage that is nil in one and zero in the other: the same errors, and the same
tasks, runs and steps. -/
theorem dynamoStore_simulates_memoryStore (S : Service V tableSchema) (db : S.State)
    (empty : S.items db = ∅) (d : DynamoStore V F) (eventRetention : Int)
    (calls : List (LifecycleCall F × Time × Time)) (valid : ∀ entry ∈ calls, entry.1.Valid) :
    (d.answers db (calls.map fun entry => (entry.1, entry.2.1))).map
        (Except.map LifecycleAnswer.unclocked) =
      (({ eventRetention } : MemoryStore F).answers
        (calls.map fun entry => (entry.1, entry.2.2))).map
        (Except.map LifecycleAnswer.unclocked) :=
  answers_agree calls valid (empty ▸ Simulates.empty eventRetention)

/-- Attribute values that remember what they were made from. -/
inductive Tagged where
  | string (value : String)
  | bool (value : Bool)
  | int (value : Int)
  | float (value : Rat)
  | time (value : Time)
  | config (value : ModelConfig Rat)
  | usage (value : TokenUsage)
  | checkpoint (value : CheckpointRef)
  | other
  deriving DecidableEq

def taggedMarshalling : Marshalling Tagged Rat where
  string := .string
  bool := .bool
  int := .int
  float := .float
  time := .time
  map
    | [("input", .int input), ("output", .int output), ("total", .int total)] =>
      .usage ⟨.ofInt input, .ofInt output, .ofInt total⟩
    | _ => .other
  config := .config
  usage := .usage
  checkpoint := .checkpoint
  readString | .string value => some value | _ => none
  readBool | .bool value => some value | _ => none
  readInt | .int value => some value | _ => none
  readFloat | .float value => some value | _ => none
  readTime | .time value => some value | _ => none
  readConfig | .config value => some value | _ => none
  readUsage | .usage value => some value | _ => none
  readCheckpoint | .checkpoint value => some value | _ => none
  readString_string _ := rfl
  readBool_bool _ := rfl
  readInt_int _ := rfl
  readFloat_float _ := rfl
  readTime_time _ := rfl
  readConfig_config _ := rfl
  readUsage_usage _ := rfl
  readCheckpoint_checkpoint _ := rfl
  readUsage_map value := by simp

/-- A task is created and its run claimed, then claimed again, and both are read. -/
def claimedTwice : List (LifecycleCall Rat × Time × Time) :=
  let task : Task Rat := ⟨"task", "tenant", "user", .queued, "run", false, "", none, "key",
    "prompt", none, 5, 5⟩
  let run : Run Rat :=
    { taskID := "task", runID := "run", tenantID := "tenant", status := .queued, totalCostUSD := 0 }
  [(.applyCreateTransition task run, 10, 20), (.applyCreateTransition task run, 11, 21),
   (.claimRun "task" "run", 12, 22), (.claimRun "task" "run", 13, 23),
   (.updateTaskStatus "task" [.queued] .running, 14, 24), (.getRun "task" "run", 15, 25),
   (.getTaskByIdempotencyKey "tenant" "key", 16, 26)]

theorem dynamoStore_simulates_claimedTwice :
    (∀ entry ∈ claimedTwice, entry.1.Valid) ∧
      ((⟨"tasks", "runs", "steps", taggedMarshalling, fun _ => ""⟩ :
          DynamoStore Tagged Rat).answers (S := Database.service)
          (∅ : Database Tagged tableSchema) (claimedTwice.map fun entry => (entry.1, entry.2.1))).map
          (Except.map LifecycleAnswer.unclocked) =
        (({ eventRetention := 0 } : MemoryStore Rat).answers
          (claimedTwice.map fun entry => (entry.1, entry.2.2))).map
          (Except.map LifecycleAnswer.unclocked) := by
  have valid : ∀ entry ∈ claimedTwice, entry.1.Valid := by
    simp [claimedTwice, LifecycleCall.Valid, PlainID]
  exact ⟨valid, dynamoStore_simulates_memoryStore _ _ rfl _ 0 claimedTwice valid⟩

end AgentForge
