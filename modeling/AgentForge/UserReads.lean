import AgentForge.StoreStreams
import AgentForge.TaskService

/-! The reads of `pkg/task/service.go` that check the user: `GetForUser`, `GetRunForUser`,
`ListStepsForUser` and `ReplayEventsForUser`. Each loads the task first and refuses what is
not the caller's own. What it then reads is keyed by joined ids, or by the run alone, so
that the caller reads nothing but their own is a fact about the keys. -/
namespace AgentForge

open MapListings (mem_listing nodup_names)

variable {F : Type}

/-! ## The reads -/

/-- What the caller gets to see of a task that was loaded. -/
def accessible (tenantID userID : String) : Except StoreError (Task F) → Except StoreError (Task F)
  | .error e => .error e
  | .ok taskObj =>
    if !hasTaskAccess taskObj tenantID userID then .error .notFound else .ok taskObj

section Reads

variable (s : MemoryStore F) (tenantID userID taskID runID : String)

def getForUser : Except StoreError (Task F) := accessible tenantID userID (s.getTask taskID)

def getRunForUser : Except StoreError (Run F) :=
  match accessible tenantID userID (s.getTask taskID) with
  | .error e => .error e
  | .ok _ => match s.getRun taskID runID with
    | .error _ => .error .notFound
    | .ok run => .ok run

def replayEventsForUser (fromSeq fromTS limit : Int) : Except StoreError (List (StreamEvent F)) :=
  match accessible tenantID userID (s.getTask taskID) with
  | .error e => .error e
  | .ok _ => match s.getRun taskID runID with
    | .error _ => .error .notFound
    | .ok _ => .ok (s.replayEvents taskID runID fromSeq fromTS limit)

def listStepsForUser (start limit : Int) : Except StoreError (List Step) :=
  match accessible tenantID userID (s.getTask taskID) with
  | .error e => .error e
  | .ok _ => match s.getRun taskID runID with
    | .error _ => .error .notFound
    | .ok _ => .ok (s.listSteps runID start limit)

end Reads

/-! ## What belongs to a user -/

section Ownership

variable {s s' : MemoryStore F} {tenantID userID taskID runID : String}

/-- The task is in the store and belongs to the user. -/
def MemoryStore.Owns (s : MemoryStore F) (tenantID userID taskID : String) : Prop :=
  ∃ task, s.tasks.lookup taskID = some task ∧ task.tenantID = tenantID ∧ task.userID = userID

/-- The run is one of a task that belongs to the user. -/
def MemoryStore.OwnsRun (s : MemoryStore F) (tenantID userID runID : String) : Prop :=
  ∃ k run, s.runs.lookup k = some run ∧ run.runID = runID ∧ s.Owns tenantID userID run.taskID

/-- Two stores have the same tasks of the user, and the same runs, steps and events of
these tasks. -/
structure MemoryStore.AgreeFor (s s' : MemoryStore F) (tenantID userID : String) : Prop where
  task : ∀ t task, task.tenantID = tenantID → task.userID = userID →
    (s.tasks.lookup t = some task ↔ s'.tasks.lookup t = some task)
  run : ∀ k run, s.Owns tenantID userID run.taskID →
    (s.runs.lookup k = some run ↔ s'.runs.lookup k = some run)
  step : ∀ k step, s.OwnsRun tenantID userID step.runID →
    (s.steps.lookup k = some step ↔ s'.steps.lookup k = some step)
  events : ∀ taskID runID, s.Owns tenantID userID taskID →
    s.storedEvents taskID runID = s'.storedEvents taskID runID

/-- The ids of tasks and runs are plain. -/
structure MemoryStore.PlainIDs (s : MemoryStore F) : Prop where
  task : ∀ t task, s.tasks.lookup t = some task → PlainID task.taskID
  run : ∀ k run, s.runs.lookup k = some run → PlainID run.taskID ∧ PlainID run.runID

/-! ## Each read in its own words -/

theorem owner_of_access (access : hasTaskAccess task tenantID userID = true) :
    task.tenantID = tenantID ∧ task.userID = userID := by
  simp only [hasTaskAccess, hasTaskTenantAccess, Bool.and_eq_true, decide_eq_true_eq] at access
  exact ⟨access.1.1.1, access.2⟩

/-- A user is shown the tasks they have access to, and no other is found. -/
theorem getForUser_cases (s : MemoryStore F) (tenantID userID taskID : String) :
    (∃ task, s.tasks.lookup taskID = some task ∧ hasTaskAccess task tenantID userID = true ∧
      getForUser s tenantID userID taskID = .ok task) ∨
    (∀ task, s.tasks.lookup taskID = some task → hasTaskAccess task tenantID userID = false) ∧
      getForUser s tenantID userID taskID = .error .notFound := by
  unfold getForUser accessible MemoryStore.getTask
  cases found : s.tasks.lookup taskID with
  | none => exact .inr ⟨nofun, rfl⟩
  | some task =>
    cases access : hasTaskAccess task tenantID userID with
    | true => exact .inl ⟨task, rfl, access, by simp [access]⟩
    | false =>
      refine .inr ⟨?_, by simp [access]⟩
      rintro _ ⟨⟩
      exact access

/-- What a read of a run answers: the run is one of a task the user has access to, or it
is not found. -/
theorem getRunForUser_cases (s : MemoryStore F) (tenantID userID taskID runID : String) :
    (∃ task run, s.tasks.lookup taskID = some task ∧ hasTaskAccess task tenantID userID = true ∧
      s.runs.lookup (runKey taskID runID) = some run ∧
      getRunForUser s tenantID userID taskID runID = .ok run) ∨
    getRunForUser s tenantID userID taskID runID = .error .notFound := by
  rcases getForUser_cases s tenantID userID taskID with ⟨task, found, access, shown⟩ | ⟨-, refused⟩
  · unfold getForUser at shown
    unfold getRunForUser MemoryStore.getRun
    rw [shown]
    cases there : s.runs.lookup (runKey taskID runID) with
    | none => exact .inr rfl
    | some run => exact .inl ⟨task, run, found, access, rfl, rfl⟩
  · unfold getForUser at refused
    unfold getRunForUser
    rw [refused]
    exact .inr rfl

/-- The other two reads look up the run first. -/
theorem replayEventsForUser_eq (fromSeq fromTS limit : Int) :
    replayEventsForUser s tenantID userID taskID runID fromSeq fromTS limit =
      (getRunForUser s tenantID userID taskID runID).map fun _ =>
        s.replayEvents taskID runID fromSeq fromTS limit := by
  unfold replayEventsForUser getRunForUser
  cases accessible tenantID userID (s.getTask taskID) with
  | error e => rfl
  | ok task => cases s.getRun taskID runID <;> rfl

private theorem listStepsForUser_eq (start limit : Int) :
    listStepsForUser s tenantID userID taskID runID start limit =
      (getRunForUser s tenantID userID taskID runID).map fun _ => s.listSteps runID start limit := by
  unfold listStepsForUser getRunForUser
  cases accessible tenantID userID (s.getTask taskID) with
  | error e => rfl
  | ok task => cases s.getRun taskID runID <;> rfl

/-- With a task to go by, a replay reads the events of that run alone. -/
theorem replayEvents_congr (named : taskID ≠ "")
    (same : s.storedEvents taskID runID = s'.storedEvents taskID runID)
    (fromSeq fromTS limit : Int) :
    s.replayEvents taskID runID fromSeq fromTS limit =
      s'.replayEvents taskID runID fromSeq fromTS limit := by
  unfold MemoryStore.storedEvents at same
  unfold MemoryStore.replayEvents
  simp only [named, and_false, if_false, same]

/-! ## The steps of a run -/

/-- The steps a listing chooses from. -/
def MemoryStore.stepsFrom (s : MemoryStore F) (runID : String) (start : Int) : List Step :=
  (s.steps.entries.map Sigma.snd).filter fun st => st.runID = runID && start ≤ st.stepIndex

theorem mem_stepsFrom : step ∈ s.stepsFrom runID start ↔
    (∃ k, s.steps.lookup k = some step) ∧ step.runID = runID ∧ start ≤ step.stepIndex := by
  refine mem_listing.trans (and_congr_right fun _ => ?_)
  rw [Bool.and_eq_true, decide_eq_true_eq, decide_eq_true_eq]

theorem stepsFrom_nodup (filed : s.Filed) (start : Int) : (s.stepsFrom runID start).Nodup :=
  ((nodup_names filed.step).of_map _).filter _

/-- Steps of one run at one place are one step. -/
theorem MemoryStore.Filed.step_unique {step step' : Step} (filed : s.Filed)
    (found : s.steps.lookup k = some step) (found' : s.steps.lookup k' = some step')
    (run : step.runID = step'.runID) (index : step.stepIndex = step'.stepIndex) : step = step' := by
  have key := filed.step k step found
  rw [run, index, filed.step k' step' found'] at key
  rw [key, found, Option.some.injEq] at found'
  exact found'

/-- The listing of a run's steps depends on these steps alone, not on where the map has
them. -/
theorem listSteps_congr (filed : s.Filed) (filed' : s'.Filed) (same : ∀ k step, step.runID = runID →
      (s.steps.lookup k = some step ↔ s'.steps.lookup k = some step)) (start limit : Int) :
    s.listSteps runID start limit = s'.listSteps runID start limit := by
  have total : Std.Total fun a b : Step => a.stepIndex ≤ b.stepIndex :=
    ⟨fun a b => Int.le_total a.stepIndex b.stepIndex⟩
  have trans : IsTrans Step fun a b => a.stepIndex ≤ b.stepIndex :=
    ⟨fun _ _ _ first second => Int.le_trans first second⟩
  have perm : (s.stepsFrom runID start).Perm (s'.stepsFrom runID start) := by
    refine (List.perm_ext_iff_of_nodup (stepsFrom_nodup filed start)
      (stepsFrom_nodup filed' start)).mpr fun step => ?_
    rw [mem_stepsFrom, mem_stepsFrom]
    refine and_congr_left fun kept => exists_congr fun k => same k step kept.1
  have sorted : (s.stepsFrom runID start).insertionSort (fun a b => a.stepIndex ≤ b.stepIndex) =
      (s'.stepsFrom runID start).insertionSort fun a b => a.stepIndex ≤ b.stepIndex := by
    refine List.Perm.eq_of_pairwise (fun a b inside inside' before after => ?_)
      (List.pairwise_insertionSort ..) (List.pairwise_insertionSort ..)
      ((List.perm_insertionSort ..).trans (perm.trans (List.perm_insertionSort ..).symm))
    obtain ⟨⟨k, found⟩, run, -⟩ := mem_stepsFrom.mp ((List.mem_insertionSort _).mp inside)
    obtain ⟨⟨k', found'⟩, run', -⟩ := mem_stepsFrom.mp ((List.mem_insertionSort _).mp inside')
    exact filed.step_unique found ((same k' b run').mpr found') (run.trans run'.symm)
      (Int.le_antisymm before after)
  change MemoryStore.capped limit _ = MemoryStore.capped limit _
  exact congrArg (MemoryStore.capped limit) sorted

/-! ## Two stores that agree -/

private theorem MemoryStore.AgreeFor.symm (agree : s.AgreeFor s' tenantID userID) :
    s'.AgreeFor s tenantID userID := by
  have back : ∀ {taskID}, s'.Owns tenantID userID taskID → s.Owns tenantID userID taskID := by
    rintro taskID ⟨task, found, tenant, user⟩
    exact ⟨task, (agree.task taskID task tenant user).mpr found, tenant, user⟩
  refine ⟨fun t task tenant user => (agree.task t task tenant user).symm,
    fun k run owns => (agree.run k run (back owns)).symm, fun k step owns => ?_,
    fun taskID runID owns => (agree.events taskID runID (back owns)).symm⟩
  obtain ⟨k', run, found, named, owned⟩ := owns
  exact (agree.step k step
    ⟨k', run, (agree.run k' run (back owned)).mpr found, named, back owned⟩).symm

/-- What the user is shown in one store they are shown in the other. -/
theorem MemoryStore.AgreeFor.getForUser (agree : s.AgreeFor s' tenantID userID) (taskID : String) :
    getForUser s tenantID userID taskID = AgentForge.getForUser s' tenantID userID taskID := by
  rcases getForUser_cases s tenantID userID taskID with ⟨task, found, access, shown⟩ | ⟨none, refused⟩
  · have ⟨tenant, user⟩ := owner_of_access access
    have found' := (agree.task taskID task tenant user).mp found
    rcases getForUser_cases s' tenantID userID taskID with ⟨task', there, -, shown'⟩ | ⟨none', -⟩
    · rw [found', Option.some.injEq] at there
      rw [shown, shown', there]
    · rw [none' task found'] at access
      cases access
  · rcases getForUser_cases s' tenantID userID taskID with ⟨task', there, access, -⟩ | ⟨-, refused'⟩
    · have ⟨tenant, user⟩ := owner_of_access access
      rw [none task' ((agree.task taskID task' tenant user).mpr there)] at access
      cases access
    · rw [refused, refused']

/-- The run the user is shown is one of the task they named. -/
theorem run_of_getRunForUser (keyed : s.Keyed) (plain : s.PlainIDs)
    (shown : getRunForUser s tenantID userID taskID runID = .ok run) :
    s.Owns tenantID userID taskID ∧ taskID ≠ "" ∧ s.runs.lookup (runKey taskID runID) = some run ∧
      run.taskID = taskID ∧ run.runID = runID := by
  rcases getRunForUser_cases s tenantID userID taskID runID with
    ⟨task, run', found, access, there, answer⟩ | refused
  · obtain rfl : run' = run := by
      rw [answer] at shown
      cases shown
      rfl
    have ⟨tenant, user⟩ := owner_of_access access
    have ⟨taskPlain, runPlain⟩ := plain.run _ run' there
    have ⟨sameTask, sameRun⟩ := runKey_unique taskPlain.2 runPlain.2 (keyed.run _ run' there)
    have named : taskID ≠ "" := sameTask ▸ taskPlain.1
    exact ⟨⟨task, found, tenant, user⟩, named, there, sameTask, sameRun⟩
  · rw [refused] at shown
    cases shown

private theorem MemoryStore.AgreeFor.shows_run {run : Run F} (agree : s.AgreeFor s' tenantID userID)
    (keyed : s.Keyed) (plain : s.PlainIDs)
    (shown : getRunForUser s tenantID userID taskID runID = .ok run) :
    getRunForUser s' tenantID userID taskID runID = .ok run := by
  obtain ⟨owns, -, there, task, -⟩ := run_of_getRunForUser keyed plain shown
  have there' := (agree.run _ run (task ▸ owns)).mp there
  have same := agree.getForUser taskID
  unfold AgentForge.getForUser at same
  unfold getRunForUser at shown ⊢
  rw [← same]
  cases access : accessible tenantID userID (s.getTask taskID) with
  | error e =>
    rw [access] at shown
    cases shown
  | ok task => simp only [getRun_eq_ok.mpr there']

private theorem MemoryStore.AgreeFor.getRunForUser (agree : s.AgreeFor s' tenantID userID)
    (keyed : s.Keyed) (keyed' : s'.Keyed) (plain : s.PlainIDs) (plain' : s'.PlainIDs)
    (taskID runID : String) :
    getRunForUser s tenantID userID taskID runID =
      AgentForge.getRunForUser s' tenantID userID taskID runID := by
  rcases getRunForUser_cases s tenantID userID taskID runID with
    ⟨_, run, -, -, -, shown⟩ | refused
  · rw [shown, agree.shows_run keyed plain shown]
  · rcases getRunForUser_cases s' tenantID userID taskID runID with
      ⟨_, run, -, -, -, shown⟩ | refused'
    · rw [shown, agree.symm.shows_run keyed' plain' shown]
    · rw [refused, refused']

/-- Of a task that is not the user's, every read says that it is not found. -/
theorem foreign_notFound (foreign : ¬ s.Owns tenantID userID taskID) :
    AgentForge.getForUser s tenantID userID taskID = .error .notFound ∧
      ∀ runID, AgentForge.getRunForUser s tenantID userID taskID runID = .error .notFound := by
  constructor
  · rcases getForUser_cases s tenantID userID taskID with ⟨task, found, access, -⟩ | ⟨-, refused⟩
    · exact absurd ⟨task, found, owner_of_access access⟩ foreign
    · exact refused
  · intro runID
    rcases getRunForUser_cases s tenantID userID taskID runID with
      ⟨task, run, found, access, -, -⟩ | refused
    · exact absurd ⟨task, found, owner_of_access access⟩ foreign
    · exact refused

/-- **Reads leak nothing across users.** In two states of a store with the same tasks of a
user and the same runs, steps and events of these tasks, every read the user makes has the
same answer, be it a result or an error. A task of someone else is not found, as one that is
not there. -/
theorem reads_leak_nothing [Float64 F] (reached : s.Reached) (reached' : s'.Reached)
    (plain : s.PlainIDs) (plain' : s'.PlainIDs) (agree : s.AgreeFor s' tenantID userID)
    (taskID runID : String) :
    getForUser s tenantID userID taskID = getForUser s' tenantID userID taskID ∧
    getRunForUser s tenantID userID taskID runID = getRunForUser s' tenantID userID taskID runID ∧
    (∀ start limit, listStepsForUser s tenantID userID taskID runID start limit =
      listStepsForUser s' tenantID userID taskID runID start limit) ∧
    (∀ fromSeq fromTS limit,
      replayEventsForUser s tenantID userID taskID runID fromSeq fromTS limit =
        replayEventsForUser s' tenantID userID taskID runID fromSeq fromTS limit) ∧
    (¬ s.Owns tenantID userID taskID →
      getForUser s tenantID userID taskID = .error .notFound ∧
      getRunForUser s tenantID userID taskID runID = .error .notFound ∧
      (∀ start limit, listStepsForUser s tenantID userID taskID runID start limit =
        .error .notFound) ∧
      ∀ fromSeq fromTS limit, replayEventsForUser s tenantID userID taskID runID fromSeq fromTS
        limit = .error .notFound) := by
  have runs := agree.getRunForUser reached.keyed reached'.keyed plain plain' taskID runID
  refine ⟨agree.getForUser taskID, runs, fun start limit => ?_, fun fromSeq fromTS limit => ?_, ?_⟩
  · rw [listStepsForUser_eq, listStepsForUser_eq, ← runs]
    cases shown : getRunForUser s tenantID userID taskID runID with
    | error e => rfl
    | ok run =>
      obtain ⟨owns, -, there, task, named⟩ := run_of_getRunForUser reached.keyed plain shown
      have owned : s.OwnsRun tenantID userID runID := ⟨_, run, there, named, task ▸ owns⟩
      have same := listSteps_congr reached.filed reached'.filed
        (fun k step ofRun => agree.step k step (ofRun ▸ owned)) start limit
      exact congrArg Except.ok same
  · rw [replayEventsForUser_eq, replayEventsForUser_eq, ← runs]
    cases shown : getRunForUser s tenantID userID taskID runID with
    | error e => rfl
    | ok run =>
      obtain ⟨owns, named, -⟩ := run_of_getRunForUser reached.keyed plain shown
      exact congrArg Except.ok
        (replayEvents_congr named (agree.events taskID runID owns) fromSeq fromTS limit)
  · intro foreign
    obtain ⟨noTask, noRun⟩ := foreign_notFound foreign
    refine ⟨noTask, noRun runID, fun start limit => ?_, fun fromSeq fromTS limit => ?_⟩
    · rw [listStepsForUser_eq, noRun runID]
      rfl
    · rw [replayEventsForUser_eq, noRun runID]
      rfl

/-! ## A task of another tenant -/

variable {task : Task F} {run : Run F} {now : Time}

/-- A task that another tenant creates changes nothing for a user. -/
theorem agreeFor_create (s : MemoryStore F) (userID : String) (foreign : task.tenantID ≠ tenantID) :
    s.AgreeFor (s.applyCreateTransition now task run).2 tenantID userID := by
  rcases applyCreateTransition_cases s now task run with ⟨e, result⟩ | ⟨owner, newTask, newRun, -, result⟩
  · rw [result]
    exact ⟨fun _ _ _ _ => .rfl, fun _ _ _ => .rfl, fun _ _ _ => .rfl, fun _ _ _ => rfl⟩
  rw [result]
  refine ⟨fun t own tenant _ => ?_, fun k own owns => ?_, fun _ _ _ => .rfl, fun _ _ _ => rfl⟩
  · by_cases here : t = task.taskID
    · subst here
      rw [newTask, AList.lookup_insert]
      refine iff_of_false nofun fun same => foreign ?_
      rw [Option.some.inj same]
      exact tenant
    · rw [AList.lookup_insert_ne here]
  · by_cases here : k = runKey run.taskID run.runID
    · subst here
      rw [newRun, AList.lookup_insert]
      refine iff_of_false nofun fun same => ?_
      obtain ⟨mine, found, -⟩ := owns
      rw [← Option.some.inj same, ensureQueuedAt_taskID, owner, newTask] at found
      cases found
    · rw [AList.lookup_insert_ne here]

private theorem MemoryStore.PlainIDs.create (plain : s.PlainIDs) (taskPlain : PlainID task.taskID)
    (runPlain : PlainID run.runID) : (s.applyCreateTransition now task run).2.PlainIDs := by
  rcases applyCreateTransition_cases s now task run with ⟨e, result⟩ | ⟨owner, -, -, -, result⟩
  · rw [result]
    exact plain
  rw [result]
  refine ⟨fun t other found => ?_, fun k other found => ?_⟩
  · by_cases here : t = task.taskID
    · subst here
      rw [AList.lookup_insert, Option.some.injEq] at found
      exact found ▸ taskPlain
    · exact plain.task t other (by rwa [AList.lookup_insert_ne here] at found)
  · by_cases here : k = runKey run.taskID run.runID
    · subst here
      rw [AList.lookup_insert, Option.some.injEq] at found
      rw [← found, ensureQueuedAt_taskID, ensureQueuedAt_runID, owner]
      exact ⟨taskPlain, runPlain⟩
    · exact plain.run k other (by rwa [AList.lookup_insert_ne here] at found)

end Ownership

/-! A user with a task of their own, and a store with one more task, of another tenant. -/

def ownTask : Task Rat := createdTask ⟨"a", "u", "hello", none, ""⟩ none 0 "t1" "r1"

def ownRun : Run Rat := createdRun ⟨"a", "u", "hello", none, ""⟩ none 0 "t1" "r1"

def foreignTask : Task Rat := createdTask ⟨"b", "u", "hello", none, ""⟩ none 0 "t2" "r2"

def foreignRun : Run Rat := createdRun ⟨"b", "u", "hello", none, ""⟩ none 0 "t2" "r2"

/-- The store with the user's task alone. -/
def ownStore : MemoryStore Rat := (MemoryStore.applyCreateTransition {} 0 ownTask ownRun).2

/-- The store with both tasks. -/
def sharedStore : MemoryStore Rat :=
  (ownStore.applyCreateTransition 0 foreignTask foreignRun).2

theorem reads_leak_nothing_foreign_task :
    getForUser sharedStore "a" "u" "t2" = getForUser ownStore "a" "u" "t2" ∧
      (sharedStore.getTask "t2").isOk = true ∧ (ownStore.getTask "t2").isOk = false ∧
      getRunForUser ownStore "a" "u" "t1" "r1" = .ok ownRun := by
  have reached : ownStore.Reached := .write (.new _) 0 (.applyCreateTransition ownTask ownRun)
  have reached' : sharedStore.Reached :=
    .write reached 0 (.applyCreateTransition foreignTask foreignRun)
  have plain : ownStore.PlainIDs :=
    MemoryStore.PlainIDs.create ⟨by simp, by simp⟩ ⟨by decide, by decide⟩ ⟨by decide, by decide⟩
  have plain' : sharedStore.PlainIDs := plain.create ⟨by decide, by decide⟩ ⟨by decide, by decide⟩
  have agree : ownStore.AgreeFor sharedStore "a" "u" := agreeFor_create ownStore "u" (by decide)
  have same := reads_leak_nothing reached reached' plain plain' agree "t2" "r2"
  exact ⟨same.1.symm, by decide, by decide, rfl⟩

end AgentForge
