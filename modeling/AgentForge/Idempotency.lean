import AgentForge.Refinement

/-! `Create` with an idempotency key. The lookup and the creating transaction are
two steps, so several requests with one key may all find nothing and all try to
create; the transaction lets one of them through and the others fetch the task it
created. What makes them agree is that an entry of the idempotency map is never
changed or removed. -/
namespace AgentForge

open Transition (Config Event View)
open Transition.Pool (Started started_cons)

/-! ## The idempotency map -/

section Map

variable {F : Type} {w w' : World F} {s : MemoryStore F} {tenantID key taskID : String}

/-- The entry for this tenant and key names this task. -/
def MemoryStore.Names (s : MemoryStore F) (tenantID key taskID : String) : Prop :=
  s.idempotency.lookup (idempKey tenantID key) = some taskID

/-- A task created with a key is the one its entry names. -/
def MemoryStore.Named (s : MemoryStore F) : Prop :=
  ∀ t task, s.tasks.lookup t = some task → task.idempotencyKey ≠ "" →
    s.Names task.tenantID task.idempotencyKey t

/-- What a lookup finds is under the entry. -/
theorem getTaskByIdempotencyKey_eq_ok :
    s.getTaskByIdempotencyKey tenantID key = .ok task ↔
      ∃ t, s.Names tenantID key t ∧ s.tasks.lookup t = some task := by
  unfold MemoryStore.getTaskByIdempotencyKey MemoryStore.Names
  cases entry : s.idempotency.lookup (idempKey tenantID key) with
  | none => simp
  | some t => cases found : s.tasks.lookup t <;> simp [found]

private theorem getTaskByIdempotencyKey_names (keyed : s.Keyed)
    (found : s.getTaskByIdempotencyKey tenantID key = .ok task) :
    s.Names tenantID key task.taskID := by
  obtain ⟨t, names, there⟩ := getTaskByIdempotencyKey_eq_ok.mp found
  rwa [keyed.task t task there]

variable [Float64 F] {sha256 : Bytes → String} {call : Call F} {answer : call.Ans}

/-- An entry stays as it was made. -/
theorem exec_names (ran : w.Exec sha256 call answer w') (names : w.store.Names tenantID key taskID) :
    w'.store.Names tenantID key taskID := by
  unfold MemoryStore.Names at names ⊢
  rcases exec_records ran with same | done
  · rw [same.idempotency, names]
  cases done with
  | @create task run owner newTask newRun newKey =>
    dsimp only
    split
    · rename_i given
      have other : idempKey tenantID key ≠ idempKey task.tenantID task.idempotencyKey := by
        intro same
        rw [same, newKey given] at names
        cases names
      rw [AList.lookup_insert_ne other, names]
    · exact names
  | resume => exact names

private theorem exec_named (named : w.store.Named) (ran : w.Exec sha256 call answer w') :
    w'.store.Named := by
  intro t task' found given
  rcases exec_records ran with same | done
  · obtain ⟨task, was, identity⟩ := same.task_before found
    simp only [Task.identity, Prod.mk.injEq] at identity
    rw [← identity.2.1, ← identity.2.2.1]
    exact exec_names ran (named t task was (identity.2.2.1 ▸ given))
  cases done with
  | @create task =>
    by_cases mine : t = task.taskID
    · subst mine
      rw [AList.lookup_insert, Option.some.injEq] at found
      subst found
      rw [MemoryStore.Names]
      simp [given]
    · rw [AList.lookup_insert_ne mine] at found
      exact exec_names ran (named t task' found given)
  | @resume taskID _ _ _ task _ owner found₁ newRun identity =>
    simp only [Task.identity, Prod.mk.injEq] at identity
    by_cases mine : t = taskID
    · subst mine
      rw [AList.lookup_insert, Option.some.injEq] at found
      subst found
      rw [identity.2.1, identity.2.2.1]
      exact exec_names ran (named t task found₁ (identity.2.2.1 ▸ given))
    · rw [AList.lookup_insert_ne mine] at found
      exact exec_names ran (named t task' found given)

end Map

/-! ## A request and its key -/

section Request

variable {F : Type} [Float64 F] {senv : ServiceEnv} {w w' : World F} {tenantID key : String}
  {sha256 : Bytes → String} {call : Call F} {answer : call.Ans}

/-- A request with this tenant and key still has them, or holds the id of the task
that their entry names. -/
def CreatePC.Keeps (s : MemoryStore F) (tenantID key : String) : CreatePC F → Prop
  | .lookup req _ | .readClock req _ | .newTaskID req _ _ | .newRunID req _ _ _
  | .apply req _ _ _ _ => req.tenantID = tenantID ∧ req.idempotencyKey = key
  | .fetchWinner tenantID' key' => tenantID' = tenantID ∧ key' = key
  | .loadActiveRun existing | .stamp existing _ => s.Names tenantID key existing.taskID
  | .enqueue response _ | .returned (.ok response) => s.Names tenantID key response.taskID
  | .returned (.error _) => True

private theorem CreatePC.keeps_start (s : MemoryStore F) (req : CreateRequest F) :
    (CreatePC.start senv req).Keeps s req.tenantID req.idempotencyKey := by
  unfold CreatePC.start
  split
  · trivial
  · split <;> exact ⟨rfl, rfl⟩

/-- What others do leaves a request what it has. -/
theorem CreatePC.Keeps.exec {pc : CreatePC F} (keeps : pc.Keeps w.store tenantID key)
    (ran : w.Exec sha256 call answer w') : pc.Keeps w'.store tenantID key := by
  cases pc with
  | loadActiveRun _ | stamp _ _ | enqueue _ _ => exact exec_names ran keeps
  | returned result =>
    cases result with
    | ok response => exact exec_names ran keeps
    | error e => trivial
  | _ => exact keeps

private theorem CreatePC.keeps_enqueueQueued {response : RunResponse} {run : Run F}
    (names : s.Names tenantID key response.taskID) :
    (CreatePC.enqueueQueued senv response task run now).Keeps s tenantID key := by
  unfold CreatePC.enqueueQueued
  split <;> exact names

/-- The transaction that lets a request through makes the entry for its task. -/
theorem applyCreate_names {task : Task F} {answer : Except StoreError Unit}
    (given : task.idempotencyKey ≠ "") (done : answer = .ok ())
    (ran : w.Runs sha256 (.applyCreateTransition task run) answer w') :
    w'.store.Names task.tenantID task.idempotencyKey task.taskID := by
  obtain ⟨read, rfl⟩ := ran
  rcases applyCreateTransition_cases w.store w.clock task run with
    ⟨e, result⟩ | ⟨-, -, -, -, result⟩
  · rw [result, done] at read
    cases read
  · rw [MemoryStore.Names, World.after, result]
    simp [given]

/-- A request's own calls keep its key, and lead to the task the entry names. -/
theorem CreatePC.Keeps.next {pc : CreatePC F} (given : key ≠ "") (keyed : w.store.Keyed)
    (keeps : pc.Keeps w.store tenantID key) (calls : pc.view senv = .call call resume)
    (works : StoreWorks call answer) (ran : w.Exec sha256 call answer w') :
    (resume answer).Keeps w'.store tenantID key := by
  cases pc with
  | lookup req mc =>
    cases calls
    obtain ⟨read, unchanged⟩ := works.runs ran
    subst w'
    obtain ⟨rfl, rfl⟩ := keeps
    cases answer with
    | ok existing =>
      have names := getTaskByIdempotencyKey_names keyed read.symm
      dsimp only
      split <;> exact names
    | error e =>
      cases e with
      | notFound => exact ⟨rfl, rfl⟩
      | _ => trivial
  | loadActiveRun existing =>
    cases calls
    cases answer with
    | ok run => exact exec_names ran keeps
    | error e => trivial
  | stamp existing run =>
    cases calls
    exact keeps_enqueueQueued (exec_names ran keeps)
  | readClock _ _ | newTaskID _ _ _ | newRunID _ _ _ _ =>
    cases calls
    exact keeps
  | apply req mc now taskID runID =>
    cases calls
    obtain ⟨rfl, rfl⟩ := keeps
    cases answer with
    | ok _ => exact keeps_enqueueQueued (applyCreate_names given rfl (works.runs ran))
    | error e =>
      cases e with
      | alreadyExists =>
        simp only [ne_eq, given, not_false_eq_true, if_true]
        exact ⟨rfl, rfl⟩
      | _ => trivial
  | fetchWinner tenantID' key' =>
    cases calls
    obtain ⟨read, unchanged⟩ := works.runs ran
    subst w'
    obtain ⟨rfl, rfl⟩ := keeps
    cases answer with
    | ok existing => exact getTaskByIdempotencyKey_names keyed read.symm
    | error e => trivial
  | enqueue response msg =>
    cases calls
    cases answer with
    | ok _ => exact exec_names ran keeps
    | error message => trivial
  | returned result => cases calls

end Request

/-! ## All requests -/

section Runs

variable {F : Type} [Float64 F] {senv : ServiceEnv} {eenv : EngineEnv F}
  {permits : Thread F → (call : Call F) → call.Ans → Prop} {c : Config (World F) (Thread F)}
  {history : List (Config (World F) (Thread F) × Event (Thread F))}

/-- What the requests of a run rely on: records under their keys, tasks under their
entries, and each request with its own key or the task of it. -/
structure KeyInv (senv : ServiceEnv) (history : List (Config (World F) (Thread F) × Event (Thread F)))
    (c : Config (World F) (Thread F)) : Prop where
  keyed : c.world.store.Keyed
  named : c.world.store.Named
  keeps : ∀ i req, Started history i (.create (.start senv req)) → req.idempotencyKey ≠ "" →
    ∃ pc, c.threads i = some (.create pc) ∧
      pc.Keeps c.world.store req.tenantID req.idempotencyKey

/-- A step of another thread leaves a request where it is. -/
theorem KeyInv.others (inv : KeyInv senv history c) (keyed : w.store.Keyed) (named : w.store.Named)
    (same : ∀ i thread, e ≠ .start i thread)
    (keeps : ∀ i pc tenantID key, key ≠ "" → c.threads i = some (.create pc) →
      pc.Keeps c.world.store tenantID key →
      ∃ pc', threads i = some (.create pc') ∧ pc'.Keeps w.store tenantID key) :
    KeyInv senv ((c, e) :: history) ⟨w, threads⟩ := by
  refine ⟨keyed, named, fun i req started given => ?_⟩
  obtain new | earlier := started_cons.mp started
  · exact absurd new (same _ _)
  · obtain ⟨pc, there, kept⟩ := inv.keeps i req earlier given
    exact keeps i pc _ _ given there kept

theorem path_keyInv (path : (servicePool senv eenv permits).system.Path history c) :
    KeyInv senv history c := by
  induction path with
  | start begun =>
    obtain ⟨⟨store, -⟩, -⟩ := begun
    refine ⟨⟨by simp [store], by simp [store]⟩, by simp [MemoryStore.Named, store], ?_⟩
    rintro i req ⟨before, started⟩
    cases started
  | next before step inv =>
    cases step with
    | @start j thread free begins =>
      refine ⟨inv.keyed, inv.named, fun i req started given => ?_⟩
      obtain new | earlier := started_cons.mp started
      · cases new
        exact ⟨_, Function.update_self .., CreatePC.keeps_start _ req⟩
      · obtain ⟨pc, there, kept⟩ := inv.keeps i req earlier given
        have other : i ≠ j := by
          rintro rfl
          rw [free] at there
          cases there
        exact ⟨pc, (Function.update_of_ne other ..).trans there, kept⟩
    | @tau j thread next there moves =>
      refine inv.others inv.keyed inv.named (by simp) fun i pc tenantID key _ mine kept => ?_
      have other : i ≠ j := by
        rintro rfl
        obtain ⟨msg, task, run, outcome, rfl, -⟩ := Thread.tau_eq moves
        cases mine.symm.trans there
      exact ⟨pc, (Function.update_of_ne other ..).trans mine, kept⟩
    | @call j thread w call resume answer there calls permitted ran =>
      refine inv.others (exec_keyed inv.keyed ran) (exec_named inv.named ran) (by simp)
        fun i pc tenantID key given mine kept => ?_
      by_cases same : i = j
      · subst same
        cases mine.symm.trans there
        obtain ⟨resume', calls', rfl⟩ := View.map_eq_call.mp calls
        exact ⟨_, Function.update_self .., kept.next given inv.keyed calls' permitted.1 ran⟩
      · exact ⟨pc, (Function.update_of_ne same ..).trans mine, kept.exec ran⟩
    | env changed =>
      obtain ⟨clock, rfl⟩ := changed
      exact inv.others inv.keyed inv.named (by simp) fun i pc _ _ _ there kept => ⟨pc, there, kept⟩
    | stop _ dies => exact dies.elim

/-- **`Create` is idempotent.** However the requests, workers and calls of a run
interleave, at most one task was ever created for a tenant and a non-empty key, and
all requests with them that succeeded returned its id. -/
theorem create_is_idempotent (path : (servicePool senv eenv permits).system.Path history c)
    (tenantID key : String) (given : key ≠ "") :
    (∀ t t' task task',
      c.world.store.tasks.lookup t = some task → c.world.store.tasks.lookup t' = some task' →
      task.tenantID = tenantID → task.idempotencyKey = key →
      task'.tenantID = tenantID → task'.idempotencyKey = key → t = t') ∧
    ∀ i j req req' response response',
      Started history i (.create (.start senv req)) →
      Started history j (.create (.start senv req')) →
      req.tenantID = tenantID → req.idempotencyKey = key →
      req'.tenantID = tenantID → req'.idempotencyKey = key →
      c.threads i = some (.create (.returned (.ok response))) →
      c.threads j = some (.create (.returned (.ok response'))) →
      response.taskID = response'.taskID := by
  have inv := path_keyInv path
  constructor
  · rintro t t' task task' found found' rfl rfl tenant' key'
    have names := inv.named t task found given
    have names' := inv.named t' task' found' (key' ▸ given)
    rw [tenant', key'] at names'
    exact Option.some.inj (names.symm.trans names')
  · rintro i j req req' response response' started started' rfl rfl tenant' key' there there'
    obtain ⟨pc, at', kept⟩ := inv.keeps i req started given
    obtain ⟨pc', at'', kept'⟩ := inv.keeps j req' started' (key' ▸ given)
    cases at'.symm.trans there
    cases at''.symm.trans there'
    rw [tenant', key'] at kept'
    exact Option.some.inj (kept.symm.trans kept')

end Runs

def keyedRequest (prompt : String) : CreateRequest Rat :=
  { tenantID := "acme", userID := "ada", prompt := prompt, idempotencyKey := "k" }

/-- Two requests with one key race: both find no entry, the second is refused by the
transaction and fetches the task of the first. -/
theorem create_is_idempotent_racing :
    ∃ history c response response',
      (servicePool plainService plainEngine fun _ _ _ => True).system.Path history c ∧
      Started history 0 (.create (.start plainService (keyedRequest "hello"))) ∧
      Started history 1 (.create (.start plainService (keyedRequest "goodbye"))) ∧
      c.threads 0 = some (.create (.returned (.ok response))) ∧
      c.threads 1 = some (.create (.returned (.ok response'))) ∧
      response.taskID = response'.taskID := by
  have c1 := plainService_starts.next (.start (i := 0) rfl (.create (keyedRequest "hello")))
  have c2 := c1.next (.start (i := 1) rfl (.create (keyedRequest "goodbye")))
  -- both look the key up before either creates anything
  have c3 := (plainService_serves (outsideWorks 0)).path c2 [0, 1, 0, 0, 0, 0] rfl
  have c4 := (plainService_serves (outsideWorks 1)).path c3 [1, 1, 1, 1, 1, 0] rfl
  refine ⟨_, _, _, _, c4, ⟨_, List.mem_of_getElem? (i := 13) rfl⟩,
    ⟨_, List.mem_of_getElem? (i := 12) rfl⟩, rfl, rfl, ?_⟩
  exact (create_is_idempotent c4 "acme" "k" (by decide)).2 0 1 (keyedRequest "hello")
    (keyedRequest "goodbye") _ _ ⟨_, List.mem_of_getElem? (i := 13) rfl⟩
    ⟨_, List.mem_of_getElem? (i := 12) rfl⟩ rfl rfl rfl rfl rfl rfl

end AgentForge
