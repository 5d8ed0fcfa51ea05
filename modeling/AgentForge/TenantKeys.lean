import AgentForge.Idempotency
import AgentForge.Separator

/-! Whose task an idempotency entry leads to. The entries of all tenants are in one map
under `tenant_id#key`, and the task found is not compared with who asks, so a lookup is
about the right task only if nobody else's pair is written the same way. `PutTask` has a
second way to get an entry wrong: it makes the entry before it looks at the task id. -/
namespace AgentForge

open Transition (System Config Event View)
open Transition.Pool (Started started_cons)

/-! ## The key of a pair -/

/-- No other tenant and key, both not empty, are written as this pair is. -/
def PairClear (tenantID key : String) : Prop := Separator.Clear '#' tenantID.toList key.toList

instance {tenantID key : String} : Decidable (PairClear tenantID key) :=
  inferInstanceAs (Decidable (Separator.Clear ..))

private theorem idempKey_toList (tenantID key : String) :
    (idempKey tenantID key).toList = Separator.joined '#' tenantID.toList key.toList := by
  simp [idempKey, Separator.joined]

private theorem toList_ne_nil : s.toList ≠ [] ↔ s ≠ "" := by
  rw [ne_eq, ne_eq, String.toList_eq_nil_iff]

/-- A pair is the only one under its key exactly if it is clear. -/
theorem pairClear_iff (tenant : tenantID ≠ "") (given : key ≠ "") :
    (∀ tenantID' key', tenantID' ≠ "" → key' ≠ "" →
      idempKey tenantID' key' = idempKey tenantID key → tenantID' = tenantID ∧ key' = key) ↔
      PairClear tenantID key := by
  rw [PairClear, ← Separator.unique_iff (toList_ne_nil.mpr tenant) (toList_ne_nil.mpr given)]
  constructor
  · intro unique first second some some' same
    obtain ⟨rfl, rfl⟩ := unique (String.ofList first) (String.ofList second)
      (by rwa [← toList_ne_nil, String.toList_ofList])
      (by rwa [← toList_ne_nil, String.toList_ofList])
      (by
        rw [← String.toList_inj, idempKey_toList, idempKey_toList, String.toList_ofList,
          String.toList_ofList, same])
    rw [String.toList_ofList, String.toList_ofList]
    exact ⟨rfl, rfl⟩
  · intro unique tenantID' key' some some' same
    rw [← String.toList_inj, idempKey_toList, idempKey_toList] at same
    obtain ⟨first, second⟩ := unique _ _ (toList_ne_nil.mpr some) (toList_ne_nil.mpr some') same
    exact ⟨String.toList_inj.mp first, String.toList_inj.mp second⟩

/-! ## The two calls that make entries -/

section Calls

variable {F : Type}

inductive KeyCall (F : Type) where
  | applyCreateTransition (now : Time) (task : Task F) (run : Run F)
  | putTask (task : Task F)

namespace KeyCall

/-- The task of a call. -/
def task : KeyCall F → Task F
  | .applyCreateTransition _ task _ => task
  | .putTask task => task

/-- The store a call leaves. -/
def run (s : MemoryStore F) : KeyCall F → MemoryStore F
  | .applyCreateTransition now task run => (s.applyCreateTransition now task run).2
  | .putTask task => (s.putTask task).2

end KeyCall

/-- The sequences of these calls, with any tenants that are not empty, from an empty
store. -/
def keyCalls (F : Type) : System (MemoryStore F) (KeyCall F) where
  Initial s := s = {}
  Step s call s' := call.task.tenantID ≠ "" ∧ s' = call.run s

/-- A lookup finds only a task of the tenant and with the key it asks for. -/
def MemoryStore.RespectsTenants (s : MemoryStore F) : Prop :=
  ∀ tenantID key task, tenantID ≠ "" → key ≠ "" →
    s.getTaskByIdempotencyKey tenantID key = .ok task →
    task.tenantID = tenantID ∧ task.idempotencyKey = key

/-- A call that makes an entry has a clear pair, and makes the entry for a new task. -/
def KeyCall.EntersOwn (s : MemoryStore F) : KeyCall F → Prop
  | .applyCreateTransition now task run =>
    (s.applyCreateTransition now task run).1 = .ok () → task.idempotencyKey ≠ "" →
      PairClear task.tenantID task.idempotencyKey
  | .putTask task =>
    task.idempotencyKey ≠ "" →
      s.idempotency.lookup (idempKey task.tenantID task.idempotencyKey) = none →
      s.tasks.lookup task.taskID = none ∧ PairClear task.tenantID task.idempotencyKey

/-- Entries lead to tasks, and a task with a key has its entry. -/
structure MemoryStore.Entered (s : MemoryStore F) : Prop where
  leads : ∀ ik t, s.idempotency.lookup ik = some t → ∃ task, s.tasks.lookup t = some task
  named : s.Named

variable {s s' : MemoryStore F} {task : Task F} {ik taskID tenantID key : String}

private theorem MemoryStore.RespectsTenants.congr (respects : s.RespectsTenants)
    (entries : s'.idempotency = s.idempotency)
    (tasks : ∀ ik t, s.idempotency.lookup ik = some t → s'.tasks.lookup t = s.tasks.lookup t) :
    s'.RespectsTenants := by
  intro tenantID key task tenant given found
  obtain ⟨t, names, there⟩ := getTaskByIdempotencyKey_eq_ok.mp found
  rw [MemoryStore.Names, entries] at names
  rw [tasks _ t names] at there
  exact respects tenantID key task tenant given
    (getTaskByIdempotencyKey_eq_ok.mpr ⟨t, names, there⟩)

/-- After a new entry the lookups are right exactly if its task is that of every pair
written like it. -/
theorem respectsTenants_insert (respects : s.RespectsTenants)
    (entry : s'.idempotency = s.idempotency.insert ik taskID)
    (found : s'.tasks.lookup taskID = some task)
    (tasks : ∀ ik t, s.idempotency.lookup ik = some t → s'.tasks.lookup t = s.tasks.lookup t) :
    s'.RespectsTenants ↔ ∀ tenantID key, tenantID ≠ "" → key ≠ "" → idempKey tenantID key = ik →
      task.tenantID = tenantID ∧ task.idempotencyKey = key := by
  constructor
  · intro respects' tenantID key tenant given same
    refine respects' tenantID key task tenant given
      (getTaskByIdempotencyKey_eq_ok.mpr ⟨taskID, ?_, found⟩)
    rw [MemoryStore.Names, entry, same, AList.lookup_insert]
  · intro own tenantID key task' tenant given looked
    obtain ⟨t, names, there⟩ := getTaskByIdempotencyKey_eq_ok.mp looked
    rw [MemoryStore.Names, entry] at names
    by_cases same : idempKey tenantID key = ik
    · rw [same, AList.lookup_insert, Option.some.injEq] at names
      subst names
      cases found.symm.trans there
      exact own tenantID key tenant given same
    · rw [AList.lookup_insert_ne same] at names
      rw [tasks _ t names] at there
      exact respects tenantID key task' tenant given
        (getTaskByIdempotencyKey_eq_ok.mpr ⟨t, names, there⟩)

/-- The entries with that of a task, if it has a key. -/
def enterKey (entries : GoMap String) (task : Task F) : GoMap String :=
  if task.idempotencyKey ≠ "" then
    entries.insert (idempKey task.tenantID task.idempotencyKey) task.taskID
  else entries

private theorem lookup_enterKey :
    (enterKey entries task).lookup ik =
      if task.idempotencyKey ≠ "" ∧ ik = idempKey task.tenantID task.idempotencyKey then
        some task.taskID
      else entries.lookup ik := by
  unfold enterKey
  by_cases given : task.idempotencyKey = ""
  · simp [given]
  · by_cases same : ik = idempKey task.tenantID task.idempotencyKey
    · rw [if_pos given, if_pos ⟨given, same⟩, same, AList.lookup_insert]
    · rw [if_pos given, if_neg fun both => same both.2, AList.lookup_insert_ne same]

/-- The key of the task is not taken. -/
def MemoryStore.KeyFree (s : MemoryStore F) (task : Task F) : Prop :=
  task.idempotencyKey ≠ "" →
    s.idempotency.lookup (idempKey task.tenantID task.idempotencyKey) = none

/-- `PutTask` is refused with nothing changed, refused after it made the entry, or done. -/
theorem putTask_cases (s : MemoryStore F) (task : Task F) :
    (¬ s.KeyFree task ∧ (s.putTask task).2 = s) ∨
    (s.KeyFree task ∧ ∃ t, s.tasks.lookup task.taskID = some t ∧
      (s.putTask task).2 = { s with idempotency := enterKey s.idempotency task }) ∨
    (s.KeyFree task ∧ s.tasks.lookup task.taskID = none ∧
      (s.putTask task).2 = { s with
        idempotency := enterKey s.idempotency task
        tasks := s.tasks.insert task.taskID task }) := by
  unfold MemoryStore.putTask MemoryStore.KeyFree enterKey
  dsimp only
  by_cases given : task.idempotencyKey = ""
  · cases found : s.tasks.lookup task.taskID <;> simp [given, found]
  · cases entry : s.idempotency.lookup (idempKey task.tenantID task.idempotencyKey) with
    | some t => simp [given]
    | none => cases found : s.tasks.lookup task.taskID <;> simp [given, found]

section Entered

variable (entered : s.Entered)

include entered

/-- No entry leads to a task that is only now written. -/
theorem MemoryStore.Entered.others (fresh : s.tasks.lookup taskID = none)
    (ik t : String) (entry : s.idempotency.lookup ik = some t) :
    (s.tasks.insert taskID task).lookup t = s.tasks.lookup t := by
  obtain ⟨task, there⟩ := entered.leads ik t entry
  refine AList.lookup_insert_ne ?_
  rintro rfl
  rw [fresh] at there
  cases there

/-- A free key is entered for a task that is there already. -/
theorem MemoryStore.Entered.claimed (free : s.KeyFree task)
    (there : s.tasks.lookup task.taskID = some t) :
    { s with idempotency := enterKey s.idempotency task }.Entered := by
  constructor
  · intro ik t entry
    rw [lookup_enterKey] at entry
    split_ifs at entry with mine
    · cases entry
      exact ⟨_, there⟩
    · exact entered.leads ik t entry
  · intro t task' found given
    have names := entered.named t task' found given
    rw [MemoryStore.Names] at names ⊢
    rw [lookup_enterKey, if_neg, names]
    rintro ⟨keyed, same⟩
    rw [same, free keyed] at names
    cases names

/-- A free key is entered with its task. -/
theorem MemoryStore.Entered.enter {runs : GoMap (Run F)}
    (free : s.KeyFree task) (fresh : s.tasks.lookup task.taskID = none) :
    { s with
      idempotency := enterKey s.idempotency task
      tasks := s.tasks.insert task.taskID task
      runs := runs }.Entered := by
  constructor
  · intro ik t entry
    rw [lookup_enterKey] at entry
    split_ifs at entry with mine
    · cases entry
      exact ⟨task, AList.lookup_insert ..⟩
    · obtain ⟨task', there⟩ := entered.leads ik t entry
      exact ⟨task', (entered.others fresh ik t entry).trans there⟩
  · intro t task' found given
    rw [MemoryStore.Names, lookup_enterKey]
    by_cases mine : t = task.taskID
    · subst mine
      rw [AList.lookup_insert, Option.some.injEq] at found
      subst found
      rw [if_pos ⟨given, rfl⟩]
    · rw [AList.lookup_insert_ne mine] at found
      have names := entered.named t task' found given
      rw [MemoryStore.Names] at names
      rw [if_neg, names]
      rintro ⟨keyed, same⟩
      rw [same, free keyed] at names
      cases names

/-! ## One call -/

private theorem KeyCall.run_entered (call : KeyCall F) : (call.run s).Entered := by
  cases call with
  | applyCreateTransition now task run =>
    rcases applyCreateTransition_cases s now task run with ⟨e, result⟩ |
      ⟨-, fresh, -, free, result⟩
    · rw [KeyCall.run, result]
      exact entered
    · rw [KeyCall.run, result]
      exact entered.enter free fresh
  | putTask task =>
    rcases putTask_cases s task with ⟨-, result⟩ | ⟨free, t, there, result⟩ | ⟨free, fresh, result⟩
    · rw [KeyCall.run, result]
      exact entered
    · rw [KeyCall.run, result]
      exact entered.claimed free there
    · rw [KeyCall.run, result]
      exact entered.enter free fresh

/-- With the entry of a new task the lookups stay right exactly if its pair is clear. -/
theorem respectsTenants_enter (respects : s.RespectsTenants)
    (tenant : task.tenantID ≠ "") (fresh : s.tasks.lookup task.taskID = none) :
    { s with
      idempotency := enterKey s.idempotency task
      tasks := s.tasks.insert task.taskID task
      runs := runs }.RespectsTenants ↔
      (task.idempotencyKey ≠ "" → PairClear task.tenantID task.idempotencyKey) := by
  by_cases given : task.idempotencyKey = ""
  · refine iff_of_true (respects.congr ?_ fun ik t => entered.others fresh ik t)
      fun keyed => absurd given keyed
    exact if_neg (not_not.mpr given)
  · rw [respectsTenants_insert respects (if_pos given) (AList.lookup_insert ..)
      fun ik t => entered.others fresh ik t, ← pairClear_iff tenant given]
    constructor
    · intro own _ tenantID key some some' same
      exact (own tenantID key some some' same).imp Eq.symm Eq.symm
    · intro unique tenantID key some some' same
      exact (unique given tenantID key some some' same).imp Eq.symm Eq.symm

/-- An entry for a task that is there already is wrong: that task has another pair. -/
theorem not_respectsTenants_claimed (respects : s.RespectsTenants)
    (tenant : task.tenantID ≠ "") (given : task.idempotencyKey ≠ "") (free : s.KeyFree task)
    (there : s.tasks.lookup task.taskID = some t) :
    ¬ { s with idempotency := enterKey s.idempotency task }.RespectsTenants := by
  intro respects'
  have entry : { s with idempotency := enterKey s.idempotency task }.idempotency =
      s.idempotency.insert (idempKey task.tenantID task.idempotencyKey) task.taskID :=
    if_pos given
  obtain ⟨sameTenant, sameKey⟩ := (respectsTenants_insert respects entry there
    fun _ _ _ => rfl).mp respects' _ _ tenant given rfl
  have names := entered.named _ t there (sameKey ▸ given)
  rw [MemoryStore.Names, sameTenant, sameKey, free given] at names
  cases names

private theorem KeyCall.respects_iff (respects : s.RespectsTenants)
    (call : KeyCall F) (tenant : call.task.tenantID ≠ "") :
    (call.run s).RespectsTenants ↔ call.EntersOwn s := by
  cases call with
  | applyCreateTransition now task run =>
    rcases applyCreateTransition_cases s now task run with ⟨e, result⟩ |
      ⟨-, fresh, -, free, result⟩
    · rw [KeyCall.run, KeyCall.EntersOwn, result]
      exact iff_of_true respects nofun
    · rw [KeyCall.run, KeyCall.EntersOwn, result]
      have tenant : task.tenantID ≠ "" := tenant
      refine (respectsTenants_enter entered respects tenant fresh).trans ?_
      exact ⟨fun clear _ => clear, fun own => own rfl⟩
  | putTask task =>
    rcases putTask_cases s task with ⟨taken, result⟩ | ⟨free, t, there, result⟩ |
      ⟨free, fresh, result⟩
    · rw [KeyCall.run, KeyCall.EntersOwn, result]
      exact iff_of_true respects fun given free => absurd (fun _ => free) taken
    · rw [KeyCall.run, KeyCall.EntersOwn, result]
      by_cases given : task.idempotencyKey = ""
      · refine iff_of_true (respects.congr (if_neg (not_not.mpr given)) fun _ _ _ => rfl)
          fun keyed => absurd given keyed
      · refine iff_of_false (not_respectsTenants_claimed entered respects tenant given free there)
          fun own => ?_
        rw [there] at own
        cases (own given (free given)).1
    · rw [KeyCall.run, KeyCall.EntersOwn, result]
      have tenant : task.tenantID ≠ "" := tenant
      refine (respectsTenants_enter entered respects tenant fresh).trans ?_
      exact ⟨fun clear given _ => ⟨fresh, clear given⟩, fun own given => (own given (free given)).2⟩

end Entered

private theorem entered_of_reachable (reached : (keyCalls F).Reachable s) : s.Entered := by
  refine reached.invariant ?_ ?_
  · rintro s rfl
    exact ⟨by simp, by simp [MemoryStore.Named]⟩
  · rintro s call s' - entered ⟨-, rfl⟩
    exact call.run_entered entered

end Calls

/-! ## Requests -/

section Requests

variable {F : Type} {w w' : World F}

/-- Entries lead to tasks of their tenant and key. -/
def MemoryStore.Owned (s : MemoryStore F) : Prop :=
  ∀ tenantID key t, tenantID ≠ "" → key ≠ "" → s.Names tenantID key t →
    ∃ task, s.tasks.lookup t = some task ∧ task.tenantID = tenantID ∧ task.idempotencyKey = key

variable [Float64 F] {sha256 : Bytes → String} {call : Call F} {answer : call.Ans}
  {senv : ServiceEnv}

/-- A call that creates a task does so with a clear pair. -/
def CreatesClear : Call F → Prop
  | .applyCreateTransition task _ =>
    task.tenantID ≠ "" ∧
      (task.idempotencyKey ≠ "" → PairClear task.tenantID task.idempotencyKey)
  | _ => True

private theorem exec_owned (owned : w.store.Owned) (clear : CreatesClear call)
    (ran : w.Exec sha256 call answer w') : w'.store.Owned := by
  intro tenantID key t tenant given names
  have stays : w.store.Names tenantID key t → ∃ task, w'.store.tasks.lookup t = some task ∧
      task.tenantID = tenantID ∧ task.idempotencyKey = key := by
    intro names
    obtain ⟨task, there, sameTenant, sameKey⟩ := owned tenantID key t tenant given names
    obtain ⟨task', there', rfl | ⟨-, tenant', key'⟩⟩ := (exec_rewrites ran).1.stays there
    · exact ⟨task', there', sameTenant, sameKey⟩
    · exact ⟨task', there', tenant'.trans sameTenant, key'.trans sameKey⟩
  rcases exec_records ran with same | done
  · exact stays (by rwa [MemoryStore.Names, same.idempotency] at names)
  cases done with
  | @create task =>
    have entered : (enterKey w.store.idempotency task).lookup (idempKey tenantID key) = some t :=
      names
    rw [lookup_enterKey] at entered
    split_ifs at entered with mine
    · cases entered
      obtain ⟨rfl, rfl⟩ := (pairClear_iff clear.1 mine.1).mpr (clear.2 mine.1) tenantID key tenant
        given mine.2
      exact ⟨task, AList.lookup_insert .., rfl, rfl⟩
    · exact stays entered
  | resume => exact stays names

/-- A request under way has a tenant and a clear pair, and queues the run of the task it
answers with. -/
def CreatePC.Clear : CreatePC F → Prop
  | .lookup req _ | .readClock req _ | .newTaskID req _ _ | .newRunID req _ _ _
  | .apply req _ _ _ _ =>
    req.tenantID ≠ "" ∧ (req.idempotencyKey ≠ "" → PairClear req.tenantID req.idempotencyKey)
  | .enqueue response msg => msg.taskID = response.taskID
  | _ => True

private theorem isBlank_empty : isBlank "" = true := by
  decide

private theorem CreatePC.clear_start (req : CreateRequest F)
    (pair : req.idempotencyKey ≠ "" → PairClear req.tenantID req.idempotencyKey) :
    (CreatePC.start senv req).Clear := by
  unfold CreatePC.start
  split
  · trivial
  · rename_i mc valid
    have tenant : req.tenantID ≠ "" := by
      intro empty
      rw [validateCreate, if_pos (by rw [empty, isBlank_empty])] at valid
      cases valid
    split <;> exact ⟨tenant, pair⟩

private theorem CreatePC.clear_enqueueQueued {response : RunResponse} {run : Run F}
    (same : task.taskID = response.taskID) :
    (CreatePC.enqueueQueued senv response task run now).Clear := by
  unfold CreatePC.enqueueQueued
  split
  · trivial
  · rename_i msg queued
    unfold queuedRunMessage at queued
    split_ifs at queued <;>
    · cases queued
      exact same

private theorem CreatePC.Clear.next {pc : CreatePC F} (clear : pc.Clear)
    (calls : pc.view senv = .call call resume) : CreatesClear call ∧ (resume answer).Clear := by
  cases pc with
  | lookup req mc =>
    cases calls
    refine ⟨trivial, ?_⟩
    cases answer with
    | ok existing =>
      dsimp only
      split <;> trivial
    | error e =>
      cases e with
      | notFound => exact clear
      | _ => trivial
  | loadActiveRun existing | fetchWinner tenantID key | enqueue response msg =>
    cases calls
    cases answer <;> exact ⟨trivial, trivial⟩
  | stamp existing run =>
    cases calls
    exact ⟨trivial, clear_enqueueQueued rfl⟩
  | readClock req mc | newTaskID req mc now | newRunID req mc now taskID =>
    cases calls
    exact ⟨trivial, clear⟩
  | apply req mc now taskID runID =>
    cases calls
    refine ⟨clear, ?_⟩
    cases answer with
    | ok _ => exact clear_enqueueQueued rfl
    | error e =>
      cases e with
      | alreadyExists =>
        dsimp only
        split <;> trivial
      | _ => trivial
  | returned result => cases calls

variable {eenv : EngineEnv F} {permits : Thread F → (call : Call F) → call.Ans → Prop}
  {c : Config (World F) (Thread F)} {requests : List (Config (World F) (Thread F) × Event (Thread F))}

/-- Only requests to create make entries. -/
theorem createsClear_of_view {thread : Thread F} (calls : thread.view senv eenv = .call call resume)
    (clear : ∀ pc, thread = .create pc → pc.Clear) : CreatesClear call := by
  have transaction := view_transaction calls
  cases call with
  | applyCreateTransition task run =>
    obtain ⟨req, mc, now, taskID, runID, rfl, rfl, rfl⟩ := transaction
    exact clear _ rfl
  | _ => trivial

/-- What holds while every request with a key has a clear pair. -/
structure OwnInv (c : Config (World F) (Thread F)) : Prop where
  owned : c.world.store.Owned
  clear : ∀ i thread, c.threads i = some thread → ∀ pc, thread = .create pc → pc.Clear

private theorem path_ownInv (path : (servicePool senv eenv permits).system.Path requests c)
    (pairs : ∀ i req, Started requests i (.create (.start senv req)) → req.idempotencyKey ≠ "" →
      PairClear req.tenantID req.idempotencyKey) : OwnInv c := by
  induction path with
  | start begun =>
    obtain ⟨⟨store, -⟩, none⟩ := begun
    exact ⟨by simp [MemoryStore.Owned, MemoryStore.Names, store], by simp [none]⟩
  | next before step ih =>
    have inv := ih fun i req started => pairs i req (started_cons.mpr (.inr started))
    cases step with
    | @start j thread free begins =>
      refine ⟨inv.owned, Transition.forall_update ?_ inv.clear⟩
      rintro pc rfl
      cases begins with
      | create req => exact CreatePC.clear_start req (pairs j req (started_cons.mpr (.inl rfl)))
    | @tau j thread next there moves =>
      obtain ⟨msg, task, run, outcome, rfl, rfl⟩ := Thread.tau_eq moves
      exact ⟨inv.owned, Transition.forall_update (fun pc same => by cases same) inv.clear⟩
    | @call j thread w call resume answer there calls permitted ran =>
      refine ⟨exec_owned inv.owned (createsClear_of_view calls (inv.clear j thread there)) ran,
        Transition.forall_update ?_ inv.clear⟩
      intro pc same
      cases thread with
      | create pc' =>
        obtain ⟨resume', calls', rfl⟩ := View.map_eq_call.mp calls
        cases same
        exact ((inv.clear j _ there pc' rfl).next calls').2
      | _ =>
        obtain ⟨resume', -, rfl⟩ := View.map_eq_call.mp calls
        cases same
    | env changed =>
      obtain ⟨clock, rfl⟩ := changed
      exact ⟨inv.owned, inv.clear⟩
    | stop _ dies => exact dies.elim

/-- **Lookups respect tenants, if pairs are clear.** In a sequence of calls that make
entries, every lookup finds only a task of its tenant and key, if and only if each call
that makes an entry has a pair written as no other is and makes the entry for a new task.
So where all requests have such pairs, a request with a key is answered with, queues and
is kept from creating by a task of its own tenant and key alone. -/
theorem lookups_respect_tenants_iff :
    (∀ {history : List (MemoryStore F × KeyCall F)} {s : MemoryStore F},
      (keyCalls F).Path history s →
      (System.Throughout MemoryStore.RespectsTenants history s ↔
        System.Within KeyCall.EntersOwn history)) ∧
    ∀ {senv : ServiceEnv} {eenv : EngineEnv F}
      {permits : Thread F → (call : Call F) → call.Ans → Prop} {c : Config (World F) (Thread F)}
      {requests : List (Config (World F) (Thread F) × Event (Thread F))},
      (servicePool senv eenv permits).system.Path requests c →
      (∀ i req, Started requests i (.create (.start senv req)) → req.idempotencyKey ≠ "" →
        PairClear req.tenantID req.idempotencyKey) →
      ∀ i req, Started requests i (.create (.start senv req)) → req.tenantID ≠ "" →
        req.idempotencyKey ≠ "" → ∀ t,
        (c.world.store.Names req.tenantID req.idempotencyKey t ∨
          (∃ response, c.threads i = some (.create (.returned (.ok response))) ∧
            response.taskID = t) ∨
          ∃ response msg, c.threads i = some (.create (.enqueue response msg)) ∧ msg.taskID = t) →
        ∃ task, c.world.store.tasks.lookup t = some task ∧ task.tenantID = req.tenantID ∧
          task.idempotencyKey = req.idempotencyKey := by
  constructor
  · intro history s path
    refine path.throughout_iff_within ?_ ?_
    · rintro s rfl
      exact fun tenantID key task _ _ found => by cases found
    · rintro s call s' reached respects ⟨tenant, rfl⟩
      exact call.respects_iff (entered_of_reachable reached) respects tenant
  · intro senv eenv permits c requests path pairs i req started tenant given t about
    have own := path_ownInv path pairs
    obtain ⟨pc, at', kept⟩ := (path_keyInv path).keeps i req started given
    refine own.owned _ _ t tenant given ?_
    rcases about with names | ⟨response, there, rfl⟩ | ⟨response, msg, there, rfl⟩
    · exact names
    · cases at'.symm.trans there
      exact kept
    · cases at'.symm.trans there
      have same : msg.taskID = response.taskID := own.clear i _ there _ rfl
      rw [same]
      exact kept

end Requests

section Pairs

/-- A request of any tenant with any key. -/
def pairRequest (tenantID key : String) : CreateRequest Rat :=
  { tenantID := tenantID, userID := "ada", prompt := "hello", idempotencyKey := key }

/-- The call that creates the task of a request. -/
def pairCall (tenantID key : String) : KeyCall Rat :=
  .applyCreateTransition 0 (createdTask (pairRequest tenantID key) none 0 "task_1" "run_1")
    (createdRun (pairRequest tenantID key) none 0 "task_1" "run_1")

private theorem start_lookup {req req' : CreateRequest Rat}
    (same : CreatePC.lookup req mc = CreatePC.start plainService req') : req' = req := by
  unfold CreatePC.start at same
  split at same
  · cases same
  · split_ifs at same
    cases same
    rfl

/-- A request with a key whose pair is clear is answered with a task of its own. -/
theorem lookups_respect_tenants_clear_pair :
    System.Throughout MemoryStore.RespectsTenants [({}, pairCall "acme" "k")]
      ((pairCall "acme" "k").run {}) ∧
    ∃ requests c response task,
      (servicePool plainService plainEngine fun _ _ _ => True).system.Path requests c ∧
      c.threads 0 = some (.create (.returned (.ok response))) ∧
      c.world.store.tasks.lookup response.taskID = some task ∧
      task.tenantID = "acme" ∧ task.idempotencyKey = "k" := by
  constructor
  · refine (lookups_respect_tenants_iff.1
      (.next (.start rfl) ⟨by decide, rfl⟩)).mpr (System.within_cons.mpr ⟨?_, ?_⟩)
    · exact fun _ _ => by decide
    · simp [System.Within]
  · have c1 := plainService_starts.next (.start (i := 0) rfl (.create (pairRequest "acme" "k")))
    have c2 := (plainService_serves (outsideWorks 0)).path c1 [0, 0, 0, 0, 0, 0] rfl
    obtain ⟨task, there, own⟩ := lookups_respect_tenants_iff.2 c2
      (by
        rintro i req started -
        simp only [started_cons, Event.start.injEq, reduceCtorEq, false_or, Thread.create.injEq]
          at started
        obtain ⟨-, same⟩ | ⟨_, none⟩ := started
        · rw [start_lookup same]
          decide
        · cases none)
      0 (pairRequest "acme" "k") ⟨_, List.mem_of_getElem? (i := 6) rfl⟩ (by decide) (by decide) _
      (.inr (.inl ⟨_, rfl, rfl⟩))
    exact ⟨_, _, _, task, c2, rfl, there, own⟩

/-- The task of one tenant is found by another, whose request is answered with it and
queues its run once more. -/
theorem foreign_task_found :
    (∃ history s task, (keyCalls Rat).Path history s ∧
      s.getTaskByIdempotencyKey "a" "b#c" = .ok task ∧ task.tenantID = "a#b") ∧
    ∃ requests c response task msg,
      (servicePool plainService plainEngine fun _ _ _ => True).system.Path requests c ∧
      Started requests 1 (.create (.start plainService (pairRequest "a" "b#c"))) ∧
      c.threads 1 = some (.create (.returned (.ok response))) ∧
      c.world.store.tasks.lookup response.taskID = some task ∧ task.tenantID = "a#b" ∧
      c.world.sent = [msg, msg] := by
  constructor
  · exact ⟨_, (pairCall "a#b" "c").run {}, _, .next (.start rfl) ⟨by decide, rfl⟩, rfl, rfl⟩
  · have c1 := plainService_starts.next (.start (i := 0) rfl (.create (pairRequest "a#b" "c")))
    have c2 := (plainService_serves (outsideWorks 0)).path c1 [0, 0, 0, 0, 0, 0] rfl
    have c3 := c2.next (.start (i := 1) rfl (.create (pairRequest "a" "b#c")))
    have c4 := (plainService_serves (outsideWorks 0)).path c3 [1, 1, 1, 1] rfl
    exact ⟨_, _, _, _, _, c4, ⟨_, List.mem_of_getElem? (i := 4) rfl⟩, rfl, rfl, rfl, rfl⟩

end Pairs

end AgentForge
