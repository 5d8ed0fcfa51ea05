import AgentForge.Listings
import AgentForge.Reclaim
import AgentForge.Recovery
import AgentForge.StoreLedger

/-! Workers and recovery passes over one store. A worker holds a run from its claim
until it has written the run's outcome, and a pass may reset the runs it listed and
found stale; in these terms the system is the reclaiming protocol of `Reclaim`, with
the listed copies for the snapshot.

Nothing keeps a pass from a run that a slow worker holds, so that the protocol's
safety condition has to be asked of the runs: no pass lists a stale run that is being
worked on, and no worker claims a run that a pass has yet to reset. -/
namespace AgentForge

open Lifecycle (Ledger)
open Transition (Config Event Pool View)
open Transition.System (Within)

/-! ## Statuses -/

section Statuses

variable {F : Type} {w w' : World F} {k taskID runID : String} {status : RunStatus}

/-- The status of the run under a key. -/
def World.runStatus (w : World F) (k : String) : Option RunStatus :=
  (w.store.runs.lookup k).map Run.status

theorem runStatus_ledger (w : World F) (k : String) :
    w.runStatus k = (w.ledger.run k).map Prod.snd := by
  simp [World.runStatus, World.ledger, Function.comp_def]

private theorem runStatus_congr (same : w'.ledger.run = w.ledger.run) :
    w'.runStatus = w.runStatus := by
  funext k
  rw [runStatus_ledger, runStatus_ledger, same]

theorem runStatus_setRun (left : w'.ledger = w.ledger.setRun owner k status) :
    w'.runStatus = Function.update w.runStatus k (some status) := by
  funext k'
  rw [runStatus_ledger, left, Ledger.setRun]
  by_cases same : k' = k
  · simp [same]
  · simp [same, runStatus_ledger]

variable [Float64 F] {sha256 : Bytes → String} {call : Call F} {answer : call.Ans}

/-- The calls of workers and passes that write the status of a run, claims apart. -/
theorem exec_runStatus (ran : w.Exec sha256 call answer w') :
    w'.runStatus = w.runStatus ∨
    match call with
    | .completeRun taskID runID status =>
      w'.runStatus = Function.update w.runStatus (runKey taskID runID) (some status)
    | .resetRunToQueued taskID runID =>
      w'.runStatus = Function.update w.runStatus (runKey taskID runID) (some .queued)
    | .claimRun .. | .applyCreateTransition .. | .applyResumeTransition .. => True
    | _ => False := by
  cases exec_effect ran with
  | still | queue | task => exact .inl rfl
  | @run _ k _ run sets found kept steps =>
    have written := runStatus_setRun (ledger_insertRun w k run)
    cases call with
    | claimRun => exact .inr trivial
    | completeRun | resetRunToQueued =>
      obtain ⟨rfl, status⟩ := Prod.mk.inj (Option.some.inj sets)
      exact .inr (status ▸ written)
    | _ => cases sets
  | transaction done => cases done <;> exact .inr trivial
  | engine did => exact .inl (runStatus_congr (by rw [did.ledger]))

end Statuses

/-! ## What workers hold and passes may reset -/

section Holding

variable {F : Type}

/-- The key of a run. -/
def Run.key (run : Run F) : String := runKey run.taskID run.runID

/-- The run a worker has claimed and not yet written the outcome of. -/
def WorkerPC.holds (pc : WorkerPC F) : Option String :=
  match pc.phase with
  | .claimed _ k | .stale _ k | .running _ k => some k
  | _ => none

/-- The pass would reset the listed run if it came to it now. For a run with no time of
its own, when its task was last updated is still open. -/
def RecoveryPass.MayReset (pass : RecoveryPass) (s : MemoryStore F) (run : Run F) : Prop :=
  ∃ task, s.tasks.lookup run.taskID = some task ∧ task.activeRunID = run.runID ∧
    ∃ updatedAt, isRunStale run { task with updatedAt := updatedAt } pass.now pass.staleFor = true

/-- The keys of the runs among these that the pass may reset. -/
def RecoveryPass.due (pass : RecoveryPass) (s : MemoryStore F) (runs : List (Run F)) : Set String :=
  {k | ∃ run ∈ runs, pass.MayReset s run ∧ run.key = k}

/-- The runs a pass may yet reset. -/
def RecoveryPC.due (s : MemoryStore F) : RecoveryPC F → Set String
  | .contextErr pass run rest | .getTask pass run rest => pass.due s (run :: rest)
  | .reset pass run _ rest => {run.key} ∪ pass.due s rest
  | .updateTask pass _ _ rest | .enqueue pass _ _ rest => pass.due s rest
  | .readClock .. | .list .. | .returned _ => ∅

def RecoveryThread.holds : RecoveryThread F → Option String
  | .worker pc => pc.holds
  | .pass _ => none

def RecoveryThread.due (s : MemoryStore F) : RecoveryThread F → Set String
  | .worker _ => ∅
  | .pass pc => pc.due s

/-- The reclaiming protocol a configuration stands for. -/
def reclaims (c : Config (World F) (RecoveryThread F)) : Reclaim.State String Nat RunStatus where
  status := c.world.runStatus
  holds i := (c.threads i).bind RecoveryThread.holds
  due i := {k | ∃ thread, c.threads i = some thread ∧ k ∈ thread.due c.world.store}

/-- What keeps workers and passes apart. A pass lists no stale run that a worker holds,
and a worker claims no queued run that a pass may yet reset. -/
def KeepsApart (c : Config (World F) (RecoveryThread F)) : Event (RecoveryThread F) → Prop
  | .step i =>
    match c.threads i with
    | some (.pass (.list tenantID staleFor limit now)) =>
      ∀ run ∈ c.world.store.listRuns tenantID recoverableStatuses limit, run.status = .running →
        RecoveryPass.MayReset ⟨now, staleFor, {}⟩ c.world.store run →
        ∀ j worker, c.threads j = some (.worker worker) → worker.holds ≠ some run.key
    | some (.worker (.claim msg)) => c.world.runStatus msg.key = some .queued →
      ∀ j pass, c.threads j = some (.pass pass) → msg.key ∉ pass.due c.world.store
    | _ => True
  | _ => True

/-- If this event is the reset of a run, then the run is not terminal and no worker
holds it. -/
def ResetsAbandoned (c : Config (World F) (RecoveryThread F)) : Event (RecoveryThread F) → Prop
  | .step i =>
    ∀ pass run task rest, c.threads i = some (.pass (.reset pass run task rest)) →
      (∀ status, c.world.runStatus run.key = some status → status.terminal = false) ∧
      ∀ j worker, c.threads j = some (.worker worker) → worker.holds ≠ some run.key
  | _ => True

/-- Workers and passes over any store that keeps records under their keys. Any call
may fail, any thread may die, and time moves as it likes. -/
def recoveryPool [Float64 F] (senv : ServiceEnv) (eenv : EngineEnv F) :
    Pool (World F) (Call F) Call.Ans (RecoveryThread F) where
  initial w := w.store.Keyed
  starts _ thread := thread.Starts
  view := RecoveryThread.view senv eenv
  exec w call answer w' := w.Exec eenv.sha256 call answer w'
  permits _ _ _ := True
  env w w' := ∃ clock, w' = { w with clock := clock }
  stops _ := True

private theorem RecoveryPass.due_mono {pass : RecoveryPass} {s : MemoryStore F}
    (sub : runs ⊆ runs') :
    pass.due s runs ⊆ pass.due s runs' := by
  rintro k ⟨run, member, may, rfl⟩
  exact ⟨run, sub member, may, rfl⟩

/-- What a pass may reset depends on the listing and on active runs, which no call of a
worker or a pass changes. -/
theorem RecoveryPass.due_records {pass : RecoveryPass} (same : s.SameRecords s')
    (runs : List (Run F)) : pass.due s' runs ⊆ pass.due s runs := by
  rintro k ⟨run, member, ⟨task', found, active, updatedAt, stale⟩, rfl⟩
  obtain ⟨task, was, identity⟩ := same.task_before found
  simp only [Task.identity, Prod.mk.injEq] at identity
  exact ⟨run, member, ⟨task, was, identity.2.2.2.trans active, updatedAt, stale⟩, rfl⟩

private theorem RecoveryThread.due_records (same : s.SameRecords s') (thread : RecoveryThread F) :
    thread.due s' ⊆ thread.due s := by
  cases thread with
  | worker pc => exact subset_rfl
  | pass pc =>
    cases pc with
    | reset pass run task rest =>
      exact Set.union_subset_union_right _ (RecoveryPass.due_records same rest)
    | readClock _ _ _ | list _ _ _ _ | returned _ => exact subset_rfl
    | _ => exact RecoveryPass.due_records same _

end Holding

/-! ## Every step is one of the protocol -/

section Simulation

variable {F : Type} [Float64 F] {senv : ServiceEnv} {eenv : EngineEnv F} {w w' : World F}
  {call : Call F}

/-- Neither a worker nor a pass brings a new record. -/
theorem sameRecords_of_view {thread : RecoveryThread F} {resume : call.Ans → RecoveryThread F}
    (calls : thread.view senv eenv = .call call resume) (ran : w.Exec eenv.sha256 call answer w') :
    w.store.SameRecords w'.store := by
  have others : (∀ task run, call ≠ .applyCreateTransition task run) ∧
      ∀ taskID run from' target, call ≠ .applyResumeTransition taskID run from' target := by
    cases thread with
    | worker pc =>
      obtain ⟨resume', calls', -⟩ := View.map_eq_call.mp calls
      cases pc with
      | executing msg task run program =>
        cases program <;> cases calls'
        simp
      | _ =>
        cases calls'
        all_goals simp
    | pass pc =>
      obtain ⟨resume', calls', -⟩ := View.map_eq_call.mp calls
      cases pc <;> cases calls'
      all_goals simp
  rcases exec_records ran with same | done
  · exact same
  cases done with
  | create => exact absurd rfl (others.1 _ _)
  | resume => exact absurd rfl (others.2 _ _ _ _)

/-- What one call of a worker does: it claims a queued run and holds it, or writes the
outcome of the run it holds and lets go of it, or leaves all statuses alone. -/
theorem WorkerPC.step_cases {pc : WorkerPC F} {resume : call.Ans → WorkerPC F}
    (calls : pc.view eenv = .call call resume) (ran : w.Exec eenv.sha256 call answer w') :
    (w'.runStatus = w.runStatus ∧ ∀ k, (resume answer).holds = some k → pc.holds = some k) ∨
    (∃ msg, pc = .claim msg ∧ w.runStatus msg.key = some .queued ∧
      w'.runStatus = Function.update w.runStatus msg.key (some .running) ∧
      (resume answer).holds = some msg.key) ∨
    ∃ k outcome, pc.holds = some k ∧ outcome.terminal = true ∧
      w'.runStatus = Function.update w.runStatus k (some outcome) ∧ (resume answer).holds = none := by
  have written := exec_runStatus ran
  cases pc with
  | claim msg =>
    cases calls
    rcases ran with ran | ⟨⟨message, rfl⟩, rfl⟩
    · rcases runs_claimRun ran with ⟨rfl, owner, queued, left⟩ | ⟨e, rfl, stale, rfl, -⟩
      · exact .inr (.inl ⟨msg, rfl, by rw [runStatus_ledger, SQSMessage.key, queued]; rfl,
          runStatus_setRun left, rfl⟩)
      · exact .inl ⟨rfl, by simp [stale, WorkerPC.holds, WorkerPC.phase]⟩
    · exact .inl ⟨rfl, by simp [StoreError.isStale, WorkerPC.holds, WorkerPC.phase]⟩
  | completeStale msg | completeUpdateFailed msg _ | completeTaskLoadFailed msg _
  | completeMismatch msg | completeRunLoadFailed msg _ =>
    cases calls
    rcases written with same | written
    · exact .inl ⟨same, nofun⟩
    · exact .inr (.inr ⟨msg.key, _, rfl, rfl, written, rfl⟩)
  | finalizeComplete msg status =>
    cases calls
    rcases written with same | written
    · exact .inl ⟨same, by cases answer <;> nofun⟩
    · exact .inr (.inr ⟨msg.key, _, rfl, status.2, written, by cases answer <;> rfl⟩)
  | executing msg task run program =>
    cases program <;> cases calls
    exact .inl ⟨written.resolve_right id, fun k has => has⟩
  | setRunning msg =>
    cases calls
    refine .inl ⟨written.resolve_right id, fun k has => ?_⟩
    cases answer with
    | ok => exact has
    | error e =>
      dsimp only at has
      split at has <;> exact has
  | getTask msg =>
    cases calls
    refine .inl ⟨written.resolve_right id, fun k has => ?_⟩
    cases answer with
    | ok task =>
      dsimp only at has
      split at has <;> exact has
    | error e => exact has
  | getRun msg task =>
    cases calls
    exact .inl ⟨written.resolve_right id, fun k has => by cases answer <;> exact has⟩
  | newWorkspace msg task run =>
    cases calls
    exact .inl ⟨written.resolve_right id, fun k has => by cases answer <;> first | exact has | cases has⟩
  | updateMismatch msg | updateRunLoadFailed msg _ =>
    cases calls
    exact .inl ⟨written.resolve_right id, nofun⟩
  | finalizeUpdate msg status =>
    cases calls
    refine .inl ⟨written.resolve_right id, fun k has => ?_⟩
    cases answer with
    | ok => cases has
    | error e =>
      dsimp only at has
      split at has <;> cases has
  | returned result => cases calls

omit [Float64 F] in
private theorem RecoveryPC.due_loop (s : MemoryStore F) (pass : RecoveryPass)
    (runs : List (Run F)) :
    (RecoveryPC.loop pass runs).due s = pass.due s runs := by
  cases runs with
  | nil => simp [RecoveryPC.loop, RecoveryPC.due, RecoveryPass.due]
  | cons run rest => rfl

/-- What one call of a pass does: it lists runs, or resets one that was due, or leaves
all statuses alone and nothing new is due. -/
theorem RecoveryPC.step_cases {pc : RecoveryPC F} {resume : call.Ans → RecoveryPC F}
    (calls : pc.view senv = .call call resume) (ran : w.Exec eenv.sha256 call answer w')
    (same : w.store.SameRecords w'.store) :
    (w'.runStatus = w.runStatus ∧ (resume answer).due w'.store ⊆ pc.due w.store) ∨
    (∃ tenantID staleFor limit now, pc = .list tenantID staleFor limit now ∧
      w'.runStatus = w.runStatus ∧ (resume answer).due w'.store ⊆
        RecoveryPass.due ⟨now, staleFor, {}⟩ w.store
          (w.store.listRuns tenantID recoverableStatuses limit)) ∨
    ∃ pass run task rest, pc = .reset pass run task rest ∧
      w'.runStatus = Function.update w.runStatus run.key (some .queued) ∧
      (resume answer).due w'.store ⊆ pc.due w.store := by
  have written := exec_runStatus ran
  cases pc with
  | readClock tenantID staleFor limit =>
    cases calls
    exact .inl ⟨written.resolve_right id, subset_rfl⟩
  | list tenantID staleFor limit now =>
    cases calls
    refine .inr (.inl ⟨tenantID, staleFor, limit, now, rfl, written.resolve_right id, ?_⟩)
    rcases ran with ⟨rfl, rfl⟩ | ⟨⟨message, rfl⟩, rfl⟩
    · exact (RecoveryPC.due_loop ..).subset
    · exact Set.empty_subset _
  | contextErr pass run rest =>
    cases calls
    refine .inl ⟨written.resolve_right id, ?_⟩
    cases answer
    · exact RecoveryPass.due_records same _
    · exact Set.empty_subset _
  | getTask pass run rest =>
    cases calls
    refine .inl ⟨written.resolve_right id, ?_⟩
    have later : pass.due w'.store rest ⊆ pass.due w.store (run :: rest) :=
      (RecoveryPass.due_records same _).trans (RecoveryPass.due_mono (List.subset_cons_self ..))
    cases answer with
    | error e => exact (RecoveryPC.due_loop ..).subset.trans later
    | ok task =>
      dsimp only
      split
      · exact (RecoveryPC.due_loop ..).subset.trans later
      rename_i active
      split
      · exact (RecoveryPC.due_loop ..).subset.trans later
      rename_i stale
      rcases ran with ⟨read, -⟩ | ⟨⟨message, failed⟩, -⟩
      swap
      · cases failed
      have found := getTask_eq_ok.mp (Eq.symm read)
      refine Set.union_subset (Set.singleton_subset_iff.mpr ?_) later
      exact ⟨run, List.mem_cons_self .., ⟨task, found, not_not.mp active, task.updatedAt,
        by simpa using stale⟩, rfl⟩
  | reset pass run task rest =>
    have less : (resume answer).due w'.store ⊆ (RecoveryPC.reset pass run task rest).due w.store := by
      cases calls
      have later : pass.due w'.store rest ⊆ {run.key} ∪ pass.due w.store rest :=
        (RecoveryPass.due_records same rest).trans Set.subset_union_right
      cases answer with
      | error e => exact (RecoveryPC.due_loop ..).subset.trans later
      | ok => exact later
    cases calls
    rcases written with same | written
    · exact .inl ⟨same, less⟩
    · exact .inr (.inr ⟨pass, run, task, rest, rfl, written, less⟩)
  | updateTask pass run task rest =>
    cases calls
    exact .inl ⟨written.resolve_right id, RecoveryPass.due_records same _⟩
  | enqueue pass run task rest =>
    cases calls
    refine .inl ⟨written.resolve_right id, ?_⟩
    cases answer <;> exact (RecoveryPC.due_loop ..).subset.trans (RecoveryPass.due_records same _)
  | returned result => cases calls

variable {c c' : Config (World F) (RecoveryThread F)} {e : Event (RecoveryThread F)}

omit [Float64 F] in
private theorem holds_of_update
    (has : (reclaims ⟨w', Function.update c.threads i o⟩).holds j = some k) :
    (j = i ∧ o.bind RecoveryThread.holds = some k) ∨ (reclaims c).holds j = some k := by
  by_cases same : j = i
  · subst same
    simp only [reclaims, Function.update_self] at has
    exact .inl ⟨rfl, has⟩
  · simp only [reclaims, Function.update_of_ne same] at has
    exact .inr has

omit [Float64 F] in
private theorem due_of_update (same : c.world.store.SameRecords w'.store)
    (listed : k ∈ (reclaims ⟨w', Function.update c.threads i o⟩).due j) :
    (j = i ∧ ∃ thread, o = some thread ∧ k ∈ thread.due w'.store) ∨ k ∈ (reclaims c).due j := by
  obtain ⟨thread, there, due⟩ := listed
  by_cases mine : j = i
  · subst mine
    simp only [Function.update_self] at there
    exact .inl ⟨rfl, thread, there, due⟩
  · simp only [Function.update_of_ne mine] at there
    exact .inr ⟨thread, there, thread.due_records same due⟩

omit [Float64 F] in
/-- A thread that comes to hold nothing new, with nothing new due, moves the protocol
by no action. -/
theorem reclaims_other (same : c.world.store.SameRecords w'.store)
    (status : w'.runStatus = c.world.runStatus)
    (holds : ∀ k, o.bind RecoveryThread.holds = some k → (reclaims c).holds i = some k)
    (due : ∀ thread, o = some thread → thread.due w'.store ⊆ (reclaims c).due i) :
    Reclaim.Step .queued .running (reclaims c)
      (reclaims ⟨w', Function.update c.threads i o⟩) .other := by
  refine .other status (fun j k has => ?_) fun j k listed => ?_
  · rcases holds_of_update has with ⟨rfl, new⟩ | old
    · exact holds k new
    · exact old
  · rcases due_of_update same listed with ⟨rfl, thread, rfl, new⟩ | old
    · exact due thread rfl new
    · exact old

private theorem worker_tau {pc next : WorkerPC F} (moves : pc.view eenv = .tau next) :
    next.holds = pc.holds := by
  cases pc with
  | executing msg task run program =>
    cases program <;> cases moves
    rfl
  | _ => cases moves

private theorem worker_reclaims {pc : WorkerPC F} {resume : call.Ans → WorkerPC F}
    (there : c.threads i = some (.worker pc)) (apart : KeepsApart c (.step i))
    (calls : pc.view eenv = .call call resume) (ran : c.world.Exec eenv.sha256 call answer w')
    (same : c.world.store.SameRecords w'.store) :
    ∃ action, Reclaim.Step .queued .running (reclaims c)
      (reclaims ⟨w', Function.update c.threads i (some (.worker (resume answer)))⟩) action ∧
      Reclaim.Safe (reclaims c) action := by
  have mine : (reclaims c).holds i = pc.holds := by
    simp only [reclaims, there]
    rfl
  have due : ∀ j, (reclaims ⟨w', Function.update c.threads i (some (.worker (resume answer)))⟩).due j
      ⊆ (reclaims c).due j := by
    intro j k listed
    rcases due_of_update same listed with ⟨-, thread, new, empty⟩ | old
    · cases new
      exact empty.elim
    · exact old
  rcases WorkerPC.step_cases calls ran with ⟨status, holds⟩ | ⟨msg, rfl, queued, status, holds⟩ |
    ⟨k, outcome, holding, terminal, status, released⟩
  · refine ⟨.other, reclaims_other same status (fun k has => mine ▸ holds k has) ?_, trivial⟩
    rintro thread ⟨⟩
    exact Set.empty_subset _
  · refine ⟨.take i msg.key, .take queued status (fun j k has => ?_) due, ?_⟩
    · rcases holds_of_update has with ⟨rfl, new⟩ | old
      · exact .inl ⟨rfl, Option.some.inj (new.symm.trans holds)⟩
      · exact .inr old
    · simp only [KeepsApart, there] at apart
      rintro j ⟨thread, there', listed⟩
      cases thread with
      | worker pc => exact listed
      | pass pc => exact apart queued j pc there' listed
  · refine ⟨.finish i k outcome, .finish (mine.trans holding) ?_ status ?_ (fun j k' has => ?_) due,
      trivial⟩
    · constructor <;> rintro rfl <;> cases terminal
    · simp only [reclaims, Function.update_self]
      exact released
    · rcases holds_of_update has with ⟨rfl, new⟩ | old
      · rw [Option.bind_some, RecoveryThread.holds, released] at new
        cases new
      · exact old

omit [Float64 F] in
private theorem runStatus_of_listed (keyed : w.store.Keyed)
    (listed : run ∈ w.store.listRuns tenantID recoverableStatuses limit) :
    w.runStatus run.key = some run.status ∧ (run.status = .queued ∨ run.status = .running) := by
  obtain ⟨⟨k, found⟩, none | status⟩ := of_mem_listRuns listed
  · cases none
  · have key : run.key = k := keyed.run k run found
    refine ⟨by rw [key, World.runStatus, found]; rfl, ?_⟩
    simpa [recoverableStatuses, or_comm] using status

/-- A run listed as queued is held by no worker, so the condition has to speak of those
listed as running only. -/
theorem pass_reclaims {pc : RecoveryPC F} {resume : call.Ans → RecoveryPC F}
    (keyed : c.world.store.Keyed) (inv : Reclaim.Inv .queued .running (reclaims c))
    (there : c.threads i = some (.pass pc)) (apart : KeepsApart c (.step i))
    (calls : pc.view senv = .call call resume) (ran : c.world.Exec eenv.sha256 call answer w')
    (same : c.world.store.SameRecords w'.store) :
    ∃ action, Reclaim.Step .queued .running (reclaims c)
      (reclaims ⟨w', Function.update c.threads i (some (.pass (resume answer)))⟩) action ∧
      Reclaim.Safe (reclaims c) action := by
  have holds : ∀ j k, (reclaims ⟨w', Function.update c.threads i
      (some (.pass (resume answer)))⟩).holds j = some k → (reclaims c).holds j = some k := by
    intro j k has
    rcases holds_of_update has with ⟨-, ⟨⟩⟩ | old
    exact old
  have mine : pc.due c.world.store ⊆ (reclaims c).due i := fun k listed => ⟨_, there, listed⟩
  rcases RecoveryPC.step_cases calls ran same with ⟨status, due⟩ |
    ⟨tenantID, staleFor, limit, now, rfl, status, due⟩ | ⟨pass, run, task, rest, rfl, status, due⟩
  · refine ⟨.other, reclaims_other same status nofun ?_, trivial⟩
    rintro thread ⟨⟩
    exact due.trans mine
  · have found : ∀ run ∈ c.world.store.listRuns tenantID recoverableStatuses limit,
        (reclaims c).status run.key = some run.status ∧
          (run.status = .queued ∨ run.status = .running) :=
      fun run listed => runStatus_of_listed keyed listed
    refine ⟨.list i (RecoveryPass.due ⟨now, staleFor, {}⟩ c.world.store
      (c.world.store.listRuns tenantID recoverableStatuses limit)),
      .list ?_ status holds fun j k listed => ?_, ?_⟩
    · rintro k ⟨run, listed, -, rfl⟩
      obtain ⟨known, queued | running⟩ := found run listed
      · exact .inl (queued ▸ known)
      · exact .inr (running ▸ known)
    · rcases due_of_update same listed with ⟨rfl, thread, ⟨⟩, new⟩ | old
      · exact .inr ⟨rfl, due new⟩
      · exact .inl old
    · rintro k ⟨run, listed, may, rfl⟩ j has
      obtain ⟨known, queued | running⟩ := found run listed
      · rw [inv.holding j _ has, queued] at known
        cases known
      · simp only [KeepsApart, there] at apart
        obtain ⟨thread, there', held⟩ := Option.bind_eq_some_iff.mp has
        cases thread with
        | worker worker => exact apart run listed running may j worker there' held
        | pass pc => cases held
  · refine ⟨.reclaim i run.key, .reclaim (mine (.inl rfl)) status holds fun j k listed => ?_, trivial⟩
    rcases due_of_update same listed with ⟨rfl, thread, ⟨⟩, new⟩ | old
    · exact mine (due new)
    · exact old

/-- Every step that keeps workers and passes apart is a safe action of the protocol. -/
theorem step_reclaims (keyed : c.world.store.Keyed)
    (inv : Reclaim.Inv .queued .running (reclaims c)) (apart : KeepsApart c e)
    (step : (recoveryPool senv eenv).Step c e c') :
    ∃ action, Reclaim.Step .queued .running (reclaims c) (reclaims c') action ∧
      Reclaim.Safe (reclaims c) action := by
  cases step with
  | start free begins =>
    refine ⟨.other, reclaims_other .refl rfl (fun k has => ?_) fun thread started => ?_, trivial⟩
    · cases begins <;> cases has
    · cases started
      cases begins <;> exact Set.empty_subset _
  | @tau i thread next there moves =>
    cases thread with
    | pass pc =>
      obtain ⟨n, moves', -⟩ := View.map_eq_tau.mp moves
      cases pc <;> cases moves'
    | worker pc =>
      obtain ⟨n, moves', rfl⟩ := View.map_eq_tau.mp moves
      refine ⟨.other, reclaims_other .refl rfl (fun k has => ?_) fun next same => ?_, trivial⟩
      · simp only [reclaims, there]
        exact (worker_tau moves').symm.trans has
      · cases same
        exact Set.empty_subset _
  | @call i thread w call resume answer there calls permitted ran =>
    have same := sameRecords_of_view calls ran
    cases thread with
    | worker pc =>
      obtain ⟨resume', calls', rfl⟩ := View.map_eq_call.mp calls
      exact worker_reclaims there apart calls' ran same
    | pass pc =>
      obtain ⟨resume', calls', rfl⟩ := View.map_eq_call.mp calls
      exact pass_reclaims keyed inv there apart calls' ran same
  | env changed =>
    obtain ⟨clock, rfl⟩ := changed
    exact ⟨.other, .other rfl (fun _ _ has => has) fun _ => subset_rfl, trivial⟩
  | stop there dies => exact ⟨.other, reclaims_other .refl rfl (by simp) (by simp), trivial⟩

private theorem step_keyed (keyed : c.world.store.Keyed)
    (step : (recoveryPool senv eenv).Step c e c') :
    c'.world.store.Keyed := by
  cases step with
  | call there calls permitted ran => exact exec_keyed keyed ran
  | env changed =>
    obtain ⟨clock, rfl⟩ := changed
    exact keyed
  | _ => exact keyed

end Simulation

/-! ## Resets -/

section Resets

variable {F : Type} [Float64 F] {senv : ServiceEnv} {eenv : EngineEnv F}
  {history : List (Config (World F) (RecoveryThread F) × Event (RecoveryThread F))}
  {c : Config (World F) (RecoveryThread F)}

/-- The protocol's invariant holds throughout a run that keeps workers and passes
apart. -/
theorem path_reclaims (path : (recoveryPool senv eenv).system.Path history c)
    (apart : Within KeepsApart history) :
    Transition.System.Throughout (fun c => c.world.store.Keyed ∧
      Reclaim.Inv .queued .running (reclaims c)) history c := by
  refine path.invariant ?_ ?_ apart
  · rintro ⟨w, threads⟩ ⟨keyed, rfl⟩
    exact ⟨keyed, nofun, nofun, fun i k listed => by simp [reclaims] at listed⟩
  · rintro c e c' ⟨keyed, inv⟩ apart step
    obtain ⟨action, moved, safe⟩ := step_reclaims keyed inv apart step
    exact ⟨step_keyed keyed step, inv.step (by decide) safe moved⟩

/-- **Recovery resets abandoned runs only, if workers and passes are kept apart.**
Whenever a pass resets a run, the run is not terminal and no worker is at work on it,
and a run that has become terminal keeps its status from then on. -/
theorem recovery_resets_only_abandoned_runs
    (path : (recoveryPool senv eenv).system.Path history c) (apart : Within KeepsApart history) :
    (∀ past ∈ history, ResetsAbandoned past.1 past.2) ∧
    ∀ past ∈ history, ∀ k status, past.1.world.runStatus k = some status →
      status.terminal = true → c.world.runStatus k = some status := by
  have held := path_reclaims path apart
  refine ⟨?_, fun past member k status was terminal => ?_⟩
  · rintro ⟨before, e⟩ member
    obtain ⟨-, inv⟩ := held.2 _ member
    cases e with
    | step i =>
      intro pass run task rest there
      obtain ⟨live, unheld⟩ := inv.due i run.key ⟨_, there, .inl rfl⟩
      refine ⟨fun status found => ?_, fun j worker there' holding => ?_⟩
      · rcases live with queued | running
        · obtain rfl := Option.some.inj (found.symm.trans queued)
          rfl
        · obtain rfl := Option.some.inj (found.symm.trans running)
          rfl
      · exact unheld j (Option.bind_eq_some_iff.mpr ⟨_, there', holding⟩)
    | _ => trivial
  · refine path.persists (Q := fun c => c.world.runStatus k = some status) ?_ apart held past member
      was
    rintro before e after ⟨keyed, inv⟩ apart step found
    obtain ⟨action, moved, -⟩ := step_reclaims keyed inv apart step
    refine inv.final_stays moved ?_ found
    constructor <;> rintro rfl <;> cases terminal

omit [Float64 F] in
private theorem keyed_empty : ({} : MemoryStore F).Keyed :=
  ⟨fun t task found => by simp at found, fun k run found => by simp at found⟩

private theorem freshWorld_keyed : freshWorld.store.Keyed :=
  exec_keyed keyed_empty (.inl ⟨rfl, rfl⟩ : World.Exec plainEngine.sha256 {}
    (.applyCreateTransition freshTask freshRun) (.ok ()) freshWorld)

private theorem recoveryPool_serves (outside : Outside F) :
    (recoveryPool senv eenv).Serves (World.respond eenv.sha256 outside) :=
  fun _ w call => ⟨trivial, .inl (runs_respond _ outside w call)⟩

/-- A worker claims a run and dies. A pass finds the run stale, resets it and queues it
again, and another worker claims it. -/
theorem recovery_resets_run_of_dead_worker :
    ∃ history c, (recoveryPool plainService plainEngine).system.Path history c ∧
      Within KeepsApart history ∧
      (∃ past ∈ history, past.2 = .step 1 ∧ ∃ pass run task rest,
        past.1.threads 1 = some (.pass (.reset pass run task rest)) ∧ run.key = freshRun.key) ∧
      ∀ past ∈ history, ResetsAbandoned past.1 past.2 := by
  have c0 : (recoveryPool plainService plainEngine).system.Path [] ⟨freshWorld, fun _ => none⟩ :=
    .start ⟨freshWorld_keyed, rfl⟩
  have c1 := c0.next (.start (i := 0) rfl (.worker freshMessage))
  have c2 := (recoveryPool_serves (outsideWorks 0)).path c1 [0] rfl
  have c3 := c2.next (.stop (i := 0) rfl trivial)
  have c4 := c3.next (.env ⟨600000000000, rfl⟩)
  have c5 := c4.next (.start (i := 1) rfl (.pass "" 0 0))
  have c6 := (recoveryPool_serves (outsideWorks 0)).path c5 [1, 1, 1, 1, 1, 1, 1] rfl
  have c7 := c6.next (.start (i := 2) rfl (.worker freshMessage))
  have c8 := (recoveryPool_serves (outsideWorks 0)).path c7 [2] rfl
  suffices apart : Within KeepsApart _ from
    ⟨_, _, c8, apart, ⟨_, List.mem_of_getElem? (i := 4) rfl, rfl, _, _, _, _, rfl, rfl⟩,
      (recovery_resets_only_abandoned_runs c8 apart).1⟩
  simp only [Within, List.forall_mem_cons]
  refine ⟨fun _ j pass there => ?_, trivial, trivial, trivial, trivial, trivial, trivial,
    fun run _ _ _ j worker there => ?_, trivial, trivial, trivial, trivial,
    fun _ j pass there => ?_, trivial, by simp⟩
  · rcases j with _ | _ | _ | j <;> cases there
    exact Set.notMem_empty _
  · rcases j with _ | _ | j <;> cases there
  · rcases j with _ | j <;> cases there

/-- A worker is at work on a run for ten minutes when two passes list it. One resets the
run while the worker executes it; the worker then fails it, and the other pass puts the
failed run back in the queue. -/
theorem recovery_resets_executing_and_failed_run :
    ∃ history c, (recoveryPool plainService plainEngine).system.Path history c ∧
      (∃ past ∈ history, past.2 = .step 1 ∧ ∃ pass run task rest msg task' run' program,
        past.1.threads 1 = some (.pass (.reset pass run task rest)) ∧
        past.1.threads 0 = some (.worker (.executing msg task' run' program)) ∧
        msg.key = run.key) ∧
      (∃ past ∈ history, past.1.world.runStatus freshRun.key = some .failed) ∧
      c.world.runStatus freshRun.key = some .queued := by
  have c0 : (recoveryPool plainService plainEngine).system.Path [] ⟨freshWorld, fun _ => none⟩ :=
    .start ⟨freshWorld_keyed, rfl⟩
  have c1 := c0.next (.start (i := 0) rfl (.worker freshMessage))
  have c2 := (recoveryPool_serves (outsideWorks 0)).path c1 [0, 0, 0, 0, 0, 0] rfl
  have c3 := c2.next (.env ⟨600000000000, rfl⟩)
  have c4 := c3.next (.start (i := 1) rfl (.pass "" 0 0))
  have c5 := (recoveryPool_serves (outsideWorks 0)).path c4 [1, 1, 1, 1] rfl
  have c6 := c5.next (.start (i := 2) rfl (.pass "" 0 0))
  have c7 := (recoveryPool_serves (outsideWorks 0)).path c6 [2, 2, 2, 2, 1] rfl
  have c8 := (recoveryPool_serves { outsideWorks 0 with engine := atOnce true (.ok lastWord) }).path
    c7 [0, 0, 0, 2] rfl
  exact ⟨_, _, c8,
    ⟨_, List.mem_of_getElem? (i := 4) rfl, rfl, _, _, _, _, _, _, _, _, rfl, rfl, rfl⟩,
    ⟨_, List.mem_of_getElem? (i := 0) rfl, rfl⟩, rfl⟩

end Resets

end AgentForge
