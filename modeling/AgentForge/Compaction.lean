import AgentForge.EventLog
import AgentForge.FalseAlarms

/-! `internal/ops/scheduler.go`: `compactRunEvents` lists finished runs and lets go of their
old events. Each pass lists anew, as many runs as the limit allows in the order of their
start; finished runs stay where they are, so what one pass does not list, the next does
not either. -/
namespace AgentForge

section Compaction

variable {F : Type} {s s' : MemoryStore F} {run : Run F} {cutoff : Int}

/-- What `SchedulerConfig` says about compaction. -/
structure SchedulerConfig where
  limit : Int
  tenantID : String
  eventCompactionWindow : Int

/-- `normalizeSchedulerConfig`, with its defaults of 200 runs and one day. -/
def normalizeSchedulerConfig (cfg : SchedulerConfig) : SchedulerConfig :=
  { cfg with
    limit := if cfg.limit ≤ 0 then 200 else cfg.limit
    eventCompactionWindow :=
      if cfg.eventCompactionWindow ≤ 0 then 24 * 3600 * 1000000000 else cfg.eventCompactionWindow }

/-- `EventCompactionReport`. A `MemoryStore` answers no errors, so there are none to
report. -/
structure EventCompactionReport where
  beforeTS : Int
  runsScanned : Int := 0
  runsCompacted : Int := 0
  eventsRemoved : Int := 0
  errors : List String := []

/-- The statuses of finished runs. -/
def finishedStatuses : List RunStatus := [.succeeded, .failed, .aborted]

/-- What the loop does about one listed run. -/
def compactRun (cutoff : Int) (pass : EventCompactionReport × MemoryStore F) (run : Run F) :
    EventCompactionReport × MemoryStore F :=
  match run.endedAt with
  | none => pass
  | some endedAt =>
    if cutoff < unix endedAt then pass
    else
      let (removed, s) := pass.2.compactEvents run.taskID run.runID cutoff
      ({ pass.1 with
        runsCompacted := pass.1.runsCompacted + 1
        eventsRemoved := pass.1.eventsRemoved + removed }, s)

/-- `compactRunEvents`. -/
def compactRunEvents (cfg : SchedulerConfig) (s : MemoryStore F) (now : Time) :
    EventCompactionReport × MemoryStore F :=
  let cutoff := unix (now - cfg.eventCompactionWindow)
  let runs := s.listRuns cfg.tenantID finishedStatuses cfg.limit
  runs.foldl (compactRun cutoff) ({ beforeTS := cutoff, runsScanned := runs.length }, s)

/-! ## What is due -/

/-- The run had ended by the cutoff. -/
def EndedBy (cutoff : Int) (run : Run F) : Prop :=
  ∃ endedAt, run.endedAt = some endedAt ∧ unix endedAt ≤ cutoff

/-- An event of the run that is older than the cutoff. -/
def HasOldEvent (s : MemoryStore F) (cutoff : Int) (run : Run F) : Prop :=
  ∃ ev ∈ s.storedEvents run.taskID run.runID,
    (run.taskID = "" ∨ ev.taskID = run.taskID) ∧ ev.ts < cutoff

/-- A finished run of the tenant that had ended by the cutoff. -/
def FinishedBy (s : MemoryStore F) (tenantID : String) (cutoff : Int) (run : Run F) : Prop :=
  s.runs.lookup (runKey run.taskID run.runID) = some run ∧
    (tenantID = "" ∨ run.tenantID = tenantID) ∧ run.status ∈ finishedStatuses ∧ EndedBy cutoff run

/-- The events of all runs are the same. -/
def SameEvents (s s' : MemoryStore F) : Prop :=
  ∀ taskID runID, s'.storedEvents taskID runID = s.storedEvents taskID runID

private theorem hasOldEvent_congr (same : SameEvents s s') :
    HasOldEvent s' cutoff run ↔ HasOldEvent s cutoff run := by
  unfold HasOldEvent
  rw [same]

/-- `CompactEvents` lets go of something exactly if there is something old and the bound is
a time; if not, every run keeps its events. -/
theorem compactEvents_none (s : MemoryStore F) (run : Run F) (cutoff : Int) :
    0 ≤ (s.compactEvents run.taskID run.runID cutoff).1 ∧
    ((s.compactEvents run.taskID run.runID cutoff).1 = 0 ↔
      ¬ (0 < cutoff ∧ HasOldEvent s cutoff run)) ∧
    ((s.compactEvents run.taskID run.runID cutoff).1 = 0 →
      SameEvents s (s.compactEvents run.taskID run.runID cutoff).2) := by
  have old : ∀ ev : StreamEvent F,
      ((run.taskID = "" || ev.taskID = run.taskID) && ev.ts < cutoff) = true ↔
        (run.taskID = "" ∨ ev.taskID = run.taskID) ∧ ev.ts < cutoff := by
    intro ev
    simp
  unfold MemoryStore.compactEvents HasOldEvent
  rw [← MemoryStore.storedEvents]
  dsimp only
  split_ifs with untimed empty
  · exact ⟨Int.le_refl 0, iff_of_true rfl fun both => absurd both.1 untimed.not_gt,
      fun _ _ _ => rfl⟩
  · rw [List.isEmpty_iff.mp empty]
    exact ⟨Int.le_refl 0, iff_of_true rfl (by simp), fun _ _ _ => rfl⟩
  · have none : (((s.storedEvents run.taskID run.runID).countP fun ev =>
        (run.taskID = "" || ev.taskID = run.taskID) && ev.ts < cutoff : Nat) : Int) = 0 ↔
        ∀ ev ∈ s.storedEvents run.taskID run.runID,
          ¬ ((run.taskID = "" ∨ ev.taskID = run.taskID) ∧ ev.ts < cutoff) := by
      rw [Int.natCast_eq_zero, List.countP_eq_zero]
      exact forall₂_congr fun ev _ => not_congr (old ev)
    refine ⟨Int.natCast_nonneg _, none.trans ?_, fun removed taskID runID => ?_⟩
    · rw [and_iff_right (not_le.mp untimed), not_exists]
      exact forall_congr' fun ev => not_and.symm
    · have kept : (s.storedEvents run.taskID run.runID).filter (fun ev =>
          !((run.taskID = "" || ev.taskID = run.taskID) && ev.ts < cutoff)) =
          s.storedEvents run.taskID run.runID :=
        List.filter_eq_self.mpr fun ev member => by
          rw [Bool.not_eq_true', ← Bool.not_eq_true, old]
          exact none.mp removed ev member
      rw [storedEvents_insert, kept]
      split
      · rename_i here
        rw [MemoryStore.storedEvents, MemoryStore.storedEvents, here]
      · rfl

/-- The pass is done with the runs it has listed so far, or has something left to do. -/
theorem compactRun_removed (cutoff : Int) (pass : EventCompactionReport × MemoryStore F)
    (run : Run F) :
    pass.1.eventsRemoved ≤ (compactRun cutoff pass run).1.eventsRemoved ∧
    ((compactRun cutoff pass run).1.eventsRemoved = pass.1.eventsRemoved ↔
      ¬ (0 < cutoff ∧ EndedBy cutoff run ∧ HasOldEvent pass.2 cutoff run)) ∧
    ((compactRun cutoff pass run).1.eventsRemoved = pass.1.eventsRemoved →
      SameEvents pass.2 (compactRun cutoff pass run).2) := by
  unfold compactRun EndedBy
  cases ended : run.endedAt with
  | none => exact ⟨Int.le_refl _, by simp, fun _ _ _ => rfl⟩
  | some endedAt =>
    obtain ⟨positive, none, kept⟩ := compactEvents_none pass.2 run cutoff
    dsimp only
    split_ifs with later
    · exact ⟨Int.le_refl _, by simp [later.not_ge], fun _ _ _ => rfl⟩
    · dsimp only
      refine ⟨by omega, ?_, fun same => kept (by omega)⟩
      rw [show pass.1.eventsRemoved + (pass.2.compactEvents run.taskID run.runID cutoff).1 =
        pass.1.eventsRemoved ↔ (pass.2.compactEvents run.taskID run.runID cutoff).1 = 0 by omega, none]
      simp [not_lt.mp later]

/-- A pass removes nothing exactly if it has listed no run with something to remove; then
every run keeps its events. -/
theorem foldl_compactRun (cutoff : Int) (runs : List (Run F))
    (pass : EventCompactionReport × MemoryStore F) :
    pass.1.eventsRemoved ≤ (runs.foldl (compactRun cutoff) pass).1.eventsRemoved ∧
    ((runs.foldl (compactRun cutoff) pass).1.eventsRemoved = pass.1.eventsRemoved ↔
      ¬ ∃ run ∈ runs, 0 < cutoff ∧ EndedBy cutoff run ∧ HasOldEvent pass.2 cutoff run) ∧
    ((runs.foldl (compactRun cutoff) pass).1.eventsRemoved = pass.1.eventsRemoved →
      SameEvents pass.2 (runs.foldl (compactRun cutoff) pass).2) := by
  induction runs generalizing pass with
  | nil => exact ⟨Int.le_refl _, by simp, fun _ _ _ => rfl⟩
  | cons run runs ih =>
    obtain ⟨more, none, kept⟩ := compactRun_removed cutoff pass run
    obtain ⟨more', none', kept'⟩ := ih (compactRun cutoff pass run)
    rw [List.foldl_cons]
    refine ⟨more.trans more', ?_, fun same => ?_⟩
    · rw [List.exists_mem_cons_iff, not_or]
      constructor
      · intro same
        have here : (compactRun cutoff pass run).1.eventsRemoved = pass.1.eventsRemoved := by omega
        refine ⟨none.mp here, ?_⟩
        rintro ⟨later, listed, timed, ended, old⟩
        exact none'.mp (by omega) ⟨later, listed, timed, ended,
          (hasOldEvent_congr (kept here)).mpr old⟩
      · rintro ⟨quiet, others⟩
        have here := none.mpr quiet
        refine (none'.mpr ?_).trans here
        rintro ⟨later, listed, timed, ended, old⟩
        exact others ⟨later, listed, timed, ended, (hasOldEvent_congr (kept here)).mp old⟩
    · have here : (compactRun cutoff pass run).1.eventsRemoved = pass.1.eventsRemoved := by omega
      intro taskID runID
      rw [kept' (by omega), kept here]

/-- A pass changes events only, and has no errors to report. -/
theorem foldl_compactRun_frame (cutoff : Int) (runs : List (Run F))
    (pass : EventCompactionReport × MemoryStore F) :
    (runs.foldl (compactRun cutoff) pass).1.errors = pass.1.errors ∧
      (runs.foldl (compactRun cutoff) pass).2.runs = pass.2.runs := by
  have one : ∀ pass : EventCompactionReport × MemoryStore F, ∀ run,
      (compactRun cutoff pass run).1.errors = pass.1.errors ∧
        (compactRun cutoff pass run).2.runs = pass.2.runs := by
    intro pass run
    unfold compactRun
    cases run.endedAt with
    | none => exact ⟨rfl, rfl⟩
    | some endedAt =>
      obtain ⟨events, left, -⟩ := compactEvents_frame pass.2 run.taskID run.runID cutoff
      dsimp only
      split_ifs
      · exact ⟨rfl, rfl⟩
      · rw [left]
        exact ⟨rfl, rfl⟩
  induction runs generalizing pass with
  | nil => exact ⟨rfl, rfl⟩
  | cons run runs ih =>
    obtain ⟨errors, same⟩ := ih (compactRun cutoff pass run)
    rw [List.foldl_cons, errors, same]
    exact one pass run

/-- **What a pass without removals means.** A pass that removes nothing leaves no finished
run of the tenant with an event older than the cutoff exactly if, should there be one, it
lists a run that had ended by the cutoff and has such an event, and the cutoff is a time
after 1970. -/
theorem idle_compaction_leaves_none_old_iff (cfg : SchedulerConfig) (s : MemoryStore F)
    (now : Time) :
    let cutoff := unix (now - cfg.eventCompactionWindow)
    let pass := compactRunEvents cfg s now
    (pass.1.errors = [] → pass.1.eventsRemoved = 0 →
      ∀ run, FinishedBy pass.2 cfg.tenantID cutoff run → ¬ HasOldEvent pass.2 cutoff run) ↔
    ((∃ run, FinishedBy s cfg.tenantID cutoff run ∧ HasOldEvent s cutoff run) →
      0 < cutoff ∧ ∃ run ∈ s.listRuns cfg.tenantID finishedStatuses cfg.limit,
        EndedBy cutoff run ∧ HasOldEvent s cutoff run) := by
  intro cutoff pass
  obtain ⟨-, none, kept⟩ := foldl_compactRun cutoff
    (s.listRuns cfg.tenantID finishedStatuses cfg.limit) ({ beforeTS := cutoff, runsScanned := _ }, s)
  obtain ⟨errors, runs⟩ := foldl_compactRun_frame cutoff
    (s.listRuns cfg.tenantID finishedStatuses cfg.limit) ({ beforeTS := cutoff, runsScanned := _ }, s)
  change pass.1.errors = [] at errors
  change pass.2.runs = s.runs at runs
  change pass.1.eventsRemoved = 0 ↔ _ at none
  change pass.1.eventsRemoved = 0 → SameEvents s pass.2 at kept
  have finished : ∀ run, FinishedBy pass.2 cfg.tenantID cutoff run ↔
      FinishedBy s cfg.tenantID cutoff run := by
    intro run
    unfold FinishedBy
    rw [runs]
  constructor
  · rintro clear ⟨run, done, old⟩
    by_contra unlisted
    have removed : pass.1.eventsRemoved = 0 := none.mpr fun ⟨other, listed, timed, due⟩ =>
      unlisted ⟨timed, other, listed, due⟩
    exact clear errors removed run ((finished run).mpr done)
      ((hasOldEvent_congr (kept removed)).mpr old)
  · intro covered _ removed run done old
    obtain ⟨timed, other, listed, due⟩ := covered
      ⟨run, (finished run).mp done, (hasOldEvent_congr (kept removed)).mp old⟩
    exact none.mp removed ⟨other, listed, timed, due⟩

end Compaction

/-! ## A run that is never compacted -/

def endedRun (runID : String) (start : Time) : Run Rat :=
  { startedRun runID .succeeded start with endedAt := some (start + 1) }

/-- Two finished runs, of which the one that was started later has an event. -/
def twoFinished : MemoryStore Rat :=
  StoreWrite.apply (storeOfRuns [endedRun "run_1" 1, endedRun "run_5" 5]) 0
    (.putEvent ⟨"task_1", "run_5", 1, 10, .complete, []⟩)

def oneAtATime : SchedulerConfig :=
  normalizeSchedulerConfig { limit := 1, tenantID := "acme", eventCompactionWindow := 0 }

/-- With a limit of one every pass, at whatever time, sees the first run only and leaves
everything as it was, while the event of the second is past the cutoff. -/
theorem old_event_never_removed :
    twoFinished.Reached ∧
    (∀ now, (compactRunEvents oneAtATime twoFinished now).1.eventsRemoved = 0 ∧
      (compactRunEvents oneAtATime twoFinished now).1.errors = [] ∧
      (compactRunEvents oneAtATime twoFinished now).2 = twoFinished) ∧
    FinishedBy twoFinished "acme" 100 (endedRun "run_5" 5) ∧
    HasOldEvent twoFinished 100 (endedRun "run_5" 5) ∧
    unix ((62135596800 + 86400 + 100) * 1000000000 - oneAtATime.eventCompactionWindow) = 100 := by
  refine ⟨(storeOfRuns_reached _).write 0 _, fun now => ?_,
    ⟨rfl, .inr rfl, by decide, 6, rfl, by decide⟩, ⟨_, List.mem_singleton_self _, .inr rfl, by decide⟩,
    by decide⟩
  have listing : twoFinished.listRuns oneAtATime.tenantID finishedStatuses oneAtATime.limit =
      [endedRun "run_1" 1] := by decide
  have none : ∀ cutoff, twoFinished.compactEvents "task_1" "run_1" cutoff = (0, twoFinished) := by
    intro cutoff
    unfold MemoryStore.compactEvents
    dsimp only
    split_ifs with untimed empty
    · rfl
    · rfl
    · exact absurd rfl empty
  have ended : (endedRun "run_1" 1).endedAt = some 2 := rfl
  unfold compactRunEvents
  simp only [listing, List.foldl_cons, List.foldl_nil, compactRun, ended]
  split_ifs
  · exact ⟨rfl, rfl, rfl⟩
  · have removed := none (unix (now - oneAtATime.eventCompactionWindow))
    change twoFinished.compactEvents (endedRun "run_1" 1).taskID (endedRun "run_1" 1).runID _ = _
      at removed
    rw [removed]
    exact ⟨rfl, rfl, rfl⟩

end AgentForge
