import AgentForge.Executions

/-! The token cap of a run. `Execute` adds the usage of every answer to what is stored for the
run, and checks the cap against a total of its own that begins at zero. Within one execution
the two grow alike, so the cap bounds what is stored if nothing was stored when the execution
began; what an earlier execution of the same run has used is not counted. -/
namespace AgentForge

open Transition

section Stored

variable {F : Type}

/-- The tokens a run is stored with. -/
def Run.usedTokens (run : Run F) : Int64 := (run.totalTokenUsage.getD {}).total

/-- The run, if it is stored, is stored with so many tokens. -/
def HasUsed (taskID runID : String) (total : Int64) (w : World F) : Prop :=
  ∀ record, w.store.getRun taskID runID = .ok record → record.usedTokens = total

/-- A record found after a change was there before it, or is what the change made of it. -/
theorem changeRun_lookup {s : MemoryStore F} {record' : Run F}
    (found : (s.changeRun taskID runID change).2.runs.lookup k = some record') :
    ∃ record, s.runs.lookup k = some record ∧
      (record' = record ∨ (k = runKey taskID runID ∧ change record = .ok record')) := by
  unfold MemoryStore.changeRun at found
  split at found
  · exact ⟨_, found, .inl rfl⟩
  · rename_i record there
    split at found
    · exact ⟨_, found, .inl rfl⟩
    · rename_i changed done
      by_cases same : k = runKey taskID runID
      · subst same
        cases (AList.lookup_insert _).symm.trans found
        exact ⟨record, there, .inr ⟨rfl, done⟩⟩
      · exact ⟨_, (AList.lookup_insert_ne same).symm.trans found, .inl rfl⟩

variable {taskID runID : String} {total : Int64} {w : World F}

section Used

variable (used : HasUsed taskID runID total w)

include used

/-- A change of some run that leaves its tokens alone. -/
theorem HasUsed.changeRun (keeps : ∀ record record', change record = .ok record' →
      record'.usedTokens = record.usedTokens) :
    HasUsed taskID runID total (w.after (w.store.changeRun taskID' runID' change)) := by
  intro record' found
  obtain ⟨record, there, rfl | ⟨-, done⟩⟩ := changeRun_lookup (getRun_eq_ok.mp found)
  · exact used _ (getRun_eq_ok.mpr there)
  · rw [keeps record record' done, used record (getRun_eq_ok.mpr there)]

/-- Resetting a run leaves what it has used. -/
theorem HasUsed.reset (now : Time) (taskID' runID' : String) :
    HasUsed taskID runID total (w.after (w.store.resetRunToQueued now taskID' runID')) :=
  used.changeRun fun record record' done => by cases done; rfl

/-- The tokens a usage adds. -/
def usageTotal (usage : Option TokenUsage) : Int64 := (usage.map (·.total)).getD 0

variable [Float64 F]

private theorem HasUsed.add (usage : Option TokenUsage) (costUSD : F) :
    HasUsed taskID runID (total + usageTotal usage)
      (w.after (w.store.addRunUsage taskID runID usage costUSD)) := by
  intro record' found
  have there : ∃ record, w.store.runs.lookup (runKey taskID runID) = some record := by
    obtain ⟨record, there, -⟩ := changeRun_lookup (getRun_eq_ok.mp found)
    exact ⟨record, there⟩
  obtain ⟨record, there⟩ := there
  rw [getRun_eq_ok, World.after, MemoryStore.addRunUsage, changeRun_always _ there] at found
  cases (AList.lookup_insert _).symm.trans found
  rw [← used record (getRun_eq_ok.mpr there)]
  cases usage with
  | none => simp [Run.usedTokens, usageTotal]
  | some usage => rfl

private theorem HasUsed.engineRuns (ran : w.EngineRuns sha256 call answer w')
    (other : ∀ t r usage costUSD, call ≠ .addRunUsage t r usage costUSD) :
    HasUsed taskID runID total w' := by
  cases call with
  | addRunUsage t r usage costUSD => exact absurd rfl (other t r usage costUSD)
  | updateLastStepIndex t r i =>
    obtain ⟨-, rfl⟩ := ran
    exact used.changeRun fun record record' done => by cases done; rfl
  | _ =>
    have same : w'.store.runs = w.store.runs := by cases engineRuns_effect ran <;> rfl
    intro record found
    exact used record (getRun_eq_ok.mpr (same ▸ getRun_eq_ok.mp found))

end Used

end Stored

/-! ## The discipline -/

section Spending

variable {F : Type} (taskID runID : String) (cap : Int64)

/-- The total follows the usage that is added to the run, and the model is asked below the
cap only. -/
def spending : Discipline (EngineCall F) EngineCall.Ans Int64 where
  moves total
    | .addRunUsage _ _ usage _, _ => total + usageTotal usage
    | _, _ => total
  allows total
    | .chat _ => total ≤ cap
    | .addRunUsage t r _ _ => t = taskID ∧ r = runID
    | _ => True

namespace Spending

variable {taskID runID cap} {env : EngineEnv F} {task : Task F} {run : Run F}

private theorem ignores (task : Task F) (run : Run F) (call : EngineCall F)
    (either : call.Minor task run ∨ call.Settles) : (spending taskID runID cap).Ignores call := by
  cases call with
  | chat _ | addRunUsage _ _ _ _ => exact (or_self_iff.mp either).elim
  | _ => exact ⟨fun _ => trivial, fun _ _ => rfl⟩

private theorem overlooks : Overlooks task run (spending taskID runID cap) :=
  .of_minor fun call minor => ignores task run call (.inl minor)

private theorem lasts (P : Int64 → Prop) :
    Lasts env task run (spending taskID runID cap) fun _ => P :=
  .of_minor (fun call minor => ignores task run call (.inl minor)) P

/-- The total in the course of a turn. -/
def stage (total : Int64) : Asking → Int64 → Prop
  | .spent response, total' => total' = total + usageTotal response.tokenUsage
  | _, total' => total' = total

variable [Float64 F]

private theorem within_of_unexceeded {cfg : ModelConfig F} {total : Int64}
    (positive : 0 < cfg.maxTokens)
    (unexceeded : checkBudgetExceeded (some cfg) total cost = none) : total ≤ cfg.maxTokens := by
  unfold checkBudgetExceeded at unexceeded
  dsimp only at unexceeded
  split at unexceeded
  · cases unexceeded
  · rename_i below
    exact Int64.not_lt.mp fun above => below ⟨positive, above⟩

/-- A turn of the loop that begins within the cap, with the total as it is stored, ends so. -/
theorem ensures_executeStep (stepIdx : Int) (st : LoopState F) (capped : run.modelConfig = some cfg)
    (positive : 0 < cfg.maxTokens) (below : st.totalTokens ≤ cfg.maxTokens) :
    (spending task.taskID run.runID cfg.maxTokens).Ensures
      (fun total result => ∀ st', result = .ok (.ok st') →
        st'.totalTokens = total ∧ total ≤ cfg.maxTokens)
      (executeStep env task run stepIdx st) st.totalTokens := by
  refine overlooks.turn (fun asking _ => stage st.totalTokens asking) (fun _ => lasts _) ?_ ?_
    (fun response stepStart seq total spent unexceeded => ?_) rfl
  · rintro seq _ rfl
    exact ⟨below, fun _ _ => rfl⟩
  · rintro response costUSD seq _ rfl
    exact ⟨⟨rfl, rfl⟩, fun _ => rfl⟩
  rw [capped] at unexceeded
  have within := within_of_unexceeded positive unexceeded
  have same : (st.answered env response seq).totalTokens = total := by
    rw [show total = _ from spent, usageTotal, LoopState.answered]
    cases response.tokenUsage <;> simp
  refine (overlooks.settles (lasts (· = total))
    (fun call settles => ignores task run call (.inr settles)) _ _ response _ rfl).mono fun _ _ ran tools ended => ?_
  refine (ran tools ended).mono fun _ _ ends st' ended => ?_
  obtain ⟨rfl, kept⟩ := ends st' ended
  exact ⟨kept.trans same, same ▸ within⟩

/-- An execution begins with a total of zero and asks the model within the cap only. -/
theorem follows_execute (capped : run.modelConfig = some cfg) (positive : 0 < cfg.maxTokens) :
    (spending task.taskID run.runID cfg.maxTokens).Ensures (fun _ _ => True)
      (execute env task run) 0 := by
  refine overlooks.execution (fun _ st total => st.totalTokens = total ∧ total ≤ cfg.maxTokens)
    (lasts fun _ => True) (fun _ _ _ _ => trivial) ?_ fun _ st zero _ =>
      ⟨zero, Int64.le_of_lt positive⟩
  rintro stepIdx st _ ⟨rfl, below⟩
  exact ensures_executeStep stepIdx st capped positive below

end Spending

/-! ## Executions of one run -/

variable [Float64 F]

/-- `AddRunUsage` did not fail. -/
def UsageAdded : (call : EngineCall F) → call.Ans → Prop
  | .addRunUsage .., answer => answer = .ok ()
  | _, _ => True

/-- Executions of one run with a token cap, one after another, each dropped at any point or
not. Whatever else happens to the store, such as the run being reset to be executed again,
leaves what the run has used. -/
def executionsOf (env : EngineEnv F) :
    Session (World F) (EngineCall F) EngineCall.Ans (Except EngineError (RunResult F)) where
  initial _ := True
  begins program := ∃ task run cfg, program = execute env task run ∧ task.taskID = taskID ∧
    run.runID = runID ∧ run.modelConfig = some cfg ∧ cfg.maxTokens = cap
  carries w call answer w' := w.EngineRuns env.sha256 call answer w' ∧ UsageAdded call answer
  fails call answer := call.Fault answer ∧ UsageAdded call answer
  env w w' := ∀ total, HasUsed taskID runID total w → HasUsed taskID runID total w'

/-- The model is asked for the run only while what is stored for the run is within the cap. -/
def AsksWithin (s : ExecutionState F) : Prop :=
  ∀ request resume, s.current = some (.call (.chat request) resume) →
    ∀ record, s.world.store.getRun taskID runID = .ok record → record.usedTokens ≤ cap

/-- An execution begins with nothing used. -/
def BeginsUnspent (s : ExecutionState F) : Session.Event → Prop
  | .begin => HasUsed taskID runID 0 s.world
  | _ => True

variable {taskID runID cap} {env : EngineEnv F}
  {history : List (ExecutionState F × Session.Event)} {s : ExecutionState F}

private theorem HasUsed.carried {w w' : World F} {answer : call.Ans}
    (used : HasUsed taskID runID total w) (allowed : (spending taskID runID cap).allows total call)
    (ran : w.EngineRuns env.sha256 call answer w') :
    HasUsed taskID runID ((spending taskID runID cap).moves total call answer) w' := by
  by_cases adds : ∃ t r usage costUSD, call = .addRunUsage t r usage costUSD
  · obtain ⟨t, r, usage, costUSD, rfl⟩ := adds
    obtain ⟨rfl, rfl⟩ := allowed
    obtain ⟨-, rfl⟩ := ran
    exact used.add usage costUSD
  · have other : ∀ t r usage costUSD, call ≠ .addRunUsage t r usage costUSD :=
      fun t r usage costUSD same => adds ⟨t, r, usage, costUSD, same⟩
    have still : (spending taskID runID cap).moves total call answer = total := by
      cases call with
      | addRunUsage t r usage costUSD => exact absurd rfl (other t r usage costUSD)
      | _ => rfl
    rw [still]
    exact used.engineRuns ran other

/-- **The token cap of a run.** As long as every execution of the run begins with nothing
used, the model is never asked for it once more than the cap is stored. -/
theorem token_cap_bounds_run (positive : 0 < cap)
    (path : (executionsOf taskID runID cap env).system.Path history s)
    (unspent : System.Within (BeginsUnspent taskID runID) history) :
    System.Throughout (AsksWithin taskID runID cap) history s := by
  have both := Session.invariant (J := fun _ => True) (d := spending taskID runID cap)
    (R := HasUsed taskID runID) (fun _ _ => trivial) ?_ ?_ ?_ ?_ path unspent
  · have within : ∀ s : ExecutionState F, (True ∧ ∀ p, s.current = some p →
        ∃ total, HasUsed taskID runID total s.world ∧
          (spending taskID runID cap).Ensures (fun _ _ => True) p total) →
        AsksWithin taskID runID cap s := by
      rintro s ⟨-, tied⟩ request resume there record found
      obtain ⟨total, used, below, -⟩ := tied _ there
      rw [used record found]
      exact below
    exact ⟨within _ both.1, fun past member => within _ (both.2 past member)⟩
  · rintro s p ⟨task, run, cfg, rfl, rfl, rfl, capped, rfl⟩ nothing -
    exact ⟨0, nothing, Spending.follows_execute capped positive⟩
  · rintro s call resume answer w' total - - - used permitted ⟨ran, -⟩
    exact ⟨trivial, used.carried permitted ran⟩
  · rintro w call answer total used permitted ⟨fault, added⟩
    cases call with
    | addRunUsage t r usage costUSD =>
      obtain ⟨message, rfl⟩ := fault
      cases added
    | _ => exact used
  · exact fun w w' kept _ => ⟨trivial, kept⟩

end Spending

/-! ## A run that is executed twice -/

private theorem usageAdded_of_succeeds (succeeded : succeeds x = true) : UsageAdded x.1 x.2 := by
  obtain ⟨call, answer⟩ := x
  cases call with
  | addRunUsage t r usage costUSD =>
    cases answer with
    | error e => cases succeeded
    | ok done => rfl
  | _ => trivial

/-- The capped run, executed with a model that takes 60 tokens for an answer. -/
def cappedExecution : List (EngineExchange Rat) × World Rat × Except EngineError (RunResult Rat) :=
  (execute plainEngine freshTask cappedRun).serve
    (World.serve plainEngine.sha256 (atOnce false (.ok longAnswer))) cappedWorld

/-- After two answers it has used more than the 100 tokens it may take, and has failed. -/
theorem cappedExecution_path : ∃ later,
    (executionsOf "task_1" "run_1" 100 plainEngine).system.Path
      (later ++ [(⟨cappedWorld, none⟩, .begin)])
      ⟨cappedExecution.2.1, some (.ret cappedExecution.2.2)⟩ ∧
    ∀ past ∈ later, past.2 ≠ Session.Event.begin := by
  have begun : (executionsOf "task_1" "run_1" 100 plainEngine).system.Path
      [(⟨cappedWorld, none⟩, .begin)]
      ⟨cappedWorld, some (execute plainEngine freshTask cappedRun)⟩ :=
    .next (.start ⟨trivial, rfl⟩) (.begin ⟨_, _, _, rfl, rfl, rfl, rfl, rfl⟩)
  have plays : Executes plainEngine.sha256 (executionsOf "task_1" "run_1" 100 plainEngine).env
      cappedWorld _ cappedExecution.1 cappedExecution.2.1 (.ret cappedExecution.2.2) :=
    plays_serve (engineRuns_serve plainEngine.sha256 (atOnce false (.ok longAnswer))) cappedWorld _
  have succeeded : ∀ x ∈ cappedExecution.1, succeeds x = true := List.all_eq_true.mp rfl
  exact Session.path_of_plays begun
    (plays.restrict fun x member => usageAdded_of_succeeds (succeeded x member))

/-- The first execution keeps within the cap: the model is not asked a third time. -/
theorem token_cap_bounds_run_first :
    ∃ history s, (executionsOf "task_1" "run_1" 100 plainEngine).system.Path history s ∧
      s.world = cappedExecution.2.1 ∧
      System.Throughout (AsksWithin "task_1" "run_1" 100) history s := by
  obtain ⟨later, path, quiet⟩ := cappedExecution_path
  refine ⟨_, _, path, rfl, token_cap_bounds_run (by decide) path ?_⟩
  refine List.forall_mem_append.mpr ⟨fun past member => ?_, List.forall_mem_singleton.mpr ?_⟩
  · obtain ⟨s, e⟩ := past
    cases e with
    | begin => exact absurd rfl (quiet _ member)
    | _ => trivial
  · intro record found
    cases found
    rfl

/-- What the first execution leaves, with the run reset to be executed again. -/
def requeuedWorld : World Rat :=
  cappedExecution.2.1.after (cappedExecution.2.1.store.resetRunToQueued 1 "task_1" "run_1")

/-- Executed again, the run is stored with 120 tokens, and the model is asked. -/
theorem reexecuted_run_passes_cap :
    ∃ history request resume record,
      (executionsOf "task_1" "run_1" 100 plainEngine).system.Path history
        ⟨requeuedWorld, some (.call (.chat request) resume)⟩ ∧
      requeuedWorld.store.getRun "task_1" "run_1" = .ok record ∧ record.usedTokens = 120 ∧
      ¬ AsksWithin "task_1" "run_1" 100 ⟨requeuedWorld, some (.call (.chat request) resume)⟩ := by
  obtain ⟨later, path, -⟩ := cappedExecution_path
  have reset := path.next (.env fun total used => used.reset 1 "task_1" "run_1")
  have again := reset.next (.begin ⟨freshTask, cappedRun, _, rfl, rfl, rfl, rfl, rfl⟩)
  have polled := again.next (.carried rfl ⟨⟨rfl, rfl⟩, trivial⟩)
  have undone : (executionsOf "task_1" "run_1" 100 plainEngine).carries requeuedWorld .contextDone
      false requeuedWorld := ⟨rfl, trivial⟩
  have checked := polled.next (.carried rfl undone)
  have timed := checked.next (.carried rfl ⟨⟨rfl, rfl⟩, trivial⟩)
  refine ⟨_, _, _, _, timed, rfl, rfl, fun within => ?_⟩
  exact absurd (within _ _ rfl _ rfl) (by decide)

end AgentForge
