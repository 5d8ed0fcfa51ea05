import AgentForge.Checkpoint
import AgentForge.Turns

/-! Executions of the engine in the world, beside others who change it too: the store keeps
exactly the steps the execution recorded, as long as the others leave its steps alone. -/
namespace AgentForge

section Executions

variable {F : Type} [Float64 F]

/-- The engine makes these calls, each carried out in the world there is. -/
abbrev Executes {α : Type} (sha256 : Bytes → String) (others : World F → World F → Prop) :
    World F → EngineProg F α → List (EngineExchange F) → World F → EngineProg F α → Prop :=
  Plays (fun w call answer w' => w.EngineRuns sha256 call answer w') others

/-! ## Calls that succeed -/

/-- If the call is one of the store or of the artifact store, it succeeded. -/
def succeeds : EngineExchange F → Bool
  | ⟨.getStep .., answer⟩ => Except.isOk answer
  | ⟨.isAbortRequested _, answer⟩ => Except.isOk answer
  | ⟨.putStep _, answer⟩ | ⟨.updateLastStepIndex .., answer⟩ | ⟨.addRunUsage .., answer⟩
  | ⟨.putEvent _, answer⟩ | ⟨.deleteConnection _, answer⟩ => Except.isOk answer
  | ⟨.getConnectionsByTask _, answer⟩ => Except.isOk answer
  | ⟨.artifactPut .., answer⟩ => Except.isOk answer
  | ⟨.artifactGet _, answer⟩ => Except.isOk answer
  | _ => true

/-! ## What the execution leaves alone -/

variable {sha256 : Bytes → String} {w w' : World F} {call : EngineCall F} {answer : call.Ans}

theorem engineRuns_steps (ran : w.EngineRuns sha256 call answer w')
    (other : ∀ step, call ≠ .putStep step) : w'.store.steps = w.store.steps := by
  cases engineRuns_effect ran with
  | step => exact absurd rfl (other _)
  | _ => rfl

/-- A step that was put was not there before. -/
theorem engineRuns_putStep (ran : w.EngineRuns sha256 (.putStep step) (.ok ()) w') :
    w.store.steps.lookup (stepKey step.runID step.stepIndex) = none ∧
      w'.store.steps = w.store.steps.insert (stepKey step.runID step.stepIndex) step := by
  obtain ⟨done, rfl⟩ := ran
  unfold World.after MemoryStore.putStep at *
  dsimp only at *
  split at done
  · cases done
  · rename_i absent
    rw [if_neg absent]
    exact ⟨Option.not_isSome_iff_eq_none.mp absent, rfl⟩

/-- The run, apart from how far it has come and what it has used. -/
def Run.plan (run : Run F) : Run F :=
  { run with lastStepIndex := 0, totalTokenUsage := none, totalCostUSD := Float64.lit 0 }

/-- The worlds have the same tasks, and the same runs but for the progress of this one. -/
structure World.SameBut (key : String) (w w' : World F) : Prop where
  tasks : w'.store.tasks = w.store.tasks
  keys : w'.store.idempotency = w.store.idempotency
  others : ∀ k, k ≠ key → w'.store.runs.lookup k = w.store.runs.lookup k
  own : (w'.store.runs.lookup key).map Run.plan = (w.store.runs.lookup key).map Run.plan

/-- **The engine keeps to its run.** Whatever the model and the tools answer, and whoever else
is at work: what the others keep stays true, if it is about the tasks and the runs and does not
depend on the progress of this one. -/
theorem execution_keeps_to_its_run {P : World F → Prop}
    (executes : Executes sha256 others w (execute env task run) exchanges w' q)
    (blind : ∀ w w', w.SameBut (runKey task.taskID run.runID) w' → P w → P w')
    (kept : ∀ w w', others w w' → P w → P w') (holds : P w) : P w' := by
  refine executes.noted (m := fun g _ => g) (g := ()) (R := fun _ => P)
    (P := fun x => x.1.Own task run) holds ((own_execute env task run).trace executes.trace) ?_
    fun _ w w' holds changed => kept w w' changed holds
  intro _ w call answer w' holds own ran
  refine blind w w' ?_ holds
  cases engineRuns_effect ran with
  | lastStep found | usage found =>
    obtain ⟨rfl, rfl⟩ := own
    refine ⟨rfl, rfl, fun k other => AList.lookup_insert_ne other, ?_⟩
    rw [AList.lookup_insert, found]
    rfl
  | _ => exact ⟨rfl, rfl, fun _ _ => rfl, rfl⟩

end Executions

theorem execution_keeps_to_its_run_answered :
    ∃ exchanges w' result, Executes plainEngine.sha256 (fun _ _ => False) freshWorld
      (execute plainEngine freshTask freshRun) exchanges w' (.ret result) ∧
      w'.store.tasks = freshWorld.store.tasks := by
  have executes : Executes _ (fun _ _ => False) _ _ _ _ _ :=
    plays_serve (engineRuns_serve plainEngine.sha256 (atOnce false (.ok lastWord))) freshWorld
      (execute plainEngine freshTask freshRun)
  exact ⟨_, _, _, executes, execution_keeps_to_its_run (P := fun w => w.store.tasks = _) executes
    (fun _ _ same holds => same.tasks.trans holds) nofun rfl⟩

/-! ## Plain surroundings -/

/-- A run that may take 100 tokens, and a response that takes 60 and leaves the run going. -/
def cappedRun : Run Rat := { freshRun with modelConfig := some ⟨"gpt-4o", 0, 100, "", 0, []⟩ }

def cappedWorld : World Rat :=
  World.after {} (MemoryStore.applyCreateTransition {} 0 freshTask cappedRun)

def longAnswer : LLMResponse := ⟨"on it", [], some ⟨30, 30, 60⟩, "", "gpt-4o", "openai"⟩

end AgentForge
