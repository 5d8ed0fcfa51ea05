import AgentForge.FalseAlarms
import AgentForge.RepairRaces
import AgentForge.StepTrace
import AgentForge.Streaming

/-! The last step index of a run after an execution. `UpdateLastStepIndex` follows the record
of every step but that of an error, so the index is one short after an error, and right after
everything else. -/
namespace AgentForge

section LastStep

variable {F : Type}

/-! ## Indices and errors -/

def Effect.mark : Effect → Option Int
  | .marked index => some index
  | _ => none

/-- The indices written to the run. -/
def marks (seen : List Effect) : List Int := seen.filterMap Effect.mark

private theorem marks_append (seen later : List Effect) :
    marks (seen ++ later) = marks seen ++ marks later :=
  List.filterMap_append

private theorem marks_notes (seen : List Effect) : marks (notes seen) = marks seen :=
  filterMap_notes (fun e unseen => by cases e <;> first | rfl | cases unseen) seen

variable [Float64 F] (env : EngineEnv F) (run : Run F)

/-- The totals once this is seen. -/
def Totals.after (totals : Totals F) : Effect → Totals F
  | .asked (.ok response) => totals.add env response
  | _ => totals

/-- An answer on which `Execute` records an error: the model has failed, its answer takes the
totals past a cap, or a tool could not be executed. -/
def Effect.Errs (totals : Totals F) : Effect → Prop
  | .asked (.error _) => True
  | .asked (.ok response) => ¬ WithinCaps run (totals.add env response)
  | .called executed => executed = false
  | _ => False

/-- There is such an answer, the totals being these before. -/
def Erred : Totals F → List Effect → Prop
  | _, [] => False
  | totals, e :: rest => e.Errs env run totals ∨ Erred (totals.after env e) rest

variable {env run} {index : Int} {totals : Totals F} {seen : List Effect}

private theorem erred_notes (totals : Totals F) (seen : List Effect) :
    Erred env run totals (notes seen) ↔ Erred env run totals seen := by
  induction seen generalizing totals with
  | nil => rfl
  | cons e rest ih =>
    by_cases notable : e.notable = true
    · rw [notes, List.filter_cons_of_pos notable]
      exact or_congr_right (ih _)
    · rw [notes, List.filter_cons_of_neg notable, Erred]
      cases e with
      | asked | wrote | marked => exact absurd rfl notable
      | called done | snapshot done =>
        cases done with
        | false => exact absurd rfl notable
        | true => exact (ih totals).trans (by simp [Effect.Errs, Totals.after])
      | polled | checked | emitted | stored =>
        exact (ih totals).trans (by simp [Effect.Errs, Totals.after])

/-- Every step is followed by its index, but an error. -/
def Marked (env : EngineEnv F) (run : Run F) (totals : Totals F) (seen : List Effect) : Prop :=
  (¬ Erred env run totals seen ∧ marks seen = (recordedSteps seen).map (·.stepIndex)) ∨
  (Erred env run totals seen ∧ askedTimes seen = (marks seen).length + 1 ∧
    ∃ i, (recordedSteps seen).map (·.stepIndex) = marks seen ++ [i])

private theorem TurnNotes.marked
    (noted : TurnNotes env run index totals seen (.halted status lastStep)) :
    Marked env run totals seen := by
  cases noted with
  | @aborted step _ final =>
    refine .inl ⟨by simp [Erred, Effect.Errs], ?_⟩
    change [index] = [step.stepIndex]
    rw [final.index]
  | cancelled => exact .inl ⟨not_false, rfl⟩
  | unanswered error => exact .inr ⟨.inl trivial, rfl, _, rfl⟩
  | capped exceeded error => exact .inr ⟨.inl exceeded, rfl, _, rfl⟩
  | toolFailed within error => exact .inr ⟨.inr (.inl rfl), rfl, _, rfl⟩
  | unsnapped within => exact .inl ⟨by simp [Erred, Effect.Errs, within], rfl⟩
  | @truncated _ step _ within regular =>
    refine .inl ⟨by simp [Erred, Effect.Errs, within], ?_⟩
    change [index] = [step.stepIndex]
    rw [regular.index]
  | @final _ step last _ _ within regular final =>
    refine .inl ⟨by simp [Erred, Effect.Errs, within], ?_⟩
    change [index, index + 1] = [step.stepIndex, last.stepIndex]
    rw [regular.index, final.index]

/-- A turn that goes on before turns that end the run. -/
theorem TurnNotes.marked_append (noted : TurnNotes env run index totals seen (.goesOn totals'))
    (rest : Marked env run totals' later) : Marked env run totals (seen ++ later) := by
  cases noted with
  | @goesOn response step answer within regular =>
    have erred : Erred env run totals
        ([.asked (.ok response), .wrote step answer, .marked index] ++ later) ↔
        Erred env run (totals.add env response) later := by
      simp [Erred, Effect.Errs, within, Totals.after]
    rcases rest with ⟨calm, all⟩ | ⟨failed, asked, i, short⟩
    · refine .inl ⟨mt erred.mp calm, ?_⟩
      change index :: marks later = step.stepIndex :: (recordedSteps later).map _
      rw [all, regular.index]
    · refine .inr ⟨erred.mpr failed, ?_, i, ?_⟩
      · change askedTimes ([_] ++ later) = (marks later).length + 1 + 1
        rw [← asked]
        exact List.countP_cons_of_pos rfl
      · change step.stepIndex :: (recordedSteps later).map _ = index :: (marks later ++ [i])
        rw [short, regular.index]

private theorem Loop.marked
    (loop : Loop env run start n index totals seen (.halted status lastStep))
    (fine : ∀ e ∈ seen, e.Fine) : Marked env run totals (notes seen) := by
  generalize same : TurnEnd.halted status lastStep = result at loop
  induction loop with
  | exhausted =>
    rw [notes_emits]
    exact .inl ⟨not_false, rfl⟩
  | broken turn => cases same
  | halted turn => exact (turn.noted fine).marked
  | goesOn turn rest ih =>
    obtain ⟨here, there⟩ := List.forall_mem_append.mp fine
    rw [notes_append]
    exact (turn.noted here).marked_append (ih there same)

private theorem Course.marked (course : Course env run task seen (.halted status lastStep))
    (fine : ∀ e ∈ seen, e.Fine) : Marked env run ⟨0, Float64.lit 0⟩ (notes seen) := by
  cases course with
  | rejected e invalid => exact .inl ⟨not_false, rfl⟩
  | loops valid loop => exact loop.marked fine

/-! ## What the store holds -/

variable {sha256 : Bytes → String} {others : World F → World F → Prop} {task : Task F}
  {w w' : World F} {exchanges : List (EngineExchange F)}

/-- The run is stored with this last step. -/
def LastStepIs (taskID runID : String) (index : Int) (w : World F) : Prop :=
  ∃ record, w.store.getRun taskID runID = .ok record ∧ record.lastStepIndex = index

/-- Whatever the others do, they leave the last step of the run alone. -/
def LastStepLeftAlone (taskID runID : String) (others : World F → World F → Prop) : Prop :=
  ∀ w w', others w w' → ∀ index, LastStepIs taskID runID index w → LastStepIs taskID runID index w'

omit [Float64 F] in
private theorem marks_effect (call : EngineCall F) (answer : call.Ans)
    (other : ∀ taskID runID i, call ≠ .updateLastStepIndex taskID runID i) :
    marks (effect ⟨call, answer⟩) = [] := by
  cases call with
  | updateLastStepIndex taskID runID i => exact absurd rfl (other taskID runID i)
  | executeTool _ _ =>
    match answer with
    | none | some (.error _) | some (.ok _) => rfl
  | artifactPut _ _ | workspaceSnapshot =>
    match answer with
    | .ok _ | .error _ => rfl
  | _ => rfl

omit [Float64 F] in
private theorem foldl_marks (exchanges : List (EngineExchange F)) (index : Int) :
    exchanges.foldl (fun i x => (marks (effect x)).getLastD i) index =
      (marks (exchanges.flatMap effect)).getLastD index := by
  induction exchanges generalizing index with
  | nil => rfl
  | cons x rest ih =>
    rw [List.foldl_cons, ih, List.flatMap_cons, marks_append]
    simp only [List.getLastD_eq_getLast?, List.getLast?_append]
    cases (marks (rest.flatMap effect)).getLast? <;> simp

/-- The run is stored with the index the execution wrote last. -/
theorem Executes.lastStepIs (executes : Executes sha256 others w p exchanges w' q)
    (uses : p.Uses (EngineCall.Own task run))
    (apart : LastStepLeftAlone task.taskID run.runID others)
    (stored : LastStepIs task.taskID run.runID index w) :
    LastStepIs task.taskID run.runID ((marks (exchanges.flatMap effect)).getLastD index) w' := by
  rw [← foldl_marks]
  refine executes.noted (R := LastStepIs task.taskID run.runID)
    (P := fun x => x.1.Own task run) stored (uses.trace executes.trace) ?_ ?_
  · rintro i w call answer w' ⟨record, found, rfl⟩ own ran
    by_cases writes : ∃ taskID runID i, call = .updateLastStepIndex taskID runID i
    · obtain ⟨taskID, runID, i, rfl⟩ := writes
      obtain ⟨rfl, rfl⟩ := own
      obtain ⟨-, rfl⟩ := ran
      refine ⟨{ record with lastStepIndex := i }, ?_, rfl⟩
      rw [getRun_eq_ok] at found ⊢
      unfold World.after MemoryStore.updateLastStepIndex
      rw [changeRun_always _ found]
      exact AList.lookup_insert _
    · have other := fun taskID runID i same => writes ⟨taskID, runID, i, same⟩
      rw [marks_effect call answer other, List.getLastD_nil]
      rcases engineEffect_lastStep (engineRuns_effect ran) (getRun_eq_ok.mp found) with
        ⟨record', there, same⟩ | ⟨taskID, runID, i, rfl, -, -⟩
      · exact ⟨record', getRun_eq_ok.mpr there, same⟩
      · exact absurd rfl (other taskID runID i)
  · exact fun i w w' stored changed => apart w w' changed i stored

/-! ## The drift check -/

/-- If a step of the run is stored, the run is stored with the largest of them as its last. -/
def LastStepRight (taskID runID : String) (w : World F) : Prop :=
  ∀ i step, w.store.getStep runID i = .ok step →
    (∀ j step', w.store.getStep runID j = .ok step' → j ≤ i) → LastStepIs taskID runID i w

/-- `Check` reports no drift of the run's last step. -/
def Undrifted (taskID runID : String) (w : World F) : Prop :=
  ∀ tenantID limit, ∀ issue ∈ check w.store tenantID limit, issue.type = .runLastStepDrift →
    ¬ (issue.taskID = taskID ∧ issue.runID = runID)

omit [Float64 F] in
/-- The last step of a run that is stored right is not reported, as far as the listing of its
steps goes. -/
theorem runIssue_none {s : MemoryStore F} (few : (s.stepsFrom record.runID 0).length ≤ 100000)
    (right : ∀ step ∈ s.stepsFrom record.runID 0,
      (∀ step' ∈ s.stepsFrom record.runID 0, step'.stepIndex ≤ step.stepIndex) →
      record.lastStepIndex = step.stepIndex) : runIssue s record = none := by
  have whole : s.listSteps record.runID 0 100000 =
      (s.stepsFrom record.runID 0).insertionSort fun a b => a.stepIndex ≤ b.stepIndex := by
    refine if_neg fun cut => ?_
    have long := cut.2
    rw [List.length_insertionSort] at long
    have few' : (s.stepsFrom record.runID 0).length ≤ 100000 := few
    unfold MemoryStore.stepsFrom at few'
    omega
  unfold runIssue
  rw [whole]
  obtain ⟨-, bounds, there⟩ := foldl_max_spec
    ((s.stepsFrom record.runID 0).insertionSort fun a b => a.stepIndex ≤ b.stepIndex) (-1)
  dsimp only at bounds there ⊢
  rw [if_neg]
  rintro ⟨some, differs⟩
  rcases there with none | ⟨step, member, same⟩
  · omega
  · rw [← same] at bounds differs
    refine differs (right step ((List.mem_insertionSort _).mp member) fun step' member' => ?_)
    exact bounds step' ((List.mem_insertionSort _).mpr member')

omit [Float64 F] in
/-- A run stored with its largest step is not reported. -/
theorem undrifted_of_right {taskID runID : String} (keyed : w.store.Keyed) (filed : w.store.Filed)
    (held : Held runID steps w) (few : steps.length ≤ 100000)
    (right : LastStepRight taskID runID w) : Undrifted taskID runID w := by
  rintro tenantID limit issue reported drift ⟨rfl, rfl⟩
  simp only [check, List.mem_append, List.mem_filterMap] at reported
  rcases reported with ⟨task, -, raised⟩ | ⟨record, listed, raised⟩
  · unfold taskIssue at raised
    split at raised
    · cases raised
      cases drift
    · obtain ⟨_, _, rfl⟩ := Option.map_eq_some_iff.mp raised
      cases drift
  · obtain ⟨⟨k, found⟩, -⟩ := of_mem_listRuns listed
    have named : issue.taskID = record.taskID ∧ issue.runID = record.runID := by
      unfold runIssue at raised
      dsimp only at raised
      split at raised
      · cases raised
        exact ⟨rfl, rfl⟩
      · cases raised
    rw [named.1, named.2] at right
    rw [named.2] at held
    have stored : w.store.getRun record.taskID record.runID = .ok record := by
      rw [getRun_eq_ok, keyed.run k record found, found]
    have mem : ∀ step, step ∈ w.store.stepsFrom record.runID 0 →
        w.store.getStep record.runID step.stepIndex = .ok step := by
      intro step member
      obtain ⟨⟨k', found'⟩, own, -⟩ := mem_stepsFrom.mp member
      rw [getStep_eq_ok, ← own, filed.step k' step found', found']
    have small : (w.store.stepsFrom record.runID 0).length ≤ 100000 := by
      refine le_trans ?_ few
      refine (List.subperm_of_subset (stepsFrom_nodup filed 0) fun step member => ?_).length_le
      exact ((held _ step).mp (mem step member)).1
    have none : runIssue w.store record = none := by
      refine runIssue_none small fun step member largest => ?_
      have most : ∀ j step', w.store.getStep record.runID j = .ok step' → j ≤ step.stepIndex := by
        intro j step' found'
        obtain ⟨-, rfl⟩ := (held j step').mp found'
        by_cases negative : step'.stepIndex < 0
        · exact negative.le.trans (mem_stepsFrom.mp member).2.2
        · refine largest step' (mem_stepsFrom.mpr ⟨⟨_, getStep_eq_ok.mp found'⟩, ?_, by omega⟩)
          exact stepKey_run_inj.mp (filed.step _ step' (getStep_eq_ok.mp found'))
      obtain ⟨record', found', index⟩ := right step.stepIndex step (mem step member) most
      rw [stored] at found'
      cases found'
      exact index
    rw [none] at raised
    cases raised

/-! ## The index and the errors -/

private theorem Executes.reached (executes : Executes sha256 others w p exchanges w' q)
    (sound : ∀ w w', others w w' → w.store.Reached → w'.store.Reached) (reached : w.store.Reached) :
    w'.store.Reached := by
  induction executes with
  | here w p => exact reached
  | call ran _ ih =>
    refine ih ?_
    rcases Reconnection.engineRuns_write ran with same | ⟨write, now, left, -⟩
    · exact same ▸ reached
    · exact left ▸ .write reached now write
  | other changed _ ih => exact ih (sound _ _ changed reached)

omit [Float64 F] in
/-- The largest of some steps in order is the last one. -/
theorem largest_iff (held : Held run.runID steps w)
    (sorted : steps.Pairwise (·.stepIndex < ·.stepIndex)) :
    (w.store.getStep run.runID i = .ok step ∧
      ∀ j step', w.store.getStep run.runID j = .ok step' → j ≤ i) ↔
    steps.getLast? = some step ∧ step.stepIndex = i := by
  rcases List.eq_nil_or_concat steps with rfl | ⟨init, last, rfl⟩
  · simp [held i step]
  · rw [List.concat_eq_append] at held sorted ⊢
    rw [List.getLast?_append, List.getLast?_singleton, Option.some_or, Option.some.injEq, held]
    have below : ∀ step ∈ init, step.stepIndex < last.stepIndex := fun step member =>
      (List.pairwise_append.mp sorted).2.2 step member last (List.mem_singleton_self last)
    have there : last ∈ init ++ [last] := List.mem_append_right _ (List.mem_singleton_self last)
    constructor
    · rintro ⟨⟨member, rfl⟩, largest⟩
      have above := largest last.stepIndex last ((held _ last).mpr ⟨there, rfl⟩)
      rcases List.mem_append.mp member with earlier | same
      · exact absurd above (not_le.mpr (below step earlier))
      · exact ⟨(List.mem_singleton.mp same).symm, rfl⟩
    · rintro ⟨rfl, rfl⟩
      refine ⟨⟨there, rfl⟩, fun j step' found => ?_⟩
      obtain ⟨member, rfl⟩ := (held j step').mp found
      rcases List.mem_append.mp member with earlier | same
      · exact (below step' earlier).le
      · rw [List.mem_singleton.mp same]

/-- **The last step after an execution.** With its stores working, an execution of a run
without steps leaves the run with the largest of its steps as the last one, so that `Check`
has no drift to report, just if it recorded no error; or if it recorded one as its first step
and the run was stored with that index from the beginning. -/
theorem execution_leaves_no_drift_iff {result : RunResult F} {record : Run F}
    (executes : Executes sha256 others w (execute env task run) exchanges w' (.ret (.ok result)))
    (apart : StepsLeftAlone run.runID others)
    (apart' : LastStepLeftAlone task.taskID run.runID others)
    (sound : ∀ w w', others w w' → w.store.Reached → w'.store.Reached)
    (reached : w.store.Reached) (succeeded : ∀ x ∈ exchanges, succeeds x = true)
    (unrecorded : ∀ i, w.store.getStep run.runID i = .error .notFound)
    (found : w.store.getRun task.taskID run.runID = .ok record)
    (resumes : ∀ k, run.resumeFromStepIndex = some k → 0 ≤ k) :
    (LastStepRight task.taskID run.runID w' ∧
      (env.maxSteps < 100000 → Undrifted task.taskID run.runID w')) ↔
    (¬ Erred env run ⟨0, Float64.lit 0⟩ (exchanges.flatMap effect) ∨
      (askedTimes (exchanges.flatMap effect) = 1 ∧ record.lastStepIndex = startStep run)) := by
  have course : Course env run task (exchanges.flatMap effect) (.halted result.status result.lastStep) :=
    shows_execute task exchanges _ executes.trace
  have fine := fine_of_succeeds succeeded
  obtain ⟨foot, -, few⟩ := course.footprint fine resumes
  have marked := course.marked fine
  have none : Held run.runID [] w := by
    intro i step
    rw [unrecorded i]
    simp
  have sorted := foot.sorted
  have own := foot.own
  have steps := foot.steps
  simp only [recordedSteps_notes, lastRecorded_notes] at own sorted steps few
  have held := executes.held apart succeeded own none
  have stored := executes.lastStepIs (own_execute env task run) apart' ⟨record, found, rfl⟩
  simp only [Marked, erred_notes, marks_notes, recordedSteps_notes, askedTimes_notes] at marked
  generalize exchanges.flatMap effect = seen at *
  have right : LastStepRight task.taskID run.runID w' ↔
      ∀ step, (recordedSteps seen).getLast? = some step →
        (marks seen).getLastD record.lastStepIndex = step.stepIndex := by
    obtain ⟨record', found', index⟩ := stored
    have same : ∀ i, LastStepIs task.taskID run.runID i w' ↔ record'.lastStepIndex = i := by
      intro i
      simp [LastStepIs, found']
    rw [← index]
    constructor
    · intro right step last
      obtain ⟨found'', largest⟩ := (largest_iff held sorted).mpr ⟨last, rfl⟩
      exact (same _).mp (right _ step found'' largest)
    · intro right i step found'' largest
      obtain ⟨last, rfl⟩ := (largest_iff held sorted).mp ⟨found'', largest⟩
      exact (same _).mpr (right step last)
  have check : LastStepRight task.taskID run.runID w' →
      env.maxSteps < 100000 → Undrifted task.taskID run.runID w' := by
    intro right small
    have reached' := executes.reached sound reached
    exact undrifted_of_right reached'.keyed reached'.filed held (by omega) right
  rw [and_iff_left_of_imp check, right]
  have last : ∀ step, (recordedSteps seen).getLast? = some step →
      ((recordedSteps seen).map (·.stepIndex)).getLast? = some step.stepIndex := by
    intro step last
    rw [List.getLast?_map, last, Option.map_some]
  rcases marked with ⟨calm, all⟩ | ⟨failed, asked, i, short⟩
  · refine iff_of_true (fun step there => ?_) (.inl calm)
    rw [all, List.getLastD_eq_getLast?, last step there, Option.getD_some]
  -- The last step is the error, whose index is not written.
  · have error : ∃ step, (recordedSteps seen).getLast? = some step ∧ step.stepIndex = i := by
      have there : ((recordedSteps seen).map (·.stepIndex)).getLast? = some i := by simp [short]
      rw [List.getLast?_map, Option.map_eq_some_iff] at there
      exact there
    obtain ⟨step, there, rfl⟩ := error
    have written : (∀ step, (recordedSteps seen).getLast? = some step →
        (marks seen).getLastD record.lastStepIndex = step.stepIndex) ↔
        (marks seen).getLastD record.lastStepIndex = step.stepIndex := by simp [there]
    rw [written, or_iff_right (not_not.mpr failed), asked]
    have indices : ∀ i, i ∈ marks seen ++ [step.stepIndex] ↔
        startStep run ≤ i ∧ i ≤ lastRecorded seen result.lastStep := by
      intro i
      rw [← short, List.mem_map]
      exact steps i
    have increasing : (marks seen ++ [step.stepIndex]).Pairwise (· < ·) := by
      rw [← short]
      exact List.pairwise_map.mpr sorted
    rcases List.eq_nil_or_concat (marks seen) with first | ⟨init, m, later⟩
    · rw [first] at indices ⊢
      have first : startStep run = step.stepIndex := by
        obtain ⟨low, high⟩ := (indices step.stepIndex).mp (List.mem_singleton_self _)
        exact List.mem_singleton.mp ((indices (startStep run)).mpr ⟨le_refl _, low.trans high⟩)
      simp [first]
    · rw [later, List.concat_eq_append] at increasing ⊢
      have less : m < step.stepIndex := (List.pairwise_append.mp increasing).2.2 m (by simp) _ (by simp)
      refine iff_of_false ?_ (by simp)
      simpa using less.ne

end LastStep

private theorem freshWorld_reached : freshWorld.store.Reached :=
  .write (.new _) 0 (.applyCreateTransition freshTask freshRun)

/-- The model answers at once, and nothing drifts. -/
theorem execution_leaves_no_drift_answered :
    ∃ exchanges w' result,
      Executes plainEngine.sha256 (fun _ _ => False) freshWorld
        (execute plainEngine freshTask freshRun) exchanges w' (.ret (.ok result)) ∧
      result.lastStep = 1 ∧ LastStepRight "task_1" "run_1" w' := by
  have executes : Executes _ (fun _ _ => False) _ _ _ _ _ :=
    plays_serve (engineRuns_serve plainEngine.sha256 (atOnce false (.ok lastWord))) freshWorld
      (execute plainEngine freshTask freshRun)
  refine ⟨_, _, ⟨succeededStatus, 1, "", 0, _⟩, executes, rfl, ?_⟩
  refine ((execution_leaves_no_drift_iff executes nofun nofun nofun freshWorld_reached
    (List.all_eq_true.mp rfl) (fun _ => rfl) rfl nofun).mpr (.inl ?_)).1
  have within : ∀ totals, WithinCaps freshRun totals := fun _ => rfl
  have calm : ∀ step step' answer answer', ¬ Erred plainEngine freshRun ⟨0, Float64.lit 0⟩
      [.polled (.ok (false, "")), .checked false, .asked (.ok lastWord), .stored true,
        .snapshot true, .stored true, .wrote step answer, .marked 0, .wrote step' answer',
        .marked 1] := by
    simp [Erred, Effect.Errs, within]
  exact calm _ _ _ _

/-- The second answer takes the run past its cap: the error is recorded as step 1, and the run
is left with step 0 as its last. -/
theorem capped_run_drifts :
    ∃ exchanges w' result,
      Executes plainEngine.sha256 (fun _ _ => False) cappedWorld
        (execute plainEngine freshTask cappedRun) exchanges w' (.ret (.ok result)) ∧
      (∀ x ∈ exchanges, succeeds x = true) ∧
      (∀ i, cappedWorld.store.getStep cappedRun.runID i = .error .notFound) ∧
      (∃ step, w'.store.getStep cappedRun.runID 1 = .ok step) ∧
      LastStepIs freshTask.taskID cappedRun.runID 0 w' ∧
      ¬ LastStepRight freshTask.taskID cappedRun.runID w' := by
  have executes : Executes _ (fun _ _ => False) _ _ _ _ _ :=
    plays_serve (engineRuns_serve plainEngine.sha256 (atOnce false (.ok longAnswer))) cappedWorld
      (execute plainEngine freshTask cappedRun)
  refine ⟨_, _, ⟨failedStatus, 1, _, 120, _⟩, executes, List.all_eq_true.mp rfl, fun _ => rfl,
    ⟨_, rfl⟩, ⟨_, rfl, rfl⟩, fun right => ?_⟩
  have none : Held "run_1" [] cappedWorld := by
    intro i step
    exact iff_of_false nofun (by simp)
  have held := executes.held nofun (List.all_eq_true.mp rfl) (by decide) none
  obtain ⟨record, found, index⟩ := right 1 _ rfl fun j step found => by
    obtain ⟨member, rfl⟩ := (held j step).mp found
    clear found
    revert step
    decide
  cases found
  cases index

end AgentForge
