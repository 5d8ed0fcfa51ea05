import AgentForge.Executions

/-! The steps an execution leaves behind. While its stores work, each turn of the loop
records the step it is at, the last one perhaps a final step too; `UpdateLastStepIndex`
follows on every path but those that record an error. -/
namespace AgentForge

/-! ## What is worth a note -/

/-- What bears on the steps: the requests, the steps and their indices, and what can keep a
step from being recorded. -/
def Effect.notable : Effect → Bool
  | .asked _ | .wrote _ _ | .marked _ | .called false | .snapshot false => true
  | _ => false

def notes (seen : List Effect) : List Effect := seen.filter Effect.notable

/-- What is seen of a call of the store or of the artifact store that succeeds. -/
def Effect.Fine : Effect → Prop
  | .polled answer => ∃ flag, answer = .ok flag
  | .stored ok => ok = true
  | .wrote _ answer => answer = .ok ()
  | _ => True

section Notes

variable {F : Type} {env : EngineEnv F} {run : Run F} {index : Int}

@[simp] theorem notes_nil : notes [] = [] := rfl

@[simp] theorem notes_append (seen later : List Effect) :
    notes (seen ++ later) = notes seen ++ notes later :=
  List.filter_append ..

@[simp] theorem notes_asked (answer : Except String LLMResponse) (seen : List Effect) :
    notes (.asked answer :: seen) = .asked answer :: notes seen := rfl

@[simp] theorem notes_wrote (step : Step) (answer : Except StoreError Unit) (seen : List Effect) :
    notes (.wrote step answer :: seen) = .wrote step answer :: notes seen := rfl

@[simp] theorem notes_marked (index : Int) (seen : List Effect) :
    notes (.marked index :: seen) = .marked index :: notes seen := rfl

@[simp] theorem notes_called_false (seen : List Effect) :
    notes (.called false :: seen) = .called false :: notes seen := rfl

@[simp] theorem notes_snapshot_false (seen : List Effect) :
    notes (.snapshot false :: seen) = .snapshot false :: notes seen := rfl

@[simp] theorem notes_polled (answer : Except StoreError (Bool × String)) (seen : List Effect) :
    notes (.polled answer :: seen) = notes seen := rfl

@[simp] theorem notes_checked (done : Bool) (seen : List Effect) :
    notes (.checked done :: seen) = notes seen := rfl

private theorem notes_saved (saved : Saved seen) : notes seen = [] := by
  refine List.filter_eq_nil_iff.mpr fun e member => ?_
  rcases saved e member with rfl | rfl
  · exact Bool.false_ne_true
  · exact Bool.false_ne_true

private theorem notes_streamed (streamed : Streamed seen) : notes seen = [] := by
  refine List.filter_eq_nil_iff.mpr fun e member => ?_
  rw [streamed e member]
  exact Bool.false_ne_true

private theorem notes_executed (executed : Executed seen) : notes seen = [] := by
  refine List.filter_eq_nil_iff.mpr fun e member => ?_
  rcases executed e member with rfl | rfl | rfl
  · exact Bool.false_ne_true
  · exact Bool.false_ne_true
  · exact Bool.false_ne_true

@[simp] theorem notes_emits (type : StreamEventType) : notes (emits env type) = [] := by
  unfold emits
  split
  · rfl
  · rfl

variable [Float64 F] (env run index)

/-- What is noted of a turn, with what it leaves the loop with, while the stores work. -/
inductive TurnNotes (totals : Totals F) : List Effect → TurnEnd F → Prop where
  | goesOn {response : LLMResponse} {step : Step} {answer : Except StoreError Unit}
      (within : WithinCaps run (totals.add env response)) (regular : RegularStep run index step) :
      TurnNotes totals [.asked (.ok response), .wrote step answer, .marked index]
        (.goesOn (totals.add env response))
  | aborted {step : Step} {answer : Except StoreError Unit} (final : FinalStep run index step) :
      TurnNotes totals [.wrote step answer, .marked index] (.halted abortedStatus index)
  | cancelled : TurnNotes totals [] (.halted failedStatus (index - 1))
  | unanswered {message : String} {step : Step} {answer : Except StoreError Unit}
      (error : ErrorStep run index step) :
      TurnNotes totals [.asked (.error message), .wrote step answer] (.halted failedStatus index)
  | capped {response : LLMResponse} {step : Step} {answer : Except StoreError Unit}
      (exceeded : ¬ WithinCaps run (totals.add env response)) (error : ErrorStep run index step) :
      TurnNotes totals [.asked (.ok response), .wrote step answer] (.halted failedStatus index)
  | toolFailed {response : LLMResponse} {step : Step} {answer : Except StoreError Unit}
      (within : WithinCaps run (totals.add env response)) (error : ErrorStep run index step) :
      TurnNotes totals [.asked (.ok response), .called false, .wrote step answer]
        (.halted failedStatus index)
  | unsnapped {response : LLMResponse} (within : WithinCaps run (totals.add env response)) :
      TurnNotes totals [.asked (.ok response), .snapshot false] (.halted failedStatus index)
  | truncated {response : LLMResponse} {step : Step} {answer : Except StoreError Unit}
      (within : WithinCaps run (totals.add env response)) (regular : RegularStep run index step) :
      TurnNotes totals [.asked (.ok response), .wrote step answer, .marked index]
        (.halted failedStatus index)
  | final {response : LLMResponse} {step last : Step} {answer answer' : Except StoreError Unit}
      (within : WithinCaps run (totals.add env response)) (regular : RegularStep run index step)
      (final : FinalStep run (index + 1) last) :
      TurnNotes totals [.asked (.ok response), .wrote step answer, .marked index,
        .wrote last answer', .marked (index + 1)] (.halted succeededStatus (index + 1))

variable {env run index}

private theorem Finish.noted {response : LLMResponse}
    (within : WithinCaps run (totals.add env response))
    (course : Finish env run index (totals.add env response) seen result)
    (fine : ∀ e ∈ seen, e.Fine) :
    TurnNotes env run index totals (.asked (.ok response) :: notes seen) result := by
  cases course with
  | unsaved saved failure =>
    rcases failure with rfl | rfl
    · have stored : (Effect.stored false).Fine := fine _ (by simp)
      cases stored
    · simp only [notes_append, notes_saved saved, notes_snapshot_false, notes_nil, List.nil_append]
      exact .unsnapped within
  | @unwritten saves step e saved regular lost =>
    have written : (Effect.wrote step (.error e)).Fine := fine _ (by simp)
    cases written
  | goesOn saved regular written =>
    simp only [notes_append, notes_saved saved, notes_wrote, notes_marked, notes_emits,
      List.nil_append]
    exact .goesOn within regular
  | truncated saved regular written =>
    simp only [notes_append, notes_saved saved, notes_wrote, notes_marked, notes_emits,
      List.nil_append]
    exact .truncated within regular
  | finalUnsaved saved regular written saved' =>
    have stored : (Effect.stored false).Fine := fine _ (by simp)
    cases stored
  | final saved regular written saved' final =>
    simp only [notes_append, notes_saved saved, notes_saved saved', notes_wrote, notes_marked,
      notes_emits, List.nil_append]
    exact .final within regular final

private theorem Reply.noted {response : Except String LLMResponse}
    (course : Reply env run index totals response seen result) (fine : ∀ e ∈ seen, e.Fine) :
    TurnNotes env run index totals (.asked response :: notes seen) result := by
  cases course with
  | unanswered streamed error =>
    simp only [notes_append, notes_streamed streamed, notes_wrote, notes_emits, List.nil_append]
    exact .unanswered error
  | capped streamed exceeded error =>
    simp only [notes_append, notes_streamed streamed, notes_wrote, notes_emits, List.nil_append]
    exact .capped exceeded error
  | toolFailed streamed within executed error =>
    simp only [notes_append, notes_streamed streamed, notes_executed executed, notes_called_false,
      notes_wrote, notes_emits, List.nil_append]
    exact .toolFailed within error
  | finished streamed within executed finish =>
    simp only [notes_append, notes_streamed streamed, notes_executed executed, List.nil_append]
    exact finish.noted within fun e member =>
      fine e (List.mem_append_right _ (List.mem_append_right _ member))

/-- What is noted of a turn that is taken while the stores work. -/
theorem Turn.noted (course : Turn env run index totals seen result) (fine : ∀ e ∈ seen, e.Fine) :
    TurnNotes env run index totals (notes seen) result := by
  cases course with
  | unknown e =>
    obtain ⟨flag, failed⟩ : (Effect.polled (.error e)).Fine := fine _ (by simp)
    cases failed
  | aborted final =>
    simp only [notes_polled, notes_wrote, notes_marked, notes_emits]
    exact .aborted final
  | cancelled =>
    simp only [notes_polled, notes_checked, notes_nil]
    exact .cancelled
  | asked reply =>
    simp only [notes_polled, notes_checked, notes_append, notes_emits, notes_asked, List.nil_append]
    refine reply.noted fun e member => fine e ?_
    simp [member]

end Notes

/-! ## The trail of an execution -/

/-- The steps recorded. -/
def Effect.step : Effect → Option Step
  | .wrote step _ => some step
  | _ => none

def recordedSteps (seen : List Effect) : List Step := seen.filterMap Effect.step

def Effect.unsnapped : Effect → Bool
  | .snapshot ok => !ok
  | _ => false

/-- The last step that is recorded: the last step, unless the workspace could not be saved. -/
def lastRecorded (seen : List Effect) (lastStep : Int) : Int :=
  if seen.any Effect.unsnapped then lastStep - 1 else lastStep

def Effect.isAsked : Effect → Bool
  | .asked _ => true
  | _ => false

/-- How many requests the model was sent. -/
def askedTimes (seen : List Effect) : Nat := seen.countP Effect.isAsked

/-- What only notable effects show is read off the notes. -/
theorem filterMap_notes {f : Effect → Option α} (unseen : ∀ e, e.notable = false → f e = none)
    (seen : List Effect) : (notes seen).filterMap f = seen.filterMap f := by
  rw [notes, List.filterMap_filter]
  refine List.filterMap_congr fun e _ => ?_
  cases notable : e.notable with
  | true => rfl
  | false => exact (unseen e notable).symm

theorem recordedSteps_notes (seen : List Effect) : recordedSteps (notes seen) = recordedSteps seen :=
  filterMap_notes (fun e unseen => by cases e <;> first | rfl | cases unseen) seen

theorem lastRecorded_notes (seen : List Effect) (lastStep : Int) :
    lastRecorded (notes seen) lastStep = lastRecorded seen lastStep := by
  have same : ∀ e : Effect, (e.notable && e.unsnapped) = e.unsnapped := by
    intro e
    match e with
    | .called false | .called true | .snapshot false | .snapshot true => rfl
    | .asked _ | .wrote _ _ | .marked _ | .polled _ | .checked _ | .emitted _ | .stored _ => rfl
  unfold lastRecorded notes
  rw [List.any_filter]
  simp only [same]

theorem askedTimes_notes (seen : List Effect) : askedTimes (notes seen) = askedTimes seen := by
  unfold askedTimes notes
  rw [List.countP_filter]
  refine List.countP_congr fun e _ => ?_
  cases e <;> simp [Effect.isAsked, Effect.notable]

section Trail

variable {F : Type}

/-- The steps recorded run from an index to the last one, and the final step is that of a run
that did not fail. -/
structure Footprint (run : Run F) (index : Int) (status : TerminalStatus) (lastStep : Int)
    (seen : List Effect) : Prop where
  steps : ∀ i, (∃ step ∈ recordedSteps seen, step.stepIndex = i) ↔
    index ≤ i ∧ i ≤ lastRecorded seen lastStep
  sorted : (recordedSteps seen).Pairwise (·.stepIndex < ·.stepIndex)
  own : ∀ step ∈ recordedSteps seen, step.runID = run.runID
  final : ∀ step ∈ recordedSteps seen, step.type = .final →
    step.stepIndex = lastStep ∧ status ≠ failedStatus
  ended : status ≠ failedStatus → ∃ step ∈ recordedSteps seen, step.type = .final

/-- The same of some turns of the loop, which go on from where the turns before them left
off. -/
structure Trail (run : Run F) (index : Int) (status : TerminalStatus) (lastStep : Int)
    (seen : List Effect) : Prop extends Footprint run index status lastStep seen where
  starts : index - 1 ≤ lastRecorded seen lastStep

variable {run : Run F} {index lastStep : Int} {status : TerminalStatus} {seen : List Effect}

/-- No step is recorded. -/
theorem Footprint.none (none : recordedSteps seen = [])
    (last : lastRecorded seen lastStep < index) : Footprint run index failedStatus lastStep seen where
  steps i := by
    rw [none]
    refine iff_of_false ?_ (by omega)
    rintro ⟨step, member, -⟩
    cases member
  sorted := by rw [none]; exact .nil
  own := by simp [none]
  final := by simp [none]
  ended failed := absurd rfl failed

private theorem Trail.none (none : recordedSteps seen = [])
    (last : lastRecorded seen lastStep = index - 1) :
    Trail run index failedStatus lastStep seen where
  toFootprint := .none none (by omega)
  starts := last.ge

/-- One step is recorded. -/
theorem Trail.one {step : Step} (one : recordedSteps seen = [step])
    (last : lastRecorded seen lastStep = index) (same : lastStep = index)
    (own : step.runID = run.runID) (here : step.stepIndex = index)
    (final : step.type = .final ↔ status ≠ failedStatus) :
    Trail run index status lastStep seen where
  starts := by omega
  steps i := by
    rw [one, last]
    simp only [List.mem_singleton, exists_eq_left, here]
    omega
  sorted := by rw [one]; exact List.pairwise_singleton ..
  own := by simpa [one] using own
  final := by
    simp only [one, List.mem_singleton, forall_eq]
    exact fun isFinal => ⟨here.trans same.symm, final.mp isFinal⟩
  ended succeeded := ⟨step, by simp [one], final.mpr succeeded⟩

/-- A step and the trail of the steps after it. -/
theorem Trail.cons {step : Step} (trail : Trail run (index + 1) status lastStep later)
    (regular : RegularStep run index step)
    (steps : recordedSteps seen = step :: recordedSteps later)
    (last : lastRecorded seen lastStep = lastRecorded later lastStep) :
    Trail run index status lastStep seen where
  starts := by
    have room := trail.starts
    omega
  steps i := by
    have room := trail.starts
    have rest := trail.steps i
    rw [steps, last]
    simp only [List.exists_mem_cons_iff, rest, regular.index]
    omega
  sorted := by
    rw [steps, List.pairwise_cons]
    refine ⟨fun step' member => ?_, trail.sorted⟩
    have from' := ((trail.steps step'.stepIndex).mp ⟨step', member, rfl⟩).1
    rw [regular.index]
    omega
  own := by
    rw [steps]
    exact List.forall_mem_cons.mpr ⟨regular.runID, trail.own⟩
  final := by
    rw [steps]
    exact List.forall_mem_cons.mpr ⟨fun final => absurd final regular.type, trail.final⟩
  ended succeeded := by
    obtain ⟨step', member, final⟩ := trail.ended succeeded
    exact ⟨step', by simp [steps, member], final⟩

variable [Float64 F] {env : EngineEnv F} {totals : Totals F}

private theorem TurnNotes.trail
    (noted : TurnNotes env run index totals seen (.halted status lastStep)) :
    Trail run index status lastStep seen := by
  have fails : ∀ {step : Step}, step.type ≠ .final →
      (step.type = .final ↔ failedStatus ≠ failedStatus) :=
    fun other => iff_of_false other (not_not.mpr rfl)
  cases noted with
  | aborted final =>
    exact .one rfl rfl rfl final.runID final.index (iff_of_true final.type (by decide))
  | cancelled => exact .none rfl rfl
  | unanswered error | capped exceeded error | toolFailed within error =>
    exact .one rfl rfl rfl error.runID error.index (fails error.type)
  | unsnapped within => exact .none rfl rfl
  | truncated within regular =>
    exact .one rfl rfl rfl regular.runID regular.index (fails regular.type)
  | @final response step last answer answer' within regular final =>
    have rest : Trail run (index + 1) succeededStatus (index + 1)
        [.wrote last answer', .marked (index + 1)] :=
      .one rfl rfl rfl final.runID final.index (iff_of_true final.type (by decide))
    exact rest.cons regular rfl rfl

private theorem TurnNotes.askedTimes_le {result : TurnEnd F}
    (noted : TurnNotes env run index totals seen result) : askedTimes seen ≤ 1 := by
  cases noted with
  | aborted final => exact Nat.zero_le 1
  | cancelled => exact Nat.zero_le 1
  | _ => exact Nat.le_refl 1

private theorem TurnNotes.recordedSteps_le {result : TurnEnd F}
    (noted : TurnNotes env run index totals seen result) : (recordedSteps seen).length ≤ 2 := by
  cases noted with
  | cancelled | unsnapped within => exact Nat.zero_le 2
  | final within regular final => exact Nat.le_refl 2
  | _ => exact Nat.le_succ 1

/-- **The trail of the loop**, from any of its turns on: the requests are as many as the turns
at most, and the steps one more. -/
theorem Loop.trail {n : Nat} (loop : Loop env run start n index totals seen (.halted status lastStep))
    (room : index + n = start + env.maxSteps) (fine : ∀ e ∈ seen, e.Fine) :
    Trail run index status lastStep (notes seen) ∧ askedTimes (notes seen) ≤ n ∧
      (recordedSteps (notes seen)).length ≤ n + 1 := by
  generalize same : TurnEnd.halted status lastStep = result at loop
  induction loop with
  | exhausted =>
    cases same
    rw [notes_emits]
    refine ⟨.none rfl ?_, Nat.zero_le _, Nat.zero_le _⟩
    change start + env.maxSteps - 1 = _
    omega
  | broken turn => cases same
  | halted turn =>
    cases same
    have noted := turn.noted fine
    exact ⟨noted.trail, noted.askedTimes_le.trans (Nat.le_add_left ..),
      noted.recordedSteps_le.trans (Nat.le_add_left ..)⟩
  | @goesOn n index totals totals' seen later result turn rest ih =>
    obtain ⟨here, there⟩ := List.forall_mem_append.mp fine
    obtain ⟨trail, few, few'⟩ := ih (by push_cast at room; omega) there same
    have noted := turn.noted here
    rw [notes_append]
    generalize notes seen = l at noted
    refine ⟨?_, ?_, ?_⟩
    · cases noted with
      | goesOn within regular => exact trail.cons regular rfl rfl
    · have once := noted.askedTimes_le
      unfold askedTimes at *
      rw [List.countP_append]
      omega
    · cases noted with
      | goesOn within regular => exact Nat.succ_le_succ few'

end Trail

/-! ## What the store holds -/

section Held

variable {F : Type} {sha256 : Bytes → String} {others : World F → World F → Prop}
  {env : EngineEnv F} {task : Task F} {run : Run F} {w w' : World F}
  {exchanges : List (EngineExchange F)} {runID : String}

/-- These are the steps of the run in the store. -/
def Held (runID : String) (steps : List Step) (w : World F) : Prop :=
  ∀ i step, w.store.getStep runID i = .ok step ↔ step ∈ steps ∧ step.stepIndex = i

/-- Whatever the others do, they leave the steps of the run alone. -/
def StepsLeftAlone (runID : String) (others : World F → World F → Prop) : Prop :=
  ∀ w w', others w w' → ∀ i, w'.store.getStep runID i = w.store.getStep runID i

private theorem stepKey_inj {i j : Int} : stepKey runID i = stepKey runID j ↔ i = j := by
  refine ⟨fun same => ?_, fun same => same ▸ rfl⟩
  simp only [stepKey, ← String.toList_inj, String.toList_append, List.append_cancel_left_eq] at same
  exact GoText.padded_injective 8 (String.toList_inj.mp same)

theorem stepKey_run_inj {i : Int} : stepKey runID i = stepKey runID' i ↔ runID = runID' := by
  simp [stepKey, ← String.toList_inj]

theorem getStep_eq_ok {s : MemoryStore F} {step : Step} :
    s.getStep runID i = .ok step ↔ s.steps.lookup (stepKey runID i) = some step := by
  unfold MemoryStore.getStep
  cases s.steps.lookup (stepKey runID i) <;> simp

private theorem recordedSteps_effect (call : EngineCall F) (answer : call.Ans)
    (other : ∀ step, call ≠ .putStep step) : recordedSteps (effect ⟨call, answer⟩) = [] := by
  cases call with
  | putStep step => exact absurd rfl (other step)
  | executeTool _ _ =>
    match answer with
    | none | some (.error _) | some (.ok _) => rfl
  | artifactPut _ _ | workspaceSnapshot =>
    match answer with
    | .ok _ | .error _ => rfl
  | _ => rfl

theorem fine_of_succeeds (succeeded : ∀ x ∈ exchanges, succeeds x = true) :
    ∀ e ∈ exchanges.flatMap effect, e.Fine := by
  intro e member
  obtain ⟨⟨call, answer⟩, member, seen⟩ := List.mem_flatMap.mp member
  have done := succeeded _ member
  cases call with
  | isAbortRequested _ =>
    cases List.mem_singleton.mp seen
    match answer with
    | .ok flag => exact ⟨flag, rfl⟩
    | .error e => cases done
  | putStep step =>
    cases List.mem_singleton.mp seen
    match answer with
    | .ok () => exact rfl
    | .error e => cases done
  | artifactPut _ _ =>
    match answer with
    | .ok _ =>
      cases List.mem_singleton.mp seen
      exact rfl
    | .error e => cases done
  | workspaceSnapshot =>
    match answer with
    | .ok _ | .error _ =>
      cases List.mem_singleton.mp seen
      trivial
  | executeTool _ _ =>
    match answer with
    | none | some (.error _) | some (.ok _) =>
      cases List.mem_singleton.mp seen
      trivial
  | contextDone | putEvent _ | updateLastStepIndex _ _ _ | chat _ =>
    cases List.mem_singleton.mp seen
    trivial
  | _ => cases seen

private theorem ne_failedStatus (status : TerminalStatus) :
    status ≠ failedStatus ↔ status.1 = .succeeded ∨ status.1 = .aborted := by
  obtain ⟨status, terminal⟩ := status
  cases status with
  | queued | running => cases terminal
  | succeeded => exact iff_of_true (fun same => nomatch congrArg Subtype.val same) (.inl rfl)
  | aborted => exact iff_of_true (fun same => nomatch congrArg Subtype.val same) (.inr rfl)
  | failed => exact iff_of_false (not_not.mpr rfl) nofun

variable [Float64 F]

private theorem held_put {step : Step} (held : Held step.runID steps w)
    (ran : w.EngineRuns sha256 (.putStep step) (.ok ()) w') :
    Held step.runID (steps ++ [step]) w' := by
  obtain ⟨absent, put⟩ := engineRuns_putStep ran
  intro i step'
  rw [getStep_eq_ok, put, List.mem_append, List.mem_singleton]
  by_cases here : i = step.stepIndex
  · subst here
    rw [AList.lookup_insert, Option.some.injEq]
    constructor
    · rintro rfl
      exact ⟨.inr rfl, rfl⟩
    · rintro ⟨old | rfl, same⟩
      · have found := getStep_eq_ok.mp ((held _ step').mpr ⟨old, same⟩)
        rw [absent] at found
        cases found
      · rfl
  · rw [AList.lookup_insert_ne (mt stepKey_inj.mp here), ← getStep_eq_ok, held]
    constructor
    · rintro ⟨old, same⟩
      exact ⟨.inl old, same⟩
    · rintro ⟨old | rfl, same⟩
      · exact ⟨old, same⟩
      · exact absurd same.symm here

/-- **The store holds the steps the execution recorded.** -/
theorem Executes.held {p q : EngineProg F α} (executes : Executes sha256 others w p exchanges w' q)
    (apart : StepsLeftAlone runID others) (succeeded : ∀ x ∈ exchanges, succeeds x = true)
    (own : ∀ step ∈ recordedSteps (exchanges.flatMap effect), step.runID = runID)
    (none : Held runID [] w) : Held runID (recordedSteps (exchanges.flatMap effect)) w' := by
  have all : recordedSteps (exchanges.flatMap effect) =
      exchanges.flatMap fun x => recordedSteps (effect x) := List.filterMap_flatMap
  rw [all] at own ⊢
  rw [List.flatMap_eq_foldl]
  refine executes.noted (R := Held runID)
    (P := fun x => succeeds x = true ∧ ∀ step ∈ recordedSteps (effect x), step.runID = runID)
    none ?_ ?_ ?_
  · intro x member
    exact ⟨succeeded x member, fun step recorded => own step (List.mem_flatMap.mpr ⟨x, member, recorded⟩)⟩
  · rintro steps w call answer w' held ⟨done, mine⟩ ran
    by_cases puts : ∃ step, call = .putStep step
    · obtain ⟨step, rfl⟩ := puts
      obtain rfl : step.runID = runID := mine step (List.mem_singleton_self step)
      match answer with
      | .ok () => exact held_put held ran
      | .error e => cases done
    · have other := fun step same => puts ⟨step, same⟩
      rw [recordedSteps_effect call answer other, List.append_nil]
      intro i step
      rw [getStep_eq_ok, engineRuns_steps ran other, ← getStep_eq_ok]
      exact held i step
  · intro steps w w' held changed i step
    rw [apart w w' changed i]
    exact held i step

/-! ## The claims of the trail carried over -/

/-- The footprint of an execution, with the requests it takes and the steps it leaves. -/
theorem Course.footprint {seen : List Effect} {lastStep : Int}
    (course : Course env run task seen (.halted status lastStep)) (fine : ∀ e ∈ seen, e.Fine)
    (resumes : ∀ k, run.resumeFromStepIndex = some k → 0 ≤ k) :
    Footprint run (startStep run) status lastStep (notes seen) ∧
      askedTimes (notes seen) ≤ env.maxSteps.toNat ∧
      (recordedSteps (notes seen)).length ≤ env.maxSteps.toNat + 1 := by
  cases course with
  | rejected e invalid =>
    refine ⟨.none rfl ?_, Nat.zero_le _, Nat.zero_le _⟩
    change -1 < startStep run
    unfold startStep
    split
    · decide
    · rename_i k resumed
      have := resumes k resumed
      omega
  | loops valid loop =>
    by_cases positive : 0 ≤ env.maxSteps
    · obtain ⟨trail, few⟩ := loop.trail (by omega) fine
      exact ⟨trail.toFootprint, few⟩
    · have spent : env.maxSteps.toNat = 0 := by omega
      rw [spent] at loop ⊢
      cases loop with
      | exhausted =>
        rw [notes_emits]
        refine ⟨.none rfl ?_, Nat.zero_le _, Nat.zero_le _⟩
        change startStep run + env.maxSteps - 1 < startStep run
        omega

/-- **The steps of an execution.** With its stores working, an execution of a run without
steps leaves the steps from its first to its last one behind, except that the last is missing
if its workspace could not be saved. It sends no more requests than it may take steps, and a
final step is there, as the last one, just if the run succeeded or was aborted. -/
theorem execution_leaves_every_step {result : RunResult F}
    (executes : Executes sha256 others w (execute env task run) exchanges w' (.ret (.ok result)))
    (apart : StepsLeftAlone run.runID others) (succeeded : ∀ x ∈ exchanges, succeeds x = true)
    (unrecorded : ∀ i, w.store.getStep run.runID i = .error .notFound)
    (resumes : ∀ k, run.resumeFromStepIndex = some k → 0 ≤ k) :
    (∀ i, (∃ step, w'.store.getStep run.runID i = .ok step) ↔
      startStep run ≤ i ∧ i ≤ lastRecorded (exchanges.flatMap effect) result.lastStep) ∧
    askedTimes (exchanges.flatMap effect) ≤ env.maxSteps.toNat ∧
    ((∃ i step, w'.store.getStep run.runID i = .ok step ∧ step.type = .final) ↔
      result.status.1 = .succeeded ∨ result.status.1 = .aborted) ∧
    ∀ i step, w'.store.getStep run.runID i = .ok step → step.type = .final →
      i = result.lastStep := by
  have course : Course env run task (exchanges.flatMap effect) (.halted result.status result.lastStep) :=
    shows_execute task exchanges _ executes.trace
  obtain ⟨foot, few, -⟩ := course.footprint (fine_of_succeeds succeeded) resumes
  have none : Held run.runID [] w := by
    intro i step
    rw [unrecorded i]
    simp
  have own := foot.own
  rw [recordedSteps_notes] at own
  have held := executes.held apart succeeded own none
  have steps := foot.steps
  have final := foot.final
  have ended := foot.ended
  rw [recordedSteps_notes] at final ended
  simp only [recordedSteps_notes, lastRecorded_notes] at steps
  rw [askedTimes_notes] at few
  refine ⟨fun i => ?_, few, ?_, ?_⟩
  · rw [← steps i]
    simp only [held i]
  · rw [← ne_failedStatus]
    constructor
    · rintro ⟨i, step, found, isFinal⟩
      exact (final step ((held i step).mp found).1 isFinal).2
    · intro succeeded
      obtain ⟨step, member, isFinal⟩ := ended succeeded
      exact ⟨step.stepIndex, step, (held _ step).mpr ⟨member, rfl⟩, isFinal⟩
  · intro i step found isFinal
    obtain ⟨member, rfl⟩ := (held i step).mp found
    exact (final step member isFinal).1

end Held

/-- The model answers at once: its answer is the first step, and the final step follows. -/
theorem execution_leaves_every_step_answered :
    ∃ exchanges w' result,
      Executes plainEngine.sha256 (fun _ _ => False) freshWorld
        (execute plainEngine freshTask freshRun) exchanges w' (.ret (.ok result)) ∧
      result.status = succeededStatus ∧ result.lastStep = 1 ∧
      ∀ i, (∃ step, w'.store.getStep "run_1" i = .ok step) ↔ 0 ≤ i ∧ i ≤ 1 := by
  have executes : Executes _ (fun _ _ => False) _ _ _ _ _ :=
    plays_serve (engineRuns_serve plainEngine.sha256 (atOnce false (.ok lastWord))) freshWorld
      (execute plainEngine freshTask freshRun)
  refine ⟨_, _, ⟨succeededStatus, 1, "", 0, _⟩, executes, rfl, rfl, ?_⟩
  exact (execution_leaves_every_step executes nofun (List.all_eq_true.mp rfl) (fun _ => rfl)
    nofun).1

/-- The workspace cannot be saved: the last step is the first one, and it is not recorded. -/
theorem unsaved_step_unrecorded :
    ∃ exchanges w' result,
      Executes plainEngine.sha256 (fun _ _ => False) freshWorld
        (execute plainEngine freshTask freshRun) exchanges w' (.ret (.ok result)) ∧
      (∀ x ∈ exchanges, succeeds x = true) ∧
      (∀ i, freshWorld.store.getStep freshRun.runID i = .error .notFound) ∧
      startStep freshRun = 0 ∧ result.lastStep = 0 ∧
      w'.store.getStep freshRun.runID 0 = .error .notFound := by
  have executes : Executes _ (fun _ _ => False) _ _ _ _ _ :=
    plays_serve (engineRuns_serve plainEngine.sha256 fun
      | .workspaceSnapshot => .error "disk full"
      | call => atOnce false (.ok lastWord) call) freshWorld
      (execute plainEngine freshTask freshRun)
  exact ⟨_, _, ⟨failedStatus, 0, _, 0, _⟩, executes, List.all_eq_true.mp rfl, fun _ => rfl, rfl, rfl,
    rfl⟩

end AgentForge
