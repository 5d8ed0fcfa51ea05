import AgentForge.StepTrace

/-! When an abort takes effect. `Execute` looks at the abort flag once a turn, before it asks
the model. So wherever the flag is set, the turn that is under way may still ask the model and
run its tools, and the next one ends the run. -/
namespace AgentForge

/-! ## Polls, requests and tool calls -/

def Effect.isPoll : Effect → Bool
  | .polled _ => true
  | _ => false

/-- How many turns were begun. -/
def polls (seen : List Effect) : Nat := seen.countP Effect.isPoll

/-- Work of the model or of a tool. -/
def Effect.isWork : Effect → Bool
  | .asked _ | .called _ => true
  | _ => false

section Turns

variable {F : Type} {env : EngineEnv F} {task : Task F} {run : Run F} {index : Int}
  {seen : List Effect} {result : TurnEnd F}

/-- Neither a poll nor a request. -/
def Effect.Inside (e : Effect) : Prop := e.isPoll = false ∧ e.isAsked = false

private theorem inside_emits (type : StreamEventType) : ∀ e ∈ emits env type, e.Inside := by
  intro e member
  unfold emits at member
  split at member
  · cases List.mem_singleton.mp member
    exact ⟨rfl, rfl⟩
  · cases member

private theorem inside_of_saved (saved : Saved seen) : ∀ e ∈ seen, e.Inside := by
  intro e member
  rcases saved e member with rfl | rfl
  · exact ⟨rfl, rfl⟩
  · exact ⟨rfl, rfl⟩

private theorem inside_of_streamed (streamed : Streamed seen) : ∀ e ∈ seen, e.Inside := by
  intro e member
  rw [streamed e member]
  exact ⟨rfl, rfl⟩

private theorem inside_of_executed (executed : Executed seen) : ∀ e ∈ seen, e.Inside := by
  intro e member
  rcases executed e member with rfl | rfl | rfl
  · exact ⟨rfl, rfl⟩
  · exact ⟨rfl, rfl⟩
  · exact ⟨rfl, rfl⟩

theorem Finish.inside (course : Finish env run index totals seen result) :
    ∀ e ∈ seen, e.Inside := by
  have wrote : ∀ step answer, (Effect.wrote step answer).Inside := fun _ _ => ⟨rfl, rfl⟩
  have marked : ∀ index, (Effect.marked index).Inside := fun _ => ⟨rfl, rfl⟩
  cases course with
  | unsaved saved failure =>
    refine List.forall_mem_append.mpr ⟨inside_of_saved saved, List.forall_mem_singleton.mpr ?_⟩
    rcases failure with rfl | rfl
    · exact ⟨rfl, rfl⟩
    · exact ⟨rfl, rfl⟩
  | unwritten saved regular lost =>
    exact List.forall_mem_append.mpr ⟨inside_of_saved saved, List.forall_mem_singleton.mpr (wrote ..)⟩
  | goesOn saved regular written =>
    simp only [List.forall_mem_append, List.forall_mem_cons]
    exact ⟨inside_of_saved saved, wrote _ _, marked _, inside_emits _⟩
  | truncated saved regular written =>
    simp only [List.forall_mem_append, List.forall_mem_cons]
    exact ⟨inside_of_saved saved, wrote _ _, marked _, inside_emits _, inside_emits _⟩
  | finalUnsaved saved regular written saved' =>
    simp only [List.forall_mem_append, List.forall_mem_cons]
    exact ⟨inside_of_saved saved, wrote _ _, marked _, inside_emits _, inside_of_saved saved',
      ⟨rfl, rfl⟩, by simp⟩
  | final saved regular written saved' final =>
    simp only [List.forall_mem_append, List.forall_mem_cons]
    exact ⟨inside_of_saved saved, wrote _ _, marked _, inside_emits _, inside_of_saved saved',
      wrote _ _, marked _, inside_emits _⟩

private theorem askedTimes_inside (inside : ∀ e ∈ seen, e.Inside) : askedTimes seen = 0 :=
  List.countP_eq_zero.mpr fun e member => by simp [(inside e member).2]

/-- A turn polls first and never again, and asks once at most. If the flag is set it does no
work and ends the run; if it is not, the turn may do anything else. -/
inductive Polled (index : Int) : List Effect → TurnEnd F → Prop where
  | unknown (e : StoreError) : Polled index [.polled (.error e)] .broken
  | set {reason : String} {rest : List Effect} (idle : ∀ e ∈ rest, e.Inside ∧ e.isWork = false) :
      Polled index (.polled (.ok (true, reason)) :: rest) (.halted abortedStatus index)
  | unset {reason : String} {rest : List Effect} {result : TurnEnd F}
      (once : ∀ e ∈ rest, e.isPoll = false) (asks : askedTimes rest ≤ 1) :
      Polled index (.polled (.ok (false, reason)) :: rest) result

private theorem polls_eq_zero (once : ∀ e ∈ seen, e.isPoll = false) : polls seen = 0 :=
  List.countP_eq_zero.mpr fun e member => by simp [once e member]

theorem Polled.polls_eq (polled : Polled index seen result) : polls seen = 1 := by
  have first : ∀ answer rest, (∀ e ∈ rest, e.isPoll = false) →
      polls (.polled answer :: rest) = 1 := by
    intro answer rest once
    have none := polls_eq_zero once
    unfold polls at *
    rw [List.countP_cons_of_pos rfl, none]
  cases polled with
  | unknown e => rfl
  | set idle => exact first _ _ fun e member => (idle e member).1.1
  | unset once asks => exact first _ _ once

/-! ## The flag is set -/

/-- Every poll finds the flag set. -/
def FlagSet (seen : List Effect) : Prop :=
  ∀ answer, .polled answer ∈ seen → ∃ reason, answer = .ok (true, reason)

/-- What is left of a turn once the flag is set: all of it, and the run is over; or what
follows the poll. -/
theorem Polled.rest (polled : Polled index (earlier ++ later) result) (flag : FlagSet later) :
    ((∀ e ∈ later, e.isWork = false) ∧ ∃ i, result = .halted abortedStatus i) ∨
      ((∀ e ∈ later, e.isPoll = false) ∧ askedTimes later ≤ 1 ∧ earlier ≠ []) := by
  generalize whole : earlier ++ later = seen at polled
  cases earlier with
  | nil =>
    rw [List.nil_append] at whole
    subst whole
    cases polled with
    | unknown e | unset once asks =>
      obtain ⟨reason, same⟩ := flag _ (List.mem_cons_self ..)
      cases same
    | set idle => exact .inl ⟨List.forall_mem_cons.mpr ⟨rfl, fun e member => (idle e member).2⟩, _, rfl⟩
  | cons first earlier =>
    have asks : ∀ {rest : List Effect}, earlier ++ later = rest → askedTimes rest ≤ 1 →
        askedTimes later ≤ 1 := by
      rintro rest rfl few
      unfold askedTimes at *
      rw [List.countP_append] at few
      omega
    refine .inr ?_
    cases polled with
    | unknown e =>
      obtain ⟨-, rfl⟩ := List.append_eq_nil_iff.mp (List.cons.inj whole).2
      exact ⟨by simp, Nat.zero_le 1, by simp⟩
    | set idle =>
      have rest := (List.cons.inj whole).2
      refine ⟨fun e member => ?_, asks rest ?_, by simp⟩
      · exact (idle e (rest ▸ List.mem_append_right _ member)).1.1
      · rw [askedTimes_inside fun e member => (idle e member).1]
        exact Nat.zero_le 1
    | unset once few =>
      have rest := (List.cons.inj whole).2
      exact ⟨fun e member => once e (rest ▸ List.mem_append_right _ member), asks rest few, by simp⟩

/-- What is seen once the flag is set: one request at most, no work after a poll, and if
there is a poll the run ends aborted. -/
structure Honoured (later : List Effect) (result : TurnEnd F) : Prop where
  asks : askedTimes later ≤ 1
  idle : ∀ before answer after, later = before ++ .polled answer :: after →
    ∀ e ∈ after, e.isWork = false
  ends : (∃ e ∈ later, e.isPoll = true) → ∃ i, result = .halted abortedStatus i

private theorem askedTimes_idle (idle : ∀ e ∈ seen, e.isWork = false) : askedTimes seen = 0 := by
  refine List.countP_eq_zero.mpr fun e member asked => ?_
  have none := idle e member
  cases e <;> simp_all [Effect.isAsked, Effect.isWork]

theorem Honoured.of_idle (idle : ∀ e ∈ later, e.isWork = false)
    (ends : (∃ e ∈ later, e.isPoll = true) → ∃ i, result = .halted abortedStatus i) :
    Honoured later result where
  asks := (askedTimes_idle idle).trans_le (Nat.zero_le 1)
  idle before answer after split e member := idle e (by simp [split, member])
  ends := ends

theorem Honoured.of_inside (once : ∀ e ∈ later, e.isPoll = false) (asks : askedTimes later ≤ 1) :
    Honoured later result where
  asks := asks
  idle before answer after split := by
    have poll := once (.polled answer) (by simp [split])
    cases poll
  ends := by
    rintro ⟨e, member, poll⟩
    rw [once e member] at poll
    cases poll

/-- A turn that begins with the flag set. -/
theorem Polled.idle (polled : Polled index seen result) (flag : FlagSet seen) :
    (∀ e ∈ seen, e.isWork = false) ∧ ∃ i, result = .halted abortedStatus i := by
  have whole : Polled index ([] ++ seen) result := polled
  rcases whole.rest flag with halted | ⟨-, -, begun⟩
  · exact halted
  · exact absurd rfl begun

variable [Float64 F]

theorem Reply.inside (course : Reply env run index totals response seen result) :
    ∀ e ∈ seen, e.Inside := by
  have wrote : ∀ step answer, (Effect.wrote step answer).Inside := fun _ _ => ⟨rfl, rfl⟩
  cases course with
  | unanswered streamed error | capped streamed exceeded error =>
    simp only [List.forall_mem_append, List.forall_mem_cons]
    exact ⟨inside_of_streamed streamed, wrote _ _, inside_emits _⟩
  | toolFailed streamed within executed error =>
    simp only [List.forall_mem_append, List.forall_mem_cons]
    exact ⟨inside_of_streamed streamed, inside_of_executed executed, ⟨rfl, rfl⟩, wrote _ _,
      inside_emits _⟩
  | finished streamed within executed finish =>
    simp only [List.forall_mem_append]
    exact ⟨inside_of_streamed streamed, inside_of_executed executed, finish.inside⟩

theorem Turn.polled (course : Turn env run index totals seen result) : Polled index seen result := by
  cases course with
  | unknown e => exact .unknown e
  | aborted final =>
    refine .set ?_
    simp only [List.forall_mem_cons]
    refine ⟨⟨⟨rfl, rfl⟩, rfl⟩, ⟨⟨rfl, rfl⟩, rfl⟩, fun e member => ⟨inside_emits _ e member, ?_⟩⟩
    unfold emits at member
    split at member
    · cases List.mem_singleton.mp member
      rfl
    · cases member
  | cancelled => exact .unset (by simp [Effect.isPoll]) (Nat.zero_le 1)
  | asked reply =>
    refine .unset ?_ ?_
    · simp only [List.forall_mem_cons, List.forall_mem_append]
      exact ⟨rfl, fun e member => (inside_emits _ e member).1, rfl, fun e member =>
        (reply.inside e member).1⟩
    · have before := askedTimes_inside (@inside_emits F env .stepStart)
      have after := askedTimes_inside reply.inside
      unfold askedTimes at *
      rw [List.countP_cons_of_neg (by decide), List.countP_append, before,
        List.countP_cons_of_pos rfl, after]

/-- The loop, if the flag is set from its first turn on. -/
theorem Loop.idle (loop : Loop env run start n index totals seen result) (flag : FlagSet seen) :
    (∀ e ∈ seen, e.isWork = false) ∧
      ((∃ e ∈ seen, e.isPoll = true) → ∃ i, result = .halted abortedStatus i) := by
  have unset : ∀ {totals' : Totals F} {i : Int},
      TurnEnd.goesOn totals' ≠ .halted abortedStatus i := nofun
  cases loop with
  | exhausted =>
    constructor
    · intro e member
      unfold emits at member
      split at member
      · cases List.mem_singleton.mp member
        rfl
      · cases member
    · rintro ⟨e, member, poll⟩
      rw [(inside_emits _ e member).1] at poll
      cases poll
  | broken turn | halted turn =>
    obtain ⟨idle, ends⟩ := turn.polled.idle flag
    exact ⟨idle, fun _ => ends⟩
  | goesOn turn rest =>
    obtain ⟨-, i, ends⟩ := turn.polled.idle fun answer member =>
      flag answer (List.mem_append_left _ member)
    exact absurd ends unset

/-- **The loop, if the flag is set at any point of it.** -/
theorem Loop.honoured (loop : Loop env run start n index totals seen result)
    (split : seen = earlier ++ later) (flag : FlagSet later) : Honoured later result := by
  induction loop generalizing earlier with
  | exhausted =>
    have inside : ∀ e ∈ later, e.Inside := fun e member =>
      @inside_emits F env .error e (split ▸ List.mem_append_right _ member)
    refine .of_inside (fun e member => (inside e member).1) ?_
    rw [askedTimes_inside inside]
    exact Nat.zero_le 1
  | broken turn | halted turn =>
    subst split
    rcases turn.polled.rest flag with ⟨idle, ends⟩ | ⟨once, asks, -⟩
    · exact .of_idle idle fun _ => ends
    · exact .of_inside once asks
  | @goesOn n index totals totals' first rest result turn loop ih =>
    rcases List.append_eq_append_iff.mp split with ⟨between, rfl, rfl⟩ | ⟨between, rfl, rfl⟩
    -- The flag is set after this turn.
    · exact ih rfl
    -- The flag is set during this turn: what is left of it, then a turn that ends the run.
    · rcases turn.polled.rest fun answer member => flag answer (List.mem_append_left _ member) with
        ⟨-, i, ends⟩ | ⟨once, asks, -⟩
      · cases ends
      · obtain ⟨idle, ends⟩ := loop.idle fun answer member =>
          flag answer (List.mem_append_right _ member)
        refine ⟨?_, ?_, ?_⟩
        · have none := askedTimes_idle idle
          unfold askedTimes at *
          rw [List.countP_append]
          omega
        · intro before answer after split e member
          rcases List.append_eq_append_iff.mp split with ⟨more, rfl, rfl⟩ | ⟨more, rfl, same⟩
          · exact idle e (by simp [member])
          · cases more with
            | nil =>
              rw [List.nil_append] at same
              exact idle e (same ▸ List.mem_cons_of_mem _ member)
            | cons poll more =>
              cases (List.cons.inj same).1
              have poll := once (.polled answer) (by simp)
              cases poll
        · rintro ⟨e, member, poll⟩
          rcases List.mem_append.mp member with here | there
          · rw [once e here] at poll
            cases poll
          · exact ends ⟨e, there, poll⟩

theorem Course.honoured (course : Course env run task (earlier ++ later) result)
    (flag : FlagSet later) :
    Honoured later result := by
  generalize whole : earlier ++ later = seen at course
  cases course with
  | rejected e invalid | unrestored valid =>
    obtain ⟨rfl, rfl⟩ := List.append_eq_nil_iff.mp whole
    exact .of_inside (by simp) (Nat.zero_le 1)
  | loops valid loop => exact loop.honoured whole.symm flag

/-! ## The step in progress -/

/-- So many turns were begun, or the last one ended the run. -/
def Completed (env : EngineEnv F) (task : Task F) (run : Run F) (n : Nat) (result : RunResult F)
    (exchanges : List (EngineExchange F)) : Prop :=
  polls (exchanges.flatMap effect) = n ∨ ∃ before during index st, exchanges = before ++ during ∧
    (executeStep env task run index st).Trace during (.ret (.ok (.error result)))

theorem Completed.prepend {result : RunResult F} (begun : polls (before.flatMap effect) = m)
    (completed : Completed env task run n result after) :
    Completed env task run (m + n) result (before ++ after) := by
  rcases completed with all | ⟨before', during, index, st, rfl, step⟩
  · refine .inl ?_
    unfold polls at *
    rw [List.flatMap_append, List.countP_append, begun, all]
  · exact .inr ⟨before ++ before', during, index, st, by simp, step⟩

private theorem completed_executeLoop {result : RunResult F} (start : Int) (n : Nat)
    (st : LoopState F)
    (trace : (executeLoop env task run start n index st).Trace exchanges (.ret (.ok result))) :
    Completed env task run n result exchanges := by
  induction n generalizing index st exchanges with
  | zero =>
    have loop := shows_executeLoop index task start 0 st exchanges _ trace
    refine .inl ?_
    generalize exchanges.flatMap effect = seen at loop
    generalize executionEnd (.ok result) = ended at loop
    cases loop with
    | exhausted => exact polls_eq_zero fun e member => (inside_emits _ e member).1
  | succ n ih =>
    obtain ⟨before, value, after, rfl, first, second⟩ := trace.of_bind_ret
    match value with
    | .error e => cases second
    | .ok (.error result') =>
      cases second
      exact .inr ⟨[], before, index, st, by simp, first⟩
    | .ok (.ok st') =>
      have turn := (shows_executeStep index task st before _ first).polled.polls_eq
      rw [Nat.add_comm]
      exact (ih st' second).prepend turn

/-- An execution that made any call and returned a result used up its turns, or its last turn
ended the run. -/
theorem completed_execute {result : RunResult F}
    (trace : (execute env task run).Trace exchanges (.ret (.ok result))) (began : exchanges ≠ []) :
    Completed env task run env.maxSteps.toNat result exchanges := by
  unfold execute at trace
  split at trace
  · cases trace
    exact absurd rfl began
  · cases trace
    exact absurd rfl began
  split at trace
  · exact completed_executeLoop _ _ _ trace
  · obtain ⟨before, answer, after, rfl, first, second⟩ := trace.of_bind_ret
    have none : polls (before.flatMap effect) = 0 := by
      cases first with
      | step answer rest =>
        cases rest
        rfl
    rw [← Nat.zero_add env.maxSteps.toNat]
    refine Completed.prepend none ?_
    cases answer with
    | error e => cases second
    | ok step =>
      dsimp only at second
      split at second
      · exact completed_executeLoop _ _ _ second
      · obtain ⟨before', restored, after', rfl, first', second'⟩ := second.of_bind_ret
        have unseen := Prog.Shows.nothing (uses_restoreCheckpoint ..) (fun _ answer restores =>
          effect_of_restores restores answer) before' _ first'
        rw [← Nat.zero_add env.maxSteps.toNat]
        refine Completed.prepend (by rw [unseen]; rfl) ?_
        cases restored with
        | error e => cases second'
        | ok messages => exact completed_executeLoop _ _ _ second'

end Turns

/-! ## An abort in the world -/

section World

variable {F : Type} [Float64 F] {sha256 : Bytes → String} {env : EngineEnv F} {task : Task F}
  {run : Run F}

/-- A call is carried out or fails; looking at the abort flag does not fail. -/
def CarriesOut (sha256 : Bytes → String) (w : World F) (call : EngineCall F) (answer : call.Ans)
    (w' : World F) : Prop :=
  w.EngineRuns sha256 call answer w' ∨
    ((∀ taskID, call ≠ .isAbortRequested taskID) ∧ call.Fault answer ∧ w' = w)

/-- The abort flag of the task is set. -/
def AbortRequested (taskID : String) (w : World F) : Prop :=
  ∃ reason, w.store.isAbortRequested taskID = .ok (true, reason)

omit [Float64 F] in
/-- Only a look at the flag is seen as one. -/
theorem polled_effect (seen : .polled flag ∈ effect ⟨call, answer⟩) :
    ∃ taskID, (⟨call, answer⟩ : EngineExchange F) = ⟨.isAbortRequested taskID, flag⟩ := by
  cases call with
  | isAbortRequested taskID =>
    cases List.mem_singleton.mp seen
    exact ⟨taskID, rfl⟩
  | executeTool _ _ =>
    match answer with
    | none | some (.error _) | some (.ok _) => cases List.mem_singleton.mp seen
  | artifactPut _ _ | workspaceSnapshot =>
    match answer with
    | .ok _ | .error _ => cases List.mem_singleton.mp seen
  | contextDone | putEvent _ | updateLastStepIndex _ _ _ | chat _ | putStep _ =>
    cases List.mem_singleton.mp seen
  | _ => cases seen

private theorem engineRuns_tasks {w w' : World F} {answer : call.Ans}
    (ran : w.EngineRuns sha256 call answer w') : w'.store.tasks = w.store.tasks := by
  cases engineRuns_effect ran <;> rfl

/-- From the time the flag is set, and as long as it is not cleared, every look at it finds it
set. -/
theorem flagSet_of_plays {others : World F → World F → Prop}
    (plays : Plays (CarriesOut sha256) others w p exchanges w' q)
    (uses : p.Uses (EngineCall.Own task run)) (requested : AbortRequested task.taskID w)
    (kept : ∀ w w', others w w' → AbortRequested task.taskID w → AbortRequested task.taskID w') :
    FlagSet (exchanges.flatMap effect) := by
  induction plays with
  | here w p =>
    intro answer member
    cases member
  | @call w w' w'' request resume answer exchanges q ran _ ih =>
    have requested' : AbortRequested task.taskID w' := by
      obtain ⟨reason, set⟩ := requested
      refine ⟨reason, ?_⟩
      rcases ran with ran | ⟨-, -, rfl⟩
      · unfold MemoryStore.isAbortRequested at set ⊢
        rw [engineRuns_tasks ran]
        exact set
      · exact set
    intro flag member
    rw [List.flatMap_cons, List.mem_append] at member
    rcases member with here | later
    · obtain ⟨taskID, same⟩ := polled_effect here
      cases same
      obtain rfl : taskID = task.taskID := uses.1
      obtain ⟨reason, set⟩ := requested
      rcases ran with ⟨told, -⟩ | ⟨never, -⟩
      · exact ⟨reason, told.trans set⟩
      · exact absurd rfl (never task.taskID)
    · exact ih (uses.2 answer) requested' flag later
  | other changed _ ih => exact ih uses (kept _ _ changed requested)

private theorem carriesOut_serve (sha256 : Bytes → String)
    (outside : (call : EngineCall F) → call.Ans) (w : World F) (call : EngineCall F) :
    CarriesOut sha256 w call (w.serve sha256 outside call).1 (w.serve sha256 outside call).2 :=
  .inl (engineRuns_serve sha256 outside w call)

/-- Answers that bring any program to its end, with the flag set. -/
def aborting : (call : EngineCall F) → call.Ans
  | .now => (0 : Int)
  | .contextDone => true
  | .getStep .. => .error .notFound
  | .isAbortRequested _ => .ok (true, "")
  | .putStep _ | .updateLastStepIndex .. | .addRunUsage .. | .putEvent _ | .deleteConnection _ =>
    .ok ()
  | .getConnectionsByTask _ => .ok []
  | .push .. => .cancelled
  | .artifactPut .. | .artifactGet _ | .workspaceSnapshot | .workspaceRestore _ => .error ""
  | .chat _ => ([], .error "")
  | .executeTool .. => none

variable {others others' : World F → World F → Prop} {w w' w'' : World F}
  {q r : EngineProg F (Except EngineError (RunResult F))} {earlier later : List (EngineExchange F)}

/-- An execution may stop anywhere with the flag set; it can always be brought to its end. -/
theorem honoured_of_flagSet (before : (execute env task run).Trace earlier q)
    (after : q.Trace later r) (flag : FlagSet (later.flatMap effect)) :
    Honoured ((later ++ (r.run aborting).1).flatMap effect) (executionEnd (r.run aborting).2) := by
  have whole := before.append (after.append (Prog.run_trace aborting r))
  have course := shows_execute task _ _ whole
  rw [List.flatMap_append] at course
  refine course.honoured fun answer member => ?_
  rw [List.flatMap_append, List.mem_append] at member
  rcases member with here | rest
  · exact flag answer here
  · obtain ⟨⟨call, answer'⟩, member, seen⟩ := List.mem_flatMap.mp rest
    obtain ⟨taskID, same⟩ := polled_effect seen
    cases same
    exact ⟨"", Prog.run_chosen aborting r _ member⟩

/-- **An abort is honoured within one step.** Wherever in an execution the abort flag is set,
and if it is not cleared, the model is asked once more at most, and once the flag has been
looked at no model is asked and no tool called any more. The run ends aborted, unless the flag
is never looked at again: the step under way when it was set ended the run, or the run had no
step left. -/
theorem abort_honoured_within_a_step
    (before : Plays (CarriesOut sha256) others w (execute env task run) earlier w' q)
    (requested : AbortRequested task.taskID w')
    (after : Plays (CarriesOut sha256) others' w' q later w'' r)
    (kept : ∀ w w', others' w w' → AbortRequested task.taskID w → AbortRequested task.taskID w') :
    askedTimes (later.flatMap effect) ≤ 1 ∧
    (∀ first answer rest, later.flatMap effect = first ++ .polled answer :: rest →
      ∀ e ∈ rest, e.isWork = false) ∧
    ∀ result, r = .ret (.ok result) → earlier ++ later ≠ [] →
      result.status = abortedStatus ∨
      (polls (later.flatMap effect) = 0 ∧
        (polls (earlier.flatMap effect) = env.maxSteps.toNat ∨
          ∃ first during index st, earlier ++ later = first ++ during ∧
            first.length < earlier.length ∧
            (executeStep env task run index st).Trace during (.ret (.ok (.error result))))) := by
  have flag := flagSet_of_plays after ((own_execute env task run).rest before.trace) requested kept
  have honoured := honoured_of_flagSet before.trace after.trace flag
  refine ⟨?_, ?_, ?_⟩
  · have asks := honoured.asks
    unfold askedTimes at *
    rw [List.flatMap_append, List.countP_append] at asks
    omega
  · intro first answer rest split e member
    refine honoured.idle first answer (rest ++ (r.run aborting).1.flatMap effect) ?_ e
      (List.mem_append_left _ member)
    rw [List.flatMap_append, split, List.append_assoc, List.cons_append]
  · rintro result rfl began
    have ends : (∃ e ∈ later.flatMap effect, e.isPoll = true) →
        ∃ i, executionEnd (.ok result) = .halted abortedStatus i := by
      have ends := honoured.ends
      rw [show (Prog.ret (.ok result) : EngineProg F (Except EngineError (RunResult F))).run aborting
        = ([], .ok result) from rfl, List.append_nil] at ends
      exact ends
    by_cases looked : ∃ e ∈ later.flatMap effect, e.isPoll = true
    · obtain ⟨i, same⟩ := ends looked
      exact .inl (TurnEnd.halted.inj same).1
    · have unseen : polls (later.flatMap effect) = 0 :=
        polls_eq_zero fun e member => Bool.eq_false_iff.mpr fun poll => looked ⟨e, member, poll⟩
      refine .inr ⟨unseen, ?_⟩
      rcases completed_execute (before.trace.append after.trace) began with
        all | ⟨first, during, index, st, split, step⟩
      · rw [List.flatMap_append, polls, List.countP_append] at all
        exact .inl (by unfold polls at *; omega)
      · refine .inr ⟨first, during, index, st, split, ?_, step⟩
        -- The last step began with a look at the flag, which was before the flag was set.
        have poll := (shows_executeStep index task st during _ step).polled.polls_eq
        rcases List.append_eq_append_iff.mp split with ⟨more, rfl, rfl⟩ | ⟨more, rfl, rfl⟩
        · rw [List.flatMap_append, polls, List.countP_append] at unseen
          unfold polls at poll
          omega
        · cases more with
          | nil =>
            rw [List.nil_append, unseen] at poll
            cases poll
          | cons x more => simp

end World

/-- The flag is set once the first turn has looked at it: that turn asks the model, and the
second ends the run. -/
theorem abort_honoured_midway :
    ∃ earlier later w w' q result,
      Plays (CarriesOut plainEngine.sha256)
        (fun w w' => w' = w.after (w.store.setAbortRequested w.clock "task_1" "enough")) freshWorld
        (execute plainEngine freshTask freshRun) earlier w q ∧
      AbortRequested "task_1" w ∧
      Plays (CarriesOut plainEngine.sha256) (fun _ _ => False) w q later w' (.ret (.ok result)) ∧
      askedTimes (later.flatMap effect) = 1 ∧ result.status = abortedStatus := by
  have before : Plays (CarriesOut plainEngine.sha256)
      (fun w w' => w' = w.after (w.store.setAbortRequested w.clock "task_1" "enough")) freshWorld
      (execute plainEngine freshTask freshRun) _ _ _ :=
    .call (.inl ⟨rfl, rfl⟩) (.other rfl (.here _ _))
  have serves := carriesOut_serve plainEngine.sha256 (atOnce false (.ok longAnswer))
  have requested : AbortRequested "task_1"
      (freshWorld.after (freshWorld.store.setAbortRequested 0 "task_1" "enough")) := ⟨"enough", rfl⟩
  have alone : ∀ w w' : World Rat, False → AbortRequested "task_1" w → AbortRequested "task_1" w' :=
    fun _ _ never => never.elim
  refine ⟨_, _, _, _, _, ⟨abortedStatus, 1, "", 60, _⟩, before, requested, plays_serve serves _ _,
    rfl, ?_⟩
  rcases (abort_honoured_within_a_step before requested (plays_serve serves _ _) alone).2.2 _ rfl
    (List.cons_ne_nil _ _) with aborted | ⟨unseen, -⟩
  · exact aborted
  · cases unseen

end AgentForge
