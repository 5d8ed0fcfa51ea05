import AgentForge.EventNumbers
import AgentForge.Executions

/-! How an execution tells its clients that it is over. The exits of `Execute` push a
`complete` or an `error` event by hand, and some of them push none: a prompt the policy
rejects, a context that is done, a checkpoint that cannot be saved and a step that cannot be
recorded. Those are all there are. -/
namespace AgentForge

/-! ## What is said -/

/-- The event that tells how a run ended. -/
def endEvent (status : TerminalStatus) : StreamEventType :=
  if status.1 = .failed then .error else .complete

/-- The types of the events emitted. -/
def emittedTypes {F : Type} (exchanges : List (EngineExchange F)) : List StreamEventType :=
  exchanges.filterMap fun
    | ⟨.putEvent event, _⟩ => some event.type
    | _ => none

/-- The last event tells how the run ended, and none before it does. -/
def TellsEnd (types : List StreamEventType) (status : TerminalStatus) : Prop :=
  ∃ before, types = before ++ [endEvent status] ∧ ∀ t ∈ before, t ≠ .complete ∧ t ≠ .error

/-- An answer on which `Execute` returns without a word: the context is done, an artifact or
the workspace was not saved, or the record of a step that went well was not written. -/
def Silences {F : Type} : EngineExchange F → Prop
  | ⟨.contextDone, done⟩ => done = true
  | ⟨.artifactPut .., answer⟩ => ∃ message, answer = .error message
  | ⟨.workspaceSnapshot, answer⟩ => ∃ message, answer = .error message
  | ⟨.putStep step, answer⟩ =>
    (∃ e, answer = .error e ∧ e ≠ .conflict) ∧ step.status = .ok ∧ step.type ≠ .final
  | _ => False

/-! ## The same of what is seen -/

/-- The same for what is seen of an exchange. -/
def Effect.Silences : Effect → Prop
  | .checked done => done = true
  | .stored ok => ok = false
  | .snapshot ok => ok = false
  | .wrote step answer =>
    (∃ e, answer = .error e ∧ e ≠ .conflict) ∧ step.status = .ok ∧ step.type ≠ .final
  | _ => False

/-- An event that tells an end. -/
def Effect.TellsEnd : Effect → Prop
  | .emitted type => type = .complete ∨ type = .error
  | _ => False

def Effect.emittedType : Effect → Option StreamEventType
  | .emitted type => some type
  | _ => none

/-- Neither an end nor a reason to be silent. -/
structure Effect.Plain (e : Effect) : Prop where
  untold : ¬ e.TellsEnd
  spoken : ¬ e.Silences

section Endings

variable {F : Type} {exchanges : List (EngineExchange F)}

private theorem emittedTypes_eq (exchanges : List (EngineExchange F)) :
    emittedTypes exchanges = (exchanges.flatMap effect).filterMap Effect.emittedType := by
  induction exchanges with
  | nil => rfl
  | cons exchange rest ih =>
    rw [List.flatMap_cons, List.filterMap_append, ← ih]
    obtain ⟨call, answer⟩ := exchange
    cases call with
    | executeTool _ _ =>
      match answer with
      | none | some (.error _) | some (.ok _) => rfl
    | artifactPut _ _ | workspaceSnapshot =>
      match answer with
      | .ok _ | .error _ => rfl
    | _ => rfl

private theorem silences_iff (exchange : EngineExchange F) :
    Silences exchange ↔ ∃ e ∈ effect exchange, e.Silences := by
  have single : ∀ e : Effect, (∃ e' ∈ [e], e'.Silences) ↔ e.Silences := by simp
  obtain ⟨call, answer⟩ := exchange
  cases call with
  | contextDone => exact (single (.checked answer)).symm
  | putStep step => exact (single (.wrote step answer)).symm
  | artifactPut _ _ =>
    obtain message | _ := answer
    · exact iff_of_true ⟨message, rfl⟩ ((single (.stored false)).mpr rfl)
    · refine iff_of_false ?_ (by simp [effect, Effect.Silences])
      rintro ⟨message, same⟩
      cases same
  | workspaceSnapshot =>
    obtain message | _ := answer
    · exact iff_of_true ⟨message, rfl⟩ ((single (.snapshot false)).mpr rfl)
    · refine iff_of_false ?_ (by simp [effect, Effect.Silences])
      rintro ⟨message, same⟩
      cases same
  | executeTool _ _ =>
    obtain _ | _ | _ := answer <;>
      exact iff_of_false not_false (by simp [effect, Effect.Silences])
  | chat _ =>
    obtain ⟨_, _⟩ := answer
    exact iff_of_false not_false (by simp [effect, Effect.Silences])
  | _ => exact iff_of_false not_false (by simp [effect, Effect.Silences])

/-- How what is seen of a run ends: with the one event that tells it, or with the one reason
not to. -/
inductive Ends (status : TerminalStatus) : List Effect → Prop where
  | told {before : List Effect} (plain : ∀ e ∈ before, e.Plain) :
      Ends status (before ++ [.emitted (endEvent status)])
  | silent {before : List Effect} {e : Effect} (plain : ∀ e ∈ before, e.Plain)
      (silences : e.Silences) (untold : ¬ e.TellsEnd) : Ends status (before ++ [e])

/-- What a turn comes to. -/
def EndsIn (seen : List Effect) : TurnEnd F → Prop
  | .broken => True
  | .halted status _ => Ends status seen
  | .goesOn _ => ∀ e ∈ seen, e.Plain

variable {env : EngineEnv F} {task : Task F} {run : Run F} {seen before : List Effect}
  {result : TurnEnd F} {e : Effect}

private theorem EndsIn.prepend (ends : EndsIn seen result) (plain : ∀ e ∈ before, e.Plain) :
    EndsIn (before ++ seen) result := by
  cases result with
  | broken => trivial
  | goesOn totals => exact List.forall_mem_append.mpr ⟨plain, ends⟩
  | halted status lastStep =>
    cases ends with
    | told plain' =>
      rw [← List.append_assoc]
      exact .told (List.forall_mem_append.mpr ⟨plain, plain'⟩)
    | silent plain' silences untold =>
      rw [← List.append_assoc]
      exact .silent (List.forall_mem_append.mpr ⟨plain, plain'⟩) silences untold

private theorem EndsIn.cons (ends : EndsIn seen result) (plain : e.Plain) :
    EndsIn (e :: seen) result := by
  have first : ∀ e' ∈ [e], e'.Plain := List.forall_mem_singleton.mpr plain
  exact ends.prepend first

private theorem endsIn_told :
    EndsIn (F := F) [.emitted (endEvent status)] (.halted status lastStep) := by
  have ends : Ends status ([] ++ [.emitted (endEvent status)]) := .told (by simp)
  exact ends

private theorem endsIn_silent (silences : e.Silences) (untold : ¬ e.TellsEnd) :
    EndsIn (F := F) [e] (.halted status lastStep) := by
  have ends : Ends status ([] ++ [e]) := .silent (by simp) silences untold
  exact ends

/-! ## What is plain -/

private theorem plain_emitted (goesOn : type ≠ .complete ∧ type ≠ .error) :
    (Effect.emitted type).Plain :=
  ⟨fun told => told.elim goesOn.1 goesOn.2, not_false⟩

private theorem plain_of_saved (saved : Saved seen) : ∀ e ∈ seen, e.Plain := by
  intro e member
  rcases saved e member with rfl | rfl
  · exact ⟨not_false, nofun⟩
  · exact ⟨not_false, nofun⟩

private theorem plain_of_streamed (streamed : Streamed seen) : ∀ e ∈ seen, e.Plain := by
  intro e member
  rw [streamed e member]
  exact plain_emitted (by decide)

private theorem plain_of_executed (executed : Executed seen) : ∀ e ∈ seen, e.Plain := by
  intro e member
  rcases executed e member with rfl | rfl | rfl
  · exact plain_emitted (by decide)
  · exact plain_emitted (by decide)
  · exact ⟨not_false, not_false⟩

private theorem plain_written (written : Written answer) : (Effect.wrote step answer).Plain := by
  refine ⟨not_false, ?_⟩
  rintro ⟨⟨e, failed, lost⟩, -⟩
  rcases written with rfl | rfl
  · cases failed
  · cases failed
    exact lost rfl

private theorem plain_errorStep (error : ErrorStep run index step) :
    (Effect.wrote step answer).Plain :=
  ⟨not_false, fun silences => nomatch error.status.symm.trans silences.2.1⟩

private theorem plain_finalStep (final : FinalStep run index step) :
    (Effect.wrote step answer).Plain :=
  ⟨not_false, fun silences => silences.2.2 final.type⟩

/-! ## Every exit -/

section Speaking

variable (speaks : env.hasPusher = true)

include speaks

private theorem emits_speaking (type : StreamEventType) : emits env type = [.emitted type] := by
  rw [emits, if_pos speaks]

private theorem Finish.endsIn (course : Finish env run index totals seen result) :
    EndsIn seen result := by
  have marked : ∀ index, (Effect.marked index).Plain := fun _ => ⟨not_false, not_false⟩
  have stepEnd : (Effect.emitted .stepEnd).Plain := plain_emitted (by decide)
  cases course with
  | unsaved saved failure =>
    refine (EndsIn.prepend ?_ (plain_of_saved saved))
    rcases failure with rfl | rfl
    · exact endsIn_silent rfl not_false
    · exact endsIn_silent rfl not_false
  | unwritten saved regular lost =>
    refine EndsIn.prepend ?_ (plain_of_saved saved)
    exact endsIn_silent ⟨⟨_, rfl, lost⟩, regular.status, regular.type⟩ not_false
  | goesOn saved regular written =>
    rw [emits_speaking speaks]
    refine List.forall_mem_append.mpr ⟨plain_of_saved saved, ?_⟩
    exact List.forall_mem_cons.mpr ⟨plain_written written, List.forall_mem_cons.mpr
      ⟨marked _, List.forall_mem_singleton.mpr stepEnd⟩⟩
  | truncated saved regular written =>
    rw [emits_speaking speaks, emits_speaking speaks]
    exact EndsIn.prepend (.cons (.cons (.cons endsIn_told stepEnd) (marked _))
      (plain_written written)) (plain_of_saved saved)
  | finalUnsaved saved regular written saved' =>
    rw [emits_speaking speaks, List.singleton_append]
    have last : (Effect.stored false).Silences := rfl
    exact EndsIn.prepend (.cons (.cons (.cons (.prepend (endsIn_silent last not_false)
      (plain_of_saved saved')) stepEnd) (marked _)) (plain_written written)) (plain_of_saved saved)
  | final saved regular written saved' final =>
    rw [emits_speaking speaks, emits_speaking speaks, List.singleton_append]
    exact EndsIn.prepend (.cons (.cons (.cons (.prepend (.cons (.cons endsIn_told (marked _))
      (plain_finalStep final)) (plain_of_saved saved')) stepEnd) (marked _))
      (plain_written written)) (plain_of_saved saved)

private theorem Reply.endsIn [Float64 F]
    (course : Reply env run index totals response seen result) : EndsIn seen result := by
  cases course with
  | unanswered streamed error | capped streamed exceeded error =>
    rw [emits_speaking speaks]
    exact EndsIn.prepend (.cons endsIn_told (plain_errorStep error)) (plain_of_streamed streamed)
  | toolFailed streamed within executed error =>
    rw [emits_speaking speaks]
    refine EndsIn.prepend (.prepend ?_ (plain_of_executed executed)) (plain_of_streamed streamed)
    exact EndsIn.cons (.cons endsIn_told (plain_errorStep error)) ⟨not_false, not_false⟩
  | finished streamed within executed finish =>
    exact EndsIn.prepend (.prepend (finish.endsIn speaks) (plain_of_executed executed))
      (plain_of_streamed streamed)

/-- A turn that goes on says nothing of an end; one that does not says it last, or has one
reason not to. -/
theorem Turn.endsIn [Float64 F]
    (course : Turn env run index totals seen result) : EndsIn seen result := by
  have polled : ∀ answer, (Effect.polled answer).Plain := fun _ => ⟨not_false, not_false⟩
  cases course with
  | unknown e => trivial
  | aborted final =>
    rw [emits_speaking speaks]
    exact EndsIn.cons (.cons (.cons endsIn_told ⟨not_false, not_false⟩) (plain_finalStep final))
      (polled _)
  | cancelled => exact EndsIn.cons (endsIn_silent rfl not_false) (polled _)
  | asked reply =>
    rw [emits_speaking speaks]
    have stepStart : (Effect.emitted .stepStart).Plain := plain_emitted (by decide)
    have response : ∀ answer, (Effect.asked answer).Plain := fun _ => ⟨not_false, not_false⟩
    exact EndsIn.cons (.cons (.cons (.cons (reply.endsIn speaks) (response _)) stepStart)
      ⟨not_false, nofun⟩) (polled _)

private theorem Loop.endsIn [Float64 F]
    (course : Loop env run start n index totals seen result) : EndsIn seen result := by
  induction course with
  | exhausted =>
    rw [emits_speaking speaks]
    exact endsIn_told
  | broken turn => trivial
  | halted turn => exact turn.endsIn speaks
  | goesOn turn rest ih => exact ih.prepend (turn.endsIn speaks)

end Speaking

private theorem endEvent_cases (status : TerminalStatus) :
    endEvent status = .complete ∨ endEvent status = .error := by
  unfold endEvent
  split
  · exact .inr rfl
  · exact .inl rfl

private theorem emittedType_eq_some (emitted : e.emittedType = some type) : e = .emitted type := by
  cases e with
  | emitted type' =>
    cases emitted
    rfl
  | _ => cases emitted

private theorem Ends.tellsEnd_iff (ends : Ends status seen) :
    TellsEnd (seen.filterMap Effect.emittedType) status ↔ ∀ e ∈ seen, ¬ e.Silences := by
  cases ends with
  | told plain =>
    refine iff_of_true ⟨_, List.filterMap_append, ?_⟩ (List.forall_mem_append.mpr
      ⟨fun e member => (plain e member).spoken, List.forall_mem_singleton.mpr not_false⟩)
    intro type member
    obtain ⟨e, member, emitted⟩ := List.mem_filterMap.mp member
    obtain rfl := emittedType_eq_some emitted
    exact not_or.mp (plain _ member).untold
  | @silent before e plain silences untold =>
    refine iff_of_false ?_ fun spoken => spoken e (List.mem_append_right _ (by simp)) silences
    rintro ⟨told, types, -⟩
    have last : endEvent status ∈ (before ++ [e]).filterMap Effect.emittedType := by
      rw [types]
      exact List.mem_append_right _ (by simp)
    obtain ⟨e', member, emitted⟩ := List.mem_filterMap.mp last
    obtain rfl := emittedType_eq_some emitted
    rcases List.mem_append.mp member with earlier | same
    · exact (plain _ earlier).untold (endEvent_cases status)
    · obtain rfl := List.mem_singleton.mp same
      exact untold (endEvent_cases status)

/-- **An execution tells how it ended, unless it has one of the reasons not to.** -/
theorem execution_tells_end_iff [Float64 F] (speaks : env.hasPusher = true)
    {result : RunResult F} (ran : (execute env task run).Trace exchanges (.ret (.ok result))) :
    TellsEnd (emittedTypes exchanges) result.status ↔
      env.policy.validate env.lower task.prompt = .ok () ∧ ∀ x ∈ exchanges, ¬ Silences x := by
  have course : Course env run task (exchanges.flatMap effect) (.halted result.status result.lastStep) :=
    shows_execute task exchanges _ ran
  have unsilenced : (∀ e ∈ exchanges.flatMap effect, ¬ e.Silences) ↔
      ∀ x ∈ exchanges, ¬ Silences x := by
    simp only [List.forall_mem_flatMap, silences_iff, not_exists, not_and]
  rw [emittedTypes_eq]
  generalize exchanges.flatMap effect = seen at course unsilenced ⊢
  generalize result.status = status, result.lastStep = lastStep at course ⊢
  cases course with
  | rejected e invalid =>
    refine iff_of_false ?_ fun heard => nomatch invalid.symm.trans heard.1
    rintro ⟨before, types, -⟩
    cases before <;> cases types
  | loops valid loop =>
    rw [← unsilenced, and_iff_right valid]
    exact Ends.tellsEnd_iff (loop.endsIn speaks)

end Endings

/-! ## Two executions -/

private theorem atOnce_unsilenced (call : EngineCall Rat) :
    ¬ Silences ⟨call, atOnce false (.ok lastWord) call⟩ := by
  cases call with
  | contextDone => exact Bool.false_ne_true
  | artifactPut _ _ | workspaceSnapshot =>
    rintro ⟨message, failed⟩
    cases failed
  | putStep step =>
    rintro ⟨⟨e, failed, -⟩, -⟩
    cases failed
  | _ => exact not_false

/-- The model answers at once, and the clients are told that the run is complete. -/
theorem execution_tells_end_answered :
    ∃ exchanges result,
      (execute streamingEngine freshTask freshRun).Trace exchanges (.ret (.ok result)) ∧
      result.status = succeededStatus ∧ TellsEnd (emittedTypes exchanges) result.status := by
  have ran := Prog.run_trace (atOnce false (.ok lastWord)) (execute streamingEngine freshTask freshRun)
  have chosen := Prog.run_chosen (atOnce false (.ok lastWord)) (execute streamingEngine freshTask freshRun)
  refine ⟨_, ⟨succeededStatus, 1, "", 0, _⟩, ran, rfl, ?_⟩
  refine (execution_tells_end_iff rfl ran).mpr ⟨rfl, fun x member => ?_⟩
  obtain ⟨call, answer⟩ := x
  obtain rfl : answer = atOnce false (.ok lastWord) call := chosen _ member
  exact atOnce_unsilenced call

/-- The context is done: the run has failed and no event says so. -/
theorem cancelled_run_tells_nothing :
    ∃ exchanges result,
      (execute streamingEngine freshTask freshRun).Trace exchanges (.ret (.ok result)) ∧
      result.status = failedStatus ∧ ¬ TellsEnd (emittedTypes exchanges) result.status := by
  have ran := Prog.run_trace (atOnce true (.ok lastWord)) (execute streamingEngine freshTask freshRun)
  refine ⟨_, ⟨failedStatus, -1, "context cancelled", 0, _⟩, ran, rfl, ?_⟩
  rintro ⟨before, types, -⟩
  have none : emittedTypes ((execute streamingEngine freshTask freshRun).run (atOnce true (.ok lastWord))).1 = [] :=
    rfl
  rw [none] at types
  cases before <;> cases types

end AgentForge
