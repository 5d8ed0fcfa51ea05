import AgentForge.EngineCalls

/-! What a turn of the loop of `Execute` can do. Of the calls of an execution those are
seen that the outside can tell it by: the polls of the abort flag and of the context, the
events, the requests to the model and the tools, the artifacts and the step records.
`Turn` lists every course a turn can take, with what it leaves the loop with; what is true
of all of them is true of every turn. -/
namespace AgentForge

/-- What is seen of a call and its answer. -/
inductive Effect where
  | polled (answer : Except StoreError (Bool × String))
  | checked (done : Bool)
  | emitted (type : StreamEventType)
  | asked (answer : Except String LLMResponse)
  | called (executed : Bool)
  | stored (ok : Bool)
  | snapshot (ok : Bool)
  | wrote (step : Step) (answer : Except StoreError Unit)
  | marked (index : Int)

section Turns

variable {F : Type}

/-- An exchange of the engine with its surroundings. -/
abbrev EngineExchange (F : Type) := Prog.Exchange (EngineCall F) EngineCall.Ans

/-- What is seen of an exchange. A tool that is not registered is answered all the same. -/
def effect : EngineExchange F → List Effect
  | ⟨.isAbortRequested _, answer⟩ => [.polled answer]
  | ⟨.contextDone, done⟩ => [.checked done]
  | ⟨.putEvent event, _⟩ => [.emitted event.type]
  | ⟨.chat _, (_, answer)⟩ => [.asked answer]
  | ⟨.executeTool .., some (.error _)⟩ => [.called false]
  | ⟨.executeTool .., _⟩ => [.called true]
  | ⟨.artifactPut .., .ok _⟩ => [.stored true]
  | ⟨.artifactPut .., .error _⟩ => [.stored false]
  | ⟨.workspaceSnapshot, .ok _⟩ => [.snapshot true]
  | ⟨.workspaceSnapshot, .error _⟩ => [.snapshot false]
  | ⟨.putStep step, answer⟩ => [.wrote step answer]
  | ⟨.updateLastStepIndex _ _ index, _⟩ => [.marked index]
  | _ => []

/-- The tokens and the cost of an execution so far. -/
structure Totals (F : Type) where
  tokens : Int64
  cost : F

def LoopState.totals (st : LoopState F) : Totals F := ⟨st.totalTokens, st.totalCost⟩

/-- The totals with one more response. -/
def Totals.add [Float64 F] (env : EngineEnv F) (t : Totals F) (response : LLMResponse) :
    Totals F where
  tokens := match response.tokenUsage with
    | some usage => t.tokens + usage.total
    | none => t.tokens
  cost := Float64.add t.cost (estimateUsageCostUSD env response.modelID response.tokenUsage)

/-- What a turn leaves the loop with: `Execute` returns an error or a result, or goes on. -/
inductive TurnEnd (F : Type) where
  | broken
  | halted (status : TerminalStatus) (lastStep : Int)
  | goesOn (totals : Totals F)

def turnEnd : Except EngineError (Except (RunResult F) (LoopState F)) → TurnEnd F
  | .error _ => .broken
  | .ok (.error result) => .halted result.status result.lastStep
  | .ok (.ok st) => .goesOn st.totals

/-- The same for the end of a step. -/
def finishEnd (result : Except (RunResult F) (LoopState F)) : TurnEnd F := turnEnd (.ok result)

/-! ## The courses -/

/-- The record of a step that went well. -/
structure RegularStep (run : Run F) (index : Int) (step : Step) : Prop where
  runID : step.runID = run.runID
  index : step.stepIndex = index
  status : step.status = .ok
  type : step.type ≠ .final

/-- The record of a step that failed. -/
structure ErrorStep (run : Run F) (index : Int) (step : Step) : Prop where
  runID : step.runID = run.runID
  index : step.stepIndex = index
  status : step.status = .error
  type : step.type ≠ .final

/-- The record of the end of a run. -/
structure FinalStep (run : Run F) (index : Int) (step : Step) : Prop where
  runID : step.runID = run.runID
  index : step.stepIndex = index
  type : step.type = .final

/-- Two records of one step that differ in their fields at most. -/
structure Step.Alike (a b : Step) : Prop where
  runID : a.runID = b.runID
  index : a.stepIndex = b.stepIndex
  type : a.type = b.type
  status : a.status = b.status

/-- Artifacts were saved, and all of them were. -/
def Saved (seen : List Effect) : Prop := ∀ e ∈ seen, e = .stored true ∨ e = .snapshot true

/-- The tokens of a response were pushed. -/
def Streamed (seen : List Effect) : Prop := ∀ e ∈ seen, e = .emitted .tokenChunk

/-- Tools were executed and their calls and results pushed. -/
def Executed (seen : List Effect) : Prop :=
  ∀ e ∈ seen, e = .emitted .toolCall ∨ e = .emitted .toolResult ∨ e = .called true

variable (env : EngineEnv F) (run : Run F) (index : Int)

/-- An event, if there is anyone to push events. -/
def emits (type : StreamEventType) : List Effect :=
  if env.hasPusher then [.emitted type] else []

/-- The record was written, or found written before. -/
def Written (answer : Except StoreError Unit) : Prop := answer = .ok () ∨ answer = .error .conflict

/-- How a step ends whose tools have run. -/
inductive Finish (totals : Totals F) : List Effect → TurnEnd F → Prop where
  | unsaved {saves : List Effect} {e : Effect} (saved : Saved saves)
      (failure : e = .stored false ∨ e = .snapshot false) :
      Finish totals (saves ++ [e]) (.halted failedStatus index)
  | unwritten {saves : List Effect} {step : Step} {e : StoreError} (saved : Saved saves)
      (regular : RegularStep run index step) (lost : e ≠ .conflict) :
      Finish totals (saves ++ [.wrote step (.error e)]) (.halted failedStatus index)
  | goesOn {saves : List Effect} {step : Step} {answer : Except StoreError Unit}
      (saved : Saved saves) (regular : RegularStep run index step) (written : Written answer) :
      Finish totals (saves ++ .wrote step answer :: .marked index :: emits env .stepEnd)
        (.goesOn totals)
  | truncated {saves : List Effect} {step : Step} {answer : Except StoreError Unit}
      (saved : Saved saves) (regular : RegularStep run index step) (written : Written answer) :
      Finish totals
        (saves ++ .wrote step answer :: .marked index :: (emits env .stepEnd ++ emits env .error))
        (.halted failedStatus index)
  | finalUnsaved {saves saves' : List Effect} {step : Step} {answer : Except StoreError Unit}
      (saved : Saved saves) (regular : RegularStep run index step) (written : Written answer)
      (saved' : Saved saves') :
      Finish totals
        (saves ++ .wrote step answer :: .marked index ::
          (emits env .stepEnd ++ (saves' ++ [.stored false])))
        (.halted failedStatus (index + 1))
  | final {saves saves' : List Effect} {step last : Step} {answer answer' : Except StoreError Unit}
      (saved : Saved saves) (regular : RegularStep run index step) (written : Written answer)
      (saved' : Saved saves') (final : FinalStep run (index + 1) last) :
      Finish totals
        (saves ++ .wrote step answer :: .marked index :: (emits env .stepEnd ++
          (saves' ++ .wrote last answer' :: .marked (index + 1) :: emits env .complete)))
        (.halted succeededStatus (index + 1))

section Caps

variable [Float64 F]

/-- The caps of the run are not exceeded. -/
def WithinCaps (totals : Totals F) : Prop :=
  checkBudgetExceeded run.modelConfig totals.tokens totals.cost = none

/-- What follows the model's answer. -/
inductive Reply (totals : Totals F) : Except String LLMResponse → List Effect → TurnEnd F → Prop where
  | unanswered {message : String} {tokens : List Effect} {step : Step}
      {answer : Except StoreError Unit} (streamed : Streamed tokens)
      (error : ErrorStep run index step) :
      Reply totals (.error message) (tokens ++ .wrote step answer :: emits env .error)
        (.halted failedStatus index)
  | capped {response : LLMResponse} {tokens : List Effect} {step : Step}
      {answer : Except StoreError Unit} (streamed : Streamed tokens)
      (exceeded : ¬ WithinCaps run (totals.add env response)) (error : ErrorStep run index step) :
      Reply totals (.ok response) (tokens ++ .wrote step answer :: emits env .error)
        (.halted failedStatus index)
  | toolFailed {response : LLMResponse} {tokens tools : List Effect} {step : Step}
      {answer : Except StoreError Unit} (streamed : Streamed tokens)
      (within : WithinCaps run (totals.add env response)) (executed : Executed tools)
      (error : ErrorStep run index step) :
      Reply totals (.ok response)
        (tokens ++ (tools ++ .called false :: .wrote step answer :: emits env .error))
        (.halted failedStatus index)
  | finished {response : LLMResponse} {tokens tools rest : List Effect} {result : TurnEnd F}
      (streamed : Streamed tokens) (within : WithinCaps run (totals.add env response))
      (executed : Executed tools)
      (finish : Finish env run index (totals.add env response) rest result) :
      Reply totals (.ok response) (tokens ++ (tools ++ rest)) result

/-- A turn of the loop, with the totals it begins with. -/
inductive Turn (totals : Totals F) : List Effect → TurnEnd F → Prop where
  | unknown (e : StoreError) : Turn totals [.polled (.error e)] .broken
  | aborted {reason : String} {step : Step} {answer : Except StoreError Unit}
      (final : FinalStep run index step) :
      Turn totals (.polled (.ok (true, reason)) :: .wrote step answer :: .marked index ::
        emits env .complete) (.halted abortedStatus index)
  | cancelled {reason : String} :
      Turn totals [.polled (.ok (false, reason)), .checked true] (.halted failedStatus (index - 1))
  | asked {reason : String} {response : Except String LLMResponse} {rest : List Effect}
      {result : TurnEnd F} (reply : Reply env run index totals response rest result) :
      Turn totals (.polled (.ok (false, reason)) :: .checked false ::
        (emits env .stepStart ++ .asked response :: rest)) result

/-- The turns of the loop, so many at most, from an index and the totals on. -/
inductive Loop (start : Int) : Nat → Int → Totals F → List Effect → TurnEnd F → Prop where
  | exhausted {index : Int} {totals : Totals F} :
      Loop start 0 index totals (emits env .error) (.halted failedStatus (start + env.maxSteps - 1))
  | broken {n : Nat} {index : Int} {totals : Totals F} {seen : List Effect}
      (turn : Turn env run index totals seen .broken) : Loop start (n + 1) index totals seen .broken
  | halted {n : Nat} {index : Int} {totals : Totals F} {seen : List Effect}
      {status : TerminalStatus} {lastStep : Int}
      (turn : Turn env run index totals seen (.halted status lastStep)) :
      Loop start (n + 1) index totals seen (.halted status lastStep)
  | goesOn {n : Nat} {index : Int} {totals totals' : Totals F} {seen later : List Effect}
      {result : TurnEnd F} (turn : Turn env run index totals seen (.goesOn totals'))
      (rest : Loop start n (index + 1) totals' later result) :
      Loop start (n + 1) index totals (seen ++ later) result

/-- What an execution ends with. -/
def executionEnd : Except EngineError (RunResult F) → TurnEnd F
  | .error _ => .broken
  | .ok result => .halted result.status result.lastStep

/-- The first step of a run. -/
def startStep (run : Run F) : Int :=
  match run.resumeFromStepIndex with
  | none => 0
  | some stepIdx => stepIdx + 1

/-- An execution: a prompt the policy rejects, a checkpoint that cannot be restored, or the
loop. -/
inductive Course (task : Task F) : List Effect → TurnEnd F → Prop where
  | rejected (e : PromptError) (invalid : env.policy.validate env.lower task.prompt = .error e) :
      Course task [] (.halted failedStatus (-1))
  | unrestored (valid : env.policy.validate env.lower task.prompt = .ok ()) :
      Course task [] .broken
  | loops {seen : List Effect} {result : TurnEnd F}
      (valid : env.policy.validate env.lower task.prompt = .ok ())
      (loop : Loop env run (startStep run) env.maxSteps.toNat (startStep run) ⟨0, Float64.lit 0⟩
        seen result) :
      Course task seen result

end Caps

/-! ## Every turn takes one of them -/

section Shows

variable {env run} (task : Task F)

private theorem effect_of_notifies (notifies : call.Notifies) (answer : call.Ans) :
    effect ⟨call, answer⟩ = [] := by
  cases call with
  | getConnectionsByTask _ | push _ _ | deleteConnection _ => rfl
  | _ => exact notifies.elim

private theorem shows_pushEvent (eventSeq : Int) (type : StreamEventType) (data : EventData F) :
    (pushEvent env task run eventSeq type data).Shows effect fun seen _ => seen = emits env type := by
  unfold pushEvent emits
  cases env.hasPusher with
  | false => exact .ret rfl
  | true =>
    refine .call_then fun now => .call_then fun _ => .call_then fun conns => ?_
    cases conns with
    | error e => exact .ret rfl
    | ok conns =>
      refine (Prog.Shows.nothing (uses_pushTargets ..) fun _ answer notifies =>
        effect_of_notifies notifies answer).then fun stale => ?_
      exact (Prog.Shows.nothing (uses_deleteConnections _) fun _ answer notifies =>
        effect_of_notifies notifies answer).then fun _ => .ret rfl

private theorem shows_pushTokens (stepIdx : Int) (tokens : List String) (eventSeq : Int) :
    (pushTokens env task run stepIdx tokens eventSeq).Shows effect fun seen _ => Streamed seen := by
  induction tokens generalizing eventSeq with
  | nil => exact .ret (by simp [Streamed])
  | cons token rest ih =>
    unfold pushTokens
    split
    · exact ih eventSeq
    · refine (shows_pushEvent task _ _ _).then fun seq => (ih seq).mono fun later _ streamed => ?_
      intro e member
      rcases List.mem_append.mp member with here | later
      · unfold emits at here
        split at here
        · exact List.mem_singleton.mp here
        · cases here
      · exact streamed e later

private theorem shows_writeErrorStep (index : Int) (start : Time) (code message : String) :
    (writeErrorStep run index start code message).Shows effect fun seen _ =>
      ∃ step answer, seen = [.wrote step answer] ∧ ErrorStep run index step := by
  refine .call_then fun now => .call_then fun answer => .ret ?_
  exact ⟨_, answer, rfl, rfl, rfl, rfl, nofun⟩

/-- Long fields are stored elsewhere; what else the step says stays. -/
theorem shows_externalizeStepField (stepIdx : Int) (field value : String) :
    (externalizeStepField env task run stepIdx field value).Shows effect fun seen result =>
      (∃ value', result = .ok value' ∧ Saved seen) ∨
        ∃ message, result = .error message ∧ seen = [.stored false] := by
  unfold externalizeStepField
  split
  · exact .ret (.inl ⟨value, rfl, by simp [Saved]⟩)
  · refine .call_then fun answer => ?_
    cases answer with
    | error message => exact .ret (.inr ⟨_, rfl, rfl⟩)
    | ok stored => exact .ret (.inl ⟨_, rfl, by simp [Saved, effect]⟩)

private theorem Saved.append (saved : Saved seen) (saved' : Saved later) :
    Saved (seen ++ later) := by
  intro e member
  rcases List.mem_append.mp member with first | second
  · exact saved e first
  · exact saved' e second

private theorem shows_externalizeLargeStepFields (step : Step) :
    (externalizeLargeStepFields env task run step).Shows effect fun seen result =>
      (∃ step', result = .ok step' ∧ step'.Alike step ∧ Saved seen) ∨
        ∃ message saves, result = .error message ∧ Saved saves ∧ seen = saves ++ [.stored false] := by
  refine (shows_externalizeStepField task _ _ _).bind fun seen input shown => ?_
  rcases shown with ⟨input, rfl, saved⟩ | ⟨message, rfl, rfl⟩
  · refine (shows_externalizeStepField task _ _ _).bind fun later output shown => ?_
    rcases shown with ⟨output, rfl, saved'⟩ | ⟨message, rfl, rfl⟩
    · refine .ret (.inl ⟨_, rfl, ⟨rfl, rfl, rfl, rfl⟩, ?_⟩)
      rw [List.append_nil]
      exact saved.append saved'
    · exact .ret (.inr ⟨message, seen, rfl, saved, by simp⟩)
  · exact .ret (.inr ⟨message, [], rfl, by simp [Saved], rfl⟩)

/-- The end of a run whose answer is final. -/
theorem shows_writeFinalStep (stepEnd : Time) (content : String) (checkpoint : CheckpointRef)
    (st : LoopState F) {step : Step} (saved : Saved saves) (regular : RegularStep run index step)
    (written : Written answer) :
    (writeFinalStep env task run index stepEnd content checkpoint st).Shows effect
      fun seen result => Finish env run index st.totals
        (saves ++ .wrote step answer :: .marked index :: (emits env .stepEnd ++ seen))
        (finishEnd (.error result)) := by
  refine (shows_externalizeLargeStepFields task _).bind fun seen step shown => ?_
  rcases shown with ⟨last, rfl, alike, saved'⟩ | ⟨message, saves', rfl, saved', rfl⟩
  · refine .call_then fun answer' => .call_then fun _ => ?_
    refine (shows_pushEvent task _ _ _).then fun _ => .ret ?_
    rw [List.append_nil]
    exact .final saved regular written saved' ⟨alike.runID, alike.index, alike.type⟩
  · refine .ret ?_
    rw [List.append_nil]
    exact .finalUnsaved saved regular written saved'

/-- What follows the record of a step. -/
theorem shows_afterStep (stepEnd : Time) (latency : Int) (response : LLMResponse)
    (calls : List ToolCall) (checkpoint : CheckpointRef) (st : LoopState F) {step : Step}
    (saved : Saved saves) (regular : RegularStep run index step) (written : Written answer) :
    (afterStep env task run index stepEnd latency response calls checkpoint st).Shows effect
      fun seen result => Finish env run index st.totals (saves ++ .wrote step answer :: seen)
        (finishEnd result) := by
  refine .call_then fun _ => (shows_pushEvent task _ _ _).then fun seq => ?_
  dsimp only
  split
  · split
    · refine (shows_pushEvent task _ _ _).then fun _ => .ret ?_
      rw [List.append_nil]
      exact .truncated saved regular written
    · refine .ret ?_
      rw [List.append_nil]
      exact .goesOn saved regular written
  · split
    · refine (shows_writeFinalStep index task _ _ _ { st with eventSeq := seq } saved regular
        written).bind fun seen result shown => .ret ?_
      rw [List.append_nil]
      exact shown
    · refine .ret ?_
      rw [List.append_nil]
      exact .goesOn saved regular written

private theorem shows_saveMemory (mem : MemorySnapshot) :
    (saveMemory env task mem).Shows effect fun seen result =>
      (∃ ref, result = .ok ref ∧ Saved seen) ∨
        ∃ message, result = .error message ∧ seen = [.stored false] := by
  refine .call_then fun answer => ?_
  cases answer with
  | error message => exact .ret (.inr ⟨_, rfl, rfl⟩)
  | ok stored => exact .ret (.inl ⟨_, rfl, by simp [Saved, effect]⟩)

private theorem shows_snapshotWorkspace :
    (snapshotWorkspace task run index).Shows effect fun seen result =>
      (∃ ref, result = .ok ref ∧ Saved seen) ∨ ∃ message saves e, result = .error message ∧
        Saved saves ∧ seen = saves ++ [e] ∧ (e = .stored false ∨ e = .snapshot false) := by
  refine .call_then fun answer => ?_
  cases answer with
  | error message => exact .ret (.inr ⟨_, [], _, rfl, by simp [Saved], rfl, .inr rfl⟩)
  | ok data =>
    refine .call_then fun answer => ?_
    cases answer with
    | error message =>
      exact .ret (.inr ⟨_, [.snapshot true], _, rfl, by simp [Saved], rfl, .inl rfl⟩)
    | ok stored => exact .ret (.inl ⟨_, rfl, by simp [Saved, effect]⟩)

private theorem Finish.cast {index : Int} {seen seen' : List Effect}
    (course : Finish env run index totals seen result) (same : seen' = seen) :
    Finish env run index totals seen' result :=
  same ▸ course

private theorem shows_finishStep (stepStart : Time) (response : LLMResponse) (calls : List ToolCall)
    (tools : ToolLoop) (st : LoopState F) :
    (finishStep env task run index stepStart response calls tools st).Shows effect
      fun seen result => Finish env run index st.totals seen (finishEnd result) := by
  refine .call_then fun stepEnd => ?_
  refine (shows_saveMemory task _).bind fun seen memory shown => ?_
  rcases shown with ⟨memory, rfl, saved⟩ | ⟨message, rfl, rfl⟩
  · refine (shows_snapshotWorkspace index task).bind fun seen' workspace shown => ?_
    rcases shown with ⟨workspace, rfl, saved'⟩ | ⟨message, saves, e, rfl, saved', rfl, failure⟩
    · refine (shows_externalizeLargeStepFields task _).bind fun seen'' step shown => ?_
      rcases shown with ⟨step, rfl, alike, saved''⟩ | ⟨message, saves, rfl, saved'', rfl⟩
      · have all : Saved (seen ++ (seen' ++ seen'')) := saved.append (saved'.append saved'')
        have regular : RegularStep run index step := by
          refine ⟨alike.runID, alike.index, alike.status, ?_⟩
          rw [alike.type]
          dsimp only
          split <;> nofun
        refine .call_then fun answer => ?_
        match answer with
        | .ok () =>
          exact (shows_afterStep index task _ _ _ _ _ _ all regular (.inl rfl)).mono
            fun later result course => course.cast (by simp [effect])
        | .error .conflict =>
          exact (shows_afterStep index task _ _ _ _ _ _ all regular (.inr rfl)).mono
            fun later result course => course.cast (by simp [effect])
        | .error .notFound =>
          exact .ret (Finish.cast (.unwritten (e := .notFound) all regular nofun) (by simp [effect]))
        | .error .alreadyExists =>
          exact .ret (Finish.cast (.unwritten (e := .alreadyExists) all regular nofun)
            (by simp [effect]))
        | .error (.other message) =>
          exact .ret (Finish.cast (.unwritten (e := .other message) all regular nofun)
            (by simp [effect]))
      · have all : Saved (seen ++ (seen' ++ saves)) := saved.append (saved'.append saved'')
        exact .ret (Finish.cast (.unsaved all (.inl rfl)) (by simp [effect]))
    · exact .ret (Finish.cast (.unsaved (saved.append saved') failure) (by simp [effect]))
  · exact .ret (Finish.cast (.unsaved (by simp [Saved] : Saved []) (.inl rfl)) (by simp [effect]))

private theorem executed_emits (ofTool : type = .toolCall ∨ type = .toolResult) :
    Executed (emits env type) := by
  intro e member
  unfold emits at member
  split at member
  · cases List.mem_singleton.mp member
    rcases ofTool with rfl | rfl
    · exact .inl rfl
    · exact .inr (.inl rfl)
  · cases member

private theorem Executed.append (executed : Executed seen) (executed' : Executed later) :
    Executed (seen ++ later) := by
  intro e member
  rcases List.mem_append.mp member with first | second
  · exact executed e first
  · exact executed' e second

/-- The tools of a step were all executed, or one could not be. -/
theorem shows_executeTools (stepStart : Time) (st : LoopState F) (calls : List ToolCall)
    (acc : ToolLoop) :
    (executeTools env task run index stepStart st calls acc).Shows effect fun seen result =>
      (∃ tools, result = .ok tools ∧ Executed seen) ∨
        ∃ message tools step answer, result = .error (st.result failedStatus index message) ∧
          Executed tools ∧ ErrorStep run index step ∧
          seen = tools ++ .called false :: .wrote step answer :: emits env .error := by
  induction calls generalizing acc with
  | nil => exact .ret (.inl ⟨acc, rfl, by simp [Executed]⟩)
  | cons tc rest ih =>
    refine (shows_pushEvent task _ _ _).then fun seq => .call_then fun answer => ?_
    have announced : Executed (emits env .toolCall) := executed_emits (.inl rfl)
    -- The call was executed: its result is pushed and the others follow.
    have goes : ∀ output, Prog.Shows effect (fun seen result =>
        (∃ tools, result = .ok tools ∧ Executed (emits env .toolCall ++ ([.called true] ++ seen))) ∨
          ∃ message tools step answer, result = .error (st.result failedStatus index message) ∧
            Executed tools ∧ ErrorStep run index step ∧
            emits env .toolCall ++ ([.called true] ++ seen) =
              tools ++ .called false :: .wrote step answer :: emits env .error)
        (do
          let seq ← pushEvent env task run seq .toolResult
            [("tool", .text tc.name), ("output", .text output)]
          executeTools env task run index stepStart st rest {
            messages := acc.messages ++ [{ role := .tool, toolCallID := tc.id, content := output }]
            outputs := acc.outputs ++ [(tc.name, tc.id, output)]
            output := output, eventSeq := seq }) := by
      intro output
      refine (shows_pushEvent task _ _ _).then fun seq => (ih _).mono fun seen result shown => ?_
      have before : Executed (emits env .toolCall ++ ([.called true] ++ emits env .toolResult)) :=
        announced.append (Executed.append (by simp [Executed]) (executed_emits (.inr rfl)))
      rcases shown with ⟨tools, rfl, executed⟩ | ⟨message, tools, step, answer, rfl, executed, error, rfl⟩
      · refine .inl ⟨tools, rfl, ?_⟩
        simpa using before.append executed
      · exact .inr ⟨message, _, step, answer, rfl, before.append executed, error, by simp⟩
    match answer with
    | none => exact goes _
    | some (.ok result) => exact goes _
    | some (.error message) =>
      refine (shows_writeErrorStep index _ _ _).bind fun seen _ shown => ?_
      obtain ⟨step, answer, rfl, error⟩ := shown
      refine (shows_pushEvent task _ _ _).then fun _ => .ret (.inr ?_)
      exact ⟨_, _, step, answer, rfl, announced, error, by simp [effect]⟩

theorem effect_of_restores (restores : call.Restores) (answer : call.Ans) :
    effect ⟨call, answer⟩ = [] := by
  cases call with
  | artifactGet _ | workspaceRestore _ => rfl
  | _ => exact restores.elim

variable [Float64 F]

/-- **A turn of the loop takes one of the courses.** -/
theorem shows_executeStep (st : LoopState F) :
    (executeStep env task run index st).Shows effect fun seen result =>
      Turn env run index st.totals seen (turnEnd result) := by
  refine .call_then fun answer => ?_
  match answer with
  | .error e => exact .ret (.unknown e)
  | .ok (true, reason) =>
    refine .call_then fun now => .call_then fun answer => .call_then fun _ => ?_
    refine (shows_pushEvent task _ _ _).then fun _ => .ret ?_
    rw [List.append_nil]
    exact .aborted ⟨rfl, rfl, rfl⟩
  | .ok (false, reason) =>
    refine .call_then fun done => ?_
    cases done with
    | true => exact .ret .cancelled
    | false =>
      refine (shows_pushEvent task _ _ _).then fun seq => .call_then fun stepStart => ?_
      refine .call_then fun answer => ?_
      obtain ⟨tokens, response⟩ := answer
      refine (shows_pushTokens task _ _ _).bind fun streamed seq pushed => ?_
      suffices course : Prog.Shows effect (fun seen result =>
          Reply env run index st.totals response (streamed ++ seen) (turnEnd result)) _ from
        course.mono fun seen result reply => .asked reply
      cases response with
      | error message =>
        refine (shows_writeErrorStep index _ _ _).bind fun seen _ shown => ?_
        obtain ⟨step, answer, rfl, error⟩ := shown
        refine (shows_pushEvent task _ _ _).then fun _ => .ret ?_
        rw [List.append_nil]
        exact .unanswered pushed error
      | ok response =>
        refine .call_then fun _ => ?_
        dsimp only
        split
        · rename_i exceeded
          refine (shows_writeErrorStep index _ _ _).bind fun seen _ shown => ?_
          obtain ⟨step, answer, rfl, error⟩ := shown
          refine (shows_pushEvent task _ _ _).then fun _ => .ret ?_
          rw [List.append_nil]
          exact .capped pushed (fun within => nomatch within.symm.trans exceeded) error
        · rename_i within
          refine (shows_executeTools index task _ _ _ _).bind fun seen tools shown => ?_
          rcases shown with ⟨tools, rfl, executed⟩ |
            ⟨message, tools, step, answer, rfl, executed, error, rfl⟩
          · refine (shows_finishStep index task _ _ _ _ _).bind fun rest result finish => .ret ?_
            rw [List.append_nil]
            have course : Reply env run index st.totals (.ok response) (streamed ++ (seen ++ rest))
                (finishEnd result) := .finished pushed within executed finish
            exact course
          · refine .ret ?_
            rw [List.append_nil]
            exact .toolFailed pushed within executed error

theorem shows_executeLoop (start : Int) (n : Nat) (st : LoopState F) :
    (executeLoop env task run start n index st).Shows effect fun seen result =>
      Loop env run start n index st.totals seen (executionEnd result) := by
  induction n generalizing index st with
  | zero =>
    refine (shows_pushEvent task _ _ _).then fun _ => .ret ?_
    rw [List.append_nil]
    exact .exhausted
  | succ n ih =>
    refine (shows_executeStep index task st).bind fun seen result turn => ?_
    match result with
    | .error e =>
      refine .ret ?_
      rw [List.append_nil]
      exact .broken turn
    | .ok (.error result) =>
      refine .ret ?_
      rw [List.append_nil]
      exact .halted turn
    | .ok (.ok st) => exact (ih (index + 1) st).mono fun later result rest => .goesOn turn rest

/-- **Every execution that returns is one of these.** -/
theorem shows_execute :
    (execute env task run).Shows effect fun seen result =>
      Course env run task seen (executionEnd result) := by
  unfold execute
  split
  · rename_i invalid
    exact .ret (.rejected _ invalid)
  · rename_i invalid
    exact .ret (.rejected _ invalid)
  · rename_i valid
    have loops : ∀ start messages, start = startStep run →
        (startLoop env task run start messages).Shows effect fun seen result =>
          Course env run task seen (executionEnd result) := by
      rintro start messages rfl
      exact (shows_executeLoop _ task _ _ _).mono fun seen result loop => .loops valid loop
    split
    · rename_i fresh
      exact loops 0 [] (by rw [startStep, fresh])
    · rename_i stepIdx resumed
      have first : stepIdx + 1 = startStep run := by rw [startStep, resumed]
      refine .call_then fun answer => ?_
      cases answer with
      | error e => exact .ret (.unrestored valid)
      | ok step =>
        dsimp only
        split
        · exact loops _ [] first
        · refine (Prog.Shows.nothing (uses_restoreCheckpoint ..) fun _ answer restores =>
            effect_of_restores restores answer).then fun restored => ?_
          cases restored with
          | error e => exact .ret (.unrestored valid)
          | ok messages => exact loops _ messages first

end Shows

end Turns

end AgentForge
