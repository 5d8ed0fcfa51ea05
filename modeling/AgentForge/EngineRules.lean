import AgentForge.EngineCalls

/-! What a discipline has to grant for an execution to keep to it. `Execute` is walked through
here once. The events are published one after another, all through `pushEvent`, with a counter
that goes from one part to the next; of the other calls a discipline may take no notice, and
for those it does the rules ask what holds before and after them. -/
namespace AgentForge

variable {F G : Type} {env : EngineEnv F} {task : Task F} {run : Run F}
  {d : Discipline (EngineCall F) EngineCall.Ans G} {g : G}

/-! ## Events -/

/-- What holds with the counter of events holds again when an event was published. -/
structure Lasts (env : EngineEnv F) (task : Task F) (run : Run F)
    (d : Discipline (EngineCall F) EngineCall.Ans G) (P : Int → G → Prop) : Prop where
  event : ∀ seq type data g, P seq g →
    d.Ensures (fun g' seq' => P seq' g') (pushEvent env task run seq type data) g

private theorem Lasts.tokens (lasts : Lasts env task run d P) (stepIdx : Int) (tokens : List String)
    (seq : Int) (holds : P seq g) :
    d.Ensures (fun g' seq' => P seq' g') (pushTokens env task run stepIdx tokens seq) g := by
  induction tokens generalizing seq g with
  | nil => exact holds
  | cons token others ih =>
    unfold pushTokens
    split
    · exact ih seq holds
    · exact (lasts.event _ _ _ g holds).bind fun _ seq holds => ih seq holds

/-! ## The other calls -/

/-- The calls of a turn around its request, and those before the first turn: the polls, the
reading of a checkpoint, the last step of the run, and steps that are recorded without a
checkpoint. -/
def EngineCall.Incidental (task : Task F) (run : Run F) : EngineCall F → Prop
  | .now | .contextDone | .getStep .. | .artifactGet _ | .workspaceRestore _ => True
  | .isAbortRequested taskID => taskID = task.taskID
  | .updateLastStepIndex taskID runID _ => taskID = task.taskID ∧ runID = run.runID
  | .putStep step => step.checkpointRef = none
  | _ => False

/-- The discipline takes no notice of them. -/
structure Overlooks (task : Task F) (run : Run F)
    (d : Discipline (EngineCall F) EngineCall.Ans G) : Prop where
  ignores : ∀ call : EngineCall F, call.Incidental task run → d.Ignores call

/-- These and the calls that publish an event. -/
def EngineCall.Minor (task : Task F) (run : Run F) : EngineCall F → Prop
  | .putEvent _ | .getConnectionsByTask _ | .push .. | .deleteConnection _ => True
  | call => call.Incidental task run

section Minor

variable (ignores : ∀ call : EngineCall F, call.Minor task run → d.Ignores call)
include ignores

theorem Overlooks.of_minor : Overlooks task run d :=
  ⟨fun call incidental => ignores call (by cases call <;> trivial)⟩

/-- Whatever is said of such a discipline lasts. -/
theorem Lasts.of_minor (P : G → Prop) : Lasts env task run d fun _ => P := by
  refine ⟨fun _ _ _ g holds => ?_⟩
  refine ((Discipline.quiet_of_uses (uses_pushEvent ..) fun call publishes => ?_).keeps g).mono
    fun _ _ same => same ▸ holds
  refine ignores call ?_
  rcases publishes with rfl | ⟨event, rfl⟩ | notifies
  · trivial
  · trivial
  · cases call <;> trivial

end Minor

/-- The text a tool call is answered with, if it could be executed at all. -/
def Conversation.toolOutput (quote : String → String) (name : String) :
    Option (Except String ToolResult) → Option String
  | none => some ("error: unknown tool " ++ quote name)
  | some (.error _) => none
  | some (.ok result) => some (if result.error ≠ "" then "error: " ++ result.error else result.output)

namespace Overlooks

variable (overlooks : Overlooks task run d)
include overlooks

/-- A call among them changes nothing for the rest. -/
theorem skips {next : call.Ans → EngineProg F α} {post : G → α → Prop}
    (incidental : call.Incidental task run) (rest : ∀ answer, d.Ensures post (next answer) g) :
    d.Ensures post (Prog.call call .ret >>= next) g :=
  (overlooks.ignores call incidental).quiet.then rest

/-- A step that tells of an error has no checkpoint. -/
theorem errorStep (stepIdx : Int) (start : Time) (code message : String) :
    d.Quiet (writeErrorStep run stepIdx start code message) :=
  .bind (overlooks.ignores .now trivial).quiet fun _ =>
    .bind (Discipline.Ignores.quiet (overlooks.ignores _ (by rfl))) fun _ => .ret _

/-! ## The tools of a step -/

/-- `due` holds with the calls that are left and the messages so far, and `failed` once a tool
was called. -/
theorem tools (due : List ToolCall → List MemoryMessage → Int → G → Prop)
    {failed : Int → G → Prop} (lasts : ∀ calls messages, Lasts env task run d (due calls messages))
    (ends : Lasts env task run d failed)
    (called : ∀ tc calls messages seq g, due (tc :: calls) messages seq g →
      d.allows g (.executeTool tc.name tc.args) ∧ ∀ answer,
        let g' := d.moves g (.executeTool tc.name tc.args) answer
        failed seq g' ∧ ∀ output, Conversation.toolOutput env.quote tc.name answer = some output →
          due calls (messages ++ [{ role := .tool, toolCallID := tc.id, content := output }]) seq g')
    (stepIdx : Int) (stepStart : Time) (st : LoopState F)
    (holds : due calls acc.messages acc.eventSeq g) :
    d.Ensures
      (fun g' result => ∀ tools, result = .ok tools → due [] tools.messages tools.eventSeq g')
      (executeTools env task run stepIdx stepStart st calls acc) g := by
  induction calls generalizing acc g with
  | nil =>
    rintro tools ⟨⟩
    exact holds
  | cons tc rest ih =>
    unfold executeTools
    refine ((lasts ..).event _ _ _ g holds).bind fun g seq holds => ?_
    obtain ⟨allowed, moves⟩ := called tc rest _ seq g holds
    refine ⟨allowed, fun answer => ?_⟩
    obtain ⟨broken, goesOn⟩ := moves answer
    match answer with
    | none | some (.ok _) =>
      exact ((lasts ..).event _ _ _ _ (goesOn _ rfl)).bind fun g seq holds => ih holds
    | some (.error message) =>
      refine (overlooks.errorStep ..).then fun _ => ?_
      exact (ends.event _ _ _ _ broken).bind fun _ _ _ _ failed => by cases failed

end Overlooks

/-! ## The end of a step -/

/-- What holds once there is a checkpoint lasts until the step that names it is recorded. -/
structure Records (env : EngineEnv F) (task : Task F) (run : Run F)
    (d : Discipline (EngineCall F) EngineCall.Ans G) (held : CheckpointRef → Int → G → Prop) :
    Prop where
  lasts : ∀ checkpoint, Lasts env task run d (held checkpoint)
  long : ∀ checkpoint seq step g, held checkpoint seq g →
    d.Ensures (fun g' _ => held checkpoint seq g') (externalizeLargeStepFields env task run step) g
  put : ∀ checkpoint seq (step : Step) g, held checkpoint seq g →
    step.checkpointRef = some checkpoint →
      d.allows g (.putStep step) ∧ ∀ answer, d.moves g (.putStep step) answer = g

private theorem Records.record {held : CheckpointRef → Int → G → Prop}
    (records : Records env task run d held) (made : step.checkpointRef = some checkpoint)
    (holds : held checkpoint seq g) :
    d.Ensures (fun g' result => held checkpoint seq g' ∧ ∀ step', result = .ok step' →
        d.allows g' (.putStep step') ∧ ∀ answer, d.moves g' (.putStep step') answer = g')
      (externalizeLargeStepFields env task run step) g := by
  refine ((records.long checkpoint seq step g holds).and_returns
    (externalizeLargeStepFields_checkpoint ..)).mono ?_
  rintro g' result ⟨holds, kept⟩
  exact ⟨holds, fun step' same => records.put _ _ _ _ holds ((kept step' same).trans made)⟩

/-- The message that asks the model to go on after an answer that was cut off. -/
def continuation (calls : List ToolCall) (response : LLMResponse) : List MemoryMessage :=
  if calls.isEmpty && response.finishReason = "length" then
    [{ role := .user, content := lengthContinuePrompt }]
  else []

namespace Overlooks

variable (overlooks : Overlooks task run d) {held : CheckpointRef → Int → G → Prop}
  (records : Records env task run d held) {post : G → LoopState F → Prop}
include overlooks records

private theorem finalStep (stepIdx : Int) (stepEnd : Time) (content : String) (st : LoopState F)
    (holds : held checkpoint st.eventSeq g) :
    d.Ensures (fun _ _ => True)
      (writeFinalStep env task run stepIdx stepEnd content checkpoint st) g := by
  refine (records.record rfl holds).bind fun g step recorded => ?_
  obtain ⟨holds, put⟩ := recorded
  cases step with
  | error message => trivial
  | ok step =>
    obtain ⟨allowed, still⟩ := put step rfl
    refine ⟨allowed, fun answer => ?_⟩
    rw [still]
    refine overlooks.skips ⟨rfl, rfl⟩ fun _ => ?_
    exact ((records.lasts _).event _ _ _ g holds).bind fun _ _ _ => trivial

private theorem goesOn (stepIdx : Int) (stepEnd : Time) (latency : Int) (response : LLMResponse)
    (calls : List ToolCall) (st : LoopState F) (holds : held checkpoint st.eventSeq g)
    (ends : ∀ g st', held checkpoint st'.eventSeq g → st'.totalTokens = st.totalTokens →
      st'.messages = st.messages ++ continuation calls response → post g st') :
    d.Ensures (fun g' result => ∀ st', result = .ok st' → post g' st')
      (afterStep env task run stepIdx stepEnd latency response calls checkpoint st) g := by
  refine overlooks.skips ⟨rfl, rfl⟩ fun _ => ?_
  refine ((records.lasts _).event _ _ _ g holds).bind fun g seq holds => ?_
  dsimp only
  split
  · rename_i truncated
    split
    · exact ((records.lasts _).event _ _ _ g holds).bind fun _ _ _ _ failed => by cases failed
    · rintro st' ⟨⟩
      exact ends g _ holds rfl (by rw [continuation, if_pos truncated])
  · rename_i complete
    split
    · refine (overlooks.finalStep records _ _ _ _ ?_).bind fun _ _ _ _ failed => by cases failed
      exact holds
    · rintro st' ⟨⟩
      exact ends g _ holds rfl (by rw [continuation, if_neg complete, List.append_nil])

/-- **The end of a step.** The memory and the workspace are saved, and the step is recorded with
both. -/
theorem finish (stepIdx : Int) (stepStart : Time) (response : LLMResponse)
    (calls : List ToolCall) (tools : ToolLoop) (st : LoopState F)
    (saves : d.Ensures (fun g' result => ∀ memory, result = .ok memory → d.Ensures
        (fun g' result => ∀ workspace, result = .ok workspace →
          held ⟨some memory, some workspace⟩ tools.eventSeq g')
        (snapshotWorkspace task run stepIdx) g')
      (saveMemory env task ⟨run.runID, stepIdx, tools.messages⟩) g)
    (ends : ∀ checkpoint g st', held checkpoint st'.eventSeq g → st'.totalTokens = st.totalTokens →
      st'.messages = tools.messages ++ continuation calls response → post g st') :
    d.Ensures (fun g' result => ∀ st', result = .ok st' → post g' st')
      (finishStep env task run stepIdx stepStart response calls tools st) g := by
  have failed : ∀ (g : G) (result : RunResult F) st',
      (.error result : Except (RunResult F) (LoopState F)) = .ok st' → post g st' := by
    rintro g result st' ⟨⟩
  refine overlooks.skips trivial fun stepEnd => ?_
  refine saves.bind fun g memory saved => ?_
  cases memory with
  | error message => exact failed _ _
  | ok memory =>
  refine (saved memory rfl).bind fun g workspace saved => ?_
  cases workspace with
  | error message => exact failed _ _
  | ok workspace =>
  refine (records.record rfl (saved workspace rfl)).bind fun g step recorded => ?_
  obtain ⟨holds, put⟩ := recorded
  cases step with
  | error message => exact failed _ _
  | ok step =>
  obtain ⟨allowed, still⟩ := put step rfl
  refine ⟨allowed, fun written => ?_⟩
  rw [still]
  match written with
  | .ok () | .error .conflict => exact overlooks.goesOn records _ _ _ _ _ _ holds (ends _)
  | .error .notFound | .error .alreadyExists | .error (.other _) => exact failed _ _

end Overlooks

/-! ## A step of which only the events matter -/

/-- The calls between the answer of a step and its events. -/
def EngineCall.Settles : EngineCall F → Prop
  | .executeTool .. | .artifactPut .. | .workspaceSnapshot | .putStep _ => True
  | _ => False

private theorem settles_of_saves {call : EngineCall F} (saves : call.SavesAside) :
    call.Settles := by
  cases call <;> trivial

/-- A discipline that takes no notice of them either. -/
theorem Overlooks.settles (overlooks : Overlooks task run d) (lasts : Lasts env task run d P)
    (ignores : ∀ call : EngineCall F, call.Settles → d.Ignores call) (stepIdx : Int)
    (stepStart : Time) (response : LLMResponse) (st : LoopState F) (holds : P acc.eventSeq g) :
    d.Ensures (fun g' result => ∀ tools, result = .ok tools → d.Ensures
        (fun g' result => ∀ st', result = .ok st' →
          P st'.eventSeq g' ∧ st'.totalTokens = st.totalTokens)
        (finishStep env task run stepIdx stepStart response calls tools st) g')
      (executeTools env task run stepIdx stepStart st calls acc) g := by
  have aside {α : Type} {p : EngineProg F α} (uses : p.Uses EngineCall.SavesAside) : d.Quiet p :=
    Discipline.quiet_of_uses uses fun call saves => ignores call (settles_of_saves saves)
  have records : Records env task run d fun _ => P := by
    refine ⟨fun _ => lasts, fun _ seq step g holds => ?_, fun _ _ step g _ _ => ?_⟩
    · exact ((aside (uses_externalizeLargeStepFields ..)).keeps g).mono
        fun _ _ same => same ▸ holds
    · have ignored := ignores (.putStep step) trivial
      exact ⟨ignored.allowed g, ignored.still g⟩
  refine (overlooks.tools (fun _ _ => P) (fun _ _ => lasts) lasts ?_ _ _ _ holds).mono ?_
  · intro tc calls messages seq g holds
    have ignored := ignores (.executeTool tc.name tc.args) trivial
    refine ⟨ignored.allowed g, fun answer => ?_⟩
    dsimp only
    rw [ignored.still]
    exact ⟨holds, fun _ _ => holds⟩
  · intro g result ran tools ended
    have holds := ran tools ended
    refine overlooks.finish records _ _ _ _ _ _ ?_ fun _ _ _ holds same _ => ⟨holds, same⟩
    refine ((Discipline.quiet_of_uses (uses_saveMemory ..) ?_).keeps g).mono fun _ _ same _ _ => ?_
    · rintro _ ⟨key, data, rfl⟩
      exact ignores _ trivial
    · exact ((aside (uses_snapshotWorkspace ..)).keeps _).mono fun _ _ same' _ _ =>
        same' ▸ same ▸ holds

/-! ## A turn -/

/-- How far a turn has come with its request. -/
inductive Asking where
  | before
  | answered (answer : Except String LLMResponse)
  | spent (response : LLMResponse)

/-- The request of a turn. -/
def LoopState.request (env : EngineEnv F) (task : Task F) (run : Run F) (st : LoopState F) :
    LLMRequest F where
  messages := trimMemoryMessages st.messages maxEngineMemoryMessages
  modelConfig := run.modelConfig
  tools := env.toolSpecs
  taskType := classifyTaskPrompt env task.prompt

/-- The state of the loop once the model has answered. -/
def LoopState.answered [Float64 F] (env : EngineEnv F) (st : LoopState F) (response : LLMResponse)
    (seq : Int) : LoopState F :=
  { st with
    messages := trimMemoryMessages st.messages maxEngineMemoryMessages
    eventSeq := seq
    totalTokens := match response.tokenUsage with
      | some usage => st.totalTokens + usage.total
      | none => st.totalTokens
    totalCost := Float64.add st.totalCost
      (estimateUsageCostUSD env response.modelID response.tokenUsage) }

variable [Float64 F]

/-- **A turn under a discipline.** The request and the usage that is added for the answer are
allowed where they are made, and what the tools leave, the end of the step goes on from. -/
theorem Overlooks.turn (overlooks : Overlooks task run d) (stage : Asking → Int → G → Prop)
    {next : G → LoopState F → Prop} (lasts : ∀ asking, Lasts env task run d (stage asking))
    (asks : ∀ seq g, stage .before seq g →
      d.allows g (.chat (st.request env task run)) ∧ ∀ tokens answer,
        stage (.answered answer) seq (d.moves g (.chat (st.request env task run)) (tokens, answer)))
    (adds : ∀ response costUSD seq g, stage (.answered (.ok response)) seq g →
      let usage := .addRunUsage task.taskID run.runID response.tokenUsage costUSD
      d.allows g usage ∧ ∀ added, stage (.spent response) seq (d.moves g usage added))
    (goesOn : ∀ response stepStart seq g, stage (.spent response) seq g →
      let st' := st.answered env response seq
      let calls := withCallIDs stepIdx response.toolCalls
      checkBudgetExceeded run.modelConfig st'.totalTokens st'.totalCost = none →
        d.Ensures (fun g' result => ∀ tools, result = .ok tools → d.Ensures
            (fun g' result => ∀ st', result = .ok st' → next g' st')
            (finishStep env task run stepIdx stepStart response calls tools st') g')
          (executeTools env task run stepIdx stepStart st' calls
            { messages := st'.messages ++
                [{ role := .assistant, content := response.content, toolCalls := calls }]
              eventSeq := seq }) g)
    (begun : stage .before st.eventSeq g) :
    d.Ensures (fun g' result => ∀ st', result = .ok (.ok st') → next g' st')
      (executeStep env task run stepIdx st) g := by
  have halted : ∀ (g' : G) (result : RunResult F) (st' : LoopState F),
      (.ok (.error result) : Except EngineError (Except (RunResult F) (LoopState F))) =
        .ok (.ok st') → next g' st' := by
    rintro g' result st' ⟨⟩
  refine overlooks.skips rfl fun abort => ?_
  match abort with
  | .error e => rintro st' ⟨⟩
  | .ok (true, reason) =>
    refine overlooks.skips trivial fun now => overlooks.skips rfl fun _ => ?_
    refine overlooks.skips ⟨rfl, rfl⟩ fun _ => ?_
    exact ((lasts .before).event _ _ _ g begun).bind fun _ _ _ => halted _ _
  | .ok (false, _) =>
    refine overlooks.skips trivial fun cancelled => ?_
    dsimp only
    split
    · exact halted _ _
    refine ((lasts .before).event _ _ _ g begun).bind fun g seq begun => ?_
    refine overlooks.skips trivial fun stepStart => ?_
    obtain ⟨allowed, moves⟩ := asks seq g begun
    refine ⟨allowed, fun answer => ?_⟩
    obtain ⟨tokens, response⟩ := answer
    refine ((lasts _).tokens _ _ _ (moves tokens response)).bind fun g seq answered => ?_
    cases response with
    | error message =>
      refine (overlooks.errorStep ..).then fun _ => ?_
      exact ((lasts _).event _ _ _ g answered).bind fun _ _ _ => halted _ _
    | ok response =>
      obtain ⟨allowed, moves⟩ := adds response _ seq g answered
      refine ⟨allowed, fun added => ?_⟩
      dsimp only
      split
      · refine (overlooks.errorStep ..).then fun _ => ?_
        exact ((lasts _).event _ _ _ _ (moves added)).bind fun _ _ _ => halted _ _
      · rename_i within
        refine (goesOn response stepStart seq _ (moves added) within).bind fun g tools ran => ?_
        cases tools with
        | error result => exact halted _ _
        | ok tools =>
          refine (ran tools rfl).bind fun g result ends st' same => ?_
          cases same
          exact ends st' rfl

/-! ## An execution -/

section Execution

variable {P : Int → G → Prop} (ready : Int → LoopState F → G → Prop) (lasts : Lasts env task run d P)
  (rests : ∀ stepIdx st g, ready stepIdx st g → P st.eventSeq g)
  (turn : ∀ stepIdx st g, ready stepIdx st g → d.Ensures
    (fun g' result => ∀ st', result = .ok (.ok st') → ready (stepIdx + 1) st' g')
    (executeStep env task run stepIdx st) g)
include lasts rests turn

/-- What a turn that goes on leaves, the next one starts from. -/
theorem ensures_executeLoop (startStep : Int) (turns : Nat) (begun : ready stepIdx st g) :
    d.Ensures (fun _ _ => True) (executeLoop env task run startStep turns stepIdx st) g := by
  induction turns generalizing stepIdx st g with
  | zero => exact (lasts.event _ _ _ g (rests stepIdx st g begun)).bind fun _ _ _ => trivial
  | succ turns ih =>
    refine (turn stepIdx st g begun).bind fun g result next => ?_
    match result with
    | .error e => trivial
    | .ok (.error result) => trivial
    | .ok (.ok st') => exact ih (next st' rfl)

/-- **An execution under a discipline.** It begins with nothing spent and no event. -/
theorem Overlooks.execution (overlooks : Overlooks task run d)
    (begun : ∀ stepIdx st, st.totalTokens = 0 → st.eventSeq = 0 → ready stepIdx st g) :
    d.Ensures (fun _ _ => True) (execute env task run) g := by
  have loops (startStep : Int) (messages : List MemoryMessage) :
      d.Ensures (fun _ _ => True) (startLoop env task run startStep messages) g :=
    ensures_executeLoop ready lasts rests turn _ _ (begun _ _ rfl rfl)
  unfold execute
  split
  · trivial
  · trivial
  split
  · exact loops ..
  · refine overlooks.skips trivial fun step => ?_
    cases step with
    | error e => trivial
    | ok step =>
      dsimp only
      split
      · exact loops ..
      · refine (Discipline.quiet_of_uses (uses_restoreCheckpoint ..) fun call restores => ?_).then
          fun messages => ?_
        · exact overlooks.ignores call (by cases call <;> trivial)
        cases messages with
        | error e => trivial
        | ok messages => exact loops ..

end Execution

/-! ## Whose records the calls are about -/

def ownCalls (task : Task F) (run : Run F) : Discipline (EngineCall F) EngineCall.Ans Unit :=
  .only (EngineCall.Own task run)

/-- An execution looks at the abort flag of its own task, and changes its own run. -/
theorem own_execute (env : EngineEnv F) (task : Task F) (run : Run F) :
    (execute env task run).Uses (EngineCall.Own task run) := by
  have ignores (call : EngineCall F) (minor : call.Minor task run) :
      (ownCalls task run).Ignores call := by
    refine Discipline.only_ignores ?_
    cases call with
    | isAbortRequested taskID | updateLastStepIndex taskID runID i => exact minor
    | addRunUsage _ _ _ _ => exact minor.elim
    | _ => trivial
  have overlooks := Overlooks.of_minor ignores
  have lasts : Lasts env task run (ownCalls task run) fun _ _ => True := .of_minor ignores _
  refine Discipline.Ensures.uses
    (overlooks.execution (fun _ _ _ => True) lasts (fun _ _ _ => id) ?_ fun _ _ _ _ => trivial)
  intro stepIdx st g _
  refine overlooks.turn (fun _ _ _ => True) (fun _ => lasts)
    (fun _ _ _ => ⟨trivial, fun _ _ => trivial⟩)
    (fun _ _ _ _ _ => ⟨⟨rfl, rfl⟩, fun _ => trivial⟩) (fun response stepStart seq g _ _ => ?_) trivial
  refine (overlooks.settles lasts (fun call settles => Discipline.only_ignores ?_)
    _ _ response _ trivial).mono ?_
  · cases call <;> trivial
  · exact fun _ _ ran tools ended => (ran tools ended).mono fun _ _ _ _ _ => trivial

end AgentForge
