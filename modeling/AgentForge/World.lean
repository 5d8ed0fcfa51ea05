import AgentForge.Engine
import AgentForge.Transition

/-! The state the services share, and what each of their calls does to it. A
store method is one atomic call, because it holds the store's lock throughout.
Everything outside the program answers freely: random ids, the model, tools,
connections, and whether a backend carries a call out at all. -/
namespace AgentForge

/-- What the processes share. `sent` holds every message `Enqueue` accepted and
`refused` every message it answered with an error; both only grow, since a
message may be delivered any number of times. -/
structure World (F : Type) where
  store : MemoryStore F := {}
  blobs : GoMap Bytes := ∅
  sent : List (SQSMessage F) := []
  refused : List (SQSMessage F) := []
  clock : Time := 0

/-- The calls of the task service, the worker and the recovery job. Those the
worker makes inside `Execute` are the engine's own. -/
inductive Call (F : Type) where
  | now
  | newID (kind : String)
  | applyCreateTransition (task : Task F) (run : Run F)
  | applyResumeTransition (taskID : String) (run : Run F) (fromStatuses : List TaskStatus)
      (toStatus : TaskStatus)
  | getTask (taskID : String)
  | getTaskByIdempotencyKey (tenantID idempotencyKey : String)
  | updateTaskStatusForRun (taskID runID : String) (fromStatuses : List TaskStatus)
      (toStatus : TaskStatus)
  | setAbortRequested (taskID reason : String)
  | getRun (taskID runID : String)
  | claimRun (taskID runID : String)
  | completeRun (taskID runID : String) (status : RunStatus)
  | resetRunToQueued (taskID runID : String)
  | listRuns (tenantID : String) (statuses : List RunStatus) (limit : Int)
  | getStep (runID : String) (stepIndex : Int)
  | enqueue (msg : SQSMessage F)
  | newLocalManager (runID : String)
  | engine (call : EngineCall F)

def Call.Ans {F : Type} : Call F → Type
  | .now => Time
  | .newID _ => String
  | .applyCreateTransition .. | .applyResumeTransition .. | .updateTaskStatusForRun ..
  | .setAbortRequested .. | .claimRun .. | .completeRun .. | .resetRunToQueued .. =>
    Except StoreError Unit
  | .getTask _ | .getTaskByIdempotencyKey .. => Except StoreError (Task F)
  | .getRun .. => Except StoreError (Run F)
  | .listRuns .. => Except StoreError (List (Run F))
  | .getStep .. => Except StoreError Step
  | .enqueue _ | .newLocalManager _ => Except String Unit
  | .engine call => call.Ans

namespace World

variable {F : Type}

/-- The world after a store method that answered with the store it left. -/
def after {α : Type} (w : World F) (result : α × MemoryStore F) : World F :=
  { w with store := result.2 }

/-- Blobs outside the export area are what they were: `fs.export` writes under
`exports/`, and the worker hands the artifact store to no other tool. -/
def KeepsCheckpoints (before after : GoMap Bytes) : Prop :=
  ∀ key : String, ¬ "exports/".toList <+: key.toList → after.lookup key = before.lookup key

/-- What a call of the engine does when its backend carries it out. -/
def EngineRuns [Float64 F] (sha256 : Bytes → String) (w : World F) :
    (call : EngineCall F) → call.Ans → World F → Prop
  | .now, answer, w' => answer = w.clock ∧ w' = w
  | .contextDone, _, w' => w' = w
  | .getStep runID stepIndex, answer, w' => answer = w.store.getStep runID stepIndex ∧ w' = w
  | .isAbortRequested taskID, answer, w' => answer = w.store.isAbortRequested taskID ∧ w' = w
  | .putStep step, answer, w' =>
    answer = (w.store.putStep step).1 ∧ w' = w.after (w.store.putStep step)
  | .updateLastStepIndex taskID runID stepIndex, answer, w' =>
    answer = (w.store.updateLastStepIndex taskID runID stepIndex).1 ∧
      w' = w.after (w.store.updateLastStepIndex taskID runID stepIndex)
  | .addRunUsage taskID runID usage costUSD, answer, w' =>
    answer = (w.store.addRunUsage taskID runID usage costUSD).1 ∧
      w' = w.after (w.store.addRunUsage taskID runID usage costUSD)
  | .putEvent event, answer, w' =>
    answer = (w.store.putEvent w.clock event).1 ∧ w' = w.after (w.store.putEvent w.clock event)
  | .getConnectionsByTask taskID, answer, w' =>
    answer = .ok (w.store.getConnectionsByTask taskID) ∧ w' = w
  | .push .., _, w' => w' = w
  | .deleteConnection connectionID, answer, w' =>
    answer = .ok () ∧ w' = { w with store := w.store.deleteConnection connectionID }
  | .artifactPut key data, answer, w' =>
    answer = .ok (sha256 data, (data.length : Int)) ∧
      w' = { w with blobs := w.blobs.insert key data }
  | .artifactGet key, answer, w' =>
    answer = (match w.blobs.lookup key with
      | none => .error ("artifact: not found: " ++ key)
      | some data => .ok data) ∧ w' = w
  | .workspaceSnapshot, _, w' => w' = w
  | .workspaceRestore _, _, w' => w' = w
  | .chat _, _, w' => w' = w
  | .executeTool .., _, w' => ∃ blobs, KeepsCheckpoints w.blobs blobs ∧ w' = { w with blobs := blobs }

/-- What a call does when its backend carries it out. `Enqueue` may refuse a
message, which is an answer of the queue and not a fault of it. -/
def Runs [Float64 F] (sha256 : Bytes → String) (w : World F) :
    (call : Call F) → call.Ans → World F → Prop
  | .now, answer, w' => answer = w.clock ∧ w' = w
  | .newID kind, answer, w' => (∃ random, answer = AgentForge.newID kind random) ∧ w' = w
  | .applyCreateTransition task run, answer, w' =>
    answer = (w.store.applyCreateTransition w.clock task run).1 ∧
      w' = w.after (w.store.applyCreateTransition w.clock task run)
  | .applyResumeTransition taskID run fromStatuses toStatus, answer, w' =>
    answer = (w.store.applyResumeTransition w.clock taskID run fromStatuses toStatus).1 ∧
      w' = w.after (w.store.applyResumeTransition w.clock taskID run fromStatuses toStatus)
  | .getTask taskID, answer, w' => answer = w.store.getTask taskID ∧ w' = w
  | .getTaskByIdempotencyKey tenantID idempotencyKey, answer, w' =>
    answer = w.store.getTaskByIdempotencyKey tenantID idempotencyKey ∧ w' = w
  | .updateTaskStatusForRun taskID runID fromStatuses toStatus, answer, w' =>
    answer = (w.store.updateTaskStatusForRun w.clock taskID runID fromStatuses toStatus).1 ∧
      w' = w.after (w.store.updateTaskStatusForRun w.clock taskID runID fromStatuses toStatus)
  | .setAbortRequested taskID reason, answer, w' =>
    answer = (w.store.setAbortRequested w.clock taskID reason).1 ∧
      w' = w.after (w.store.setAbortRequested w.clock taskID reason)
  | .getRun taskID runID, answer, w' => answer = w.store.getRun taskID runID ∧ w' = w
  | .claimRun taskID runID, answer, w' =>
    answer = (w.store.claimRun w.clock taskID runID).1 ∧
      w' = w.after (w.store.claimRun w.clock taskID runID)
  | .completeRun taskID runID status, answer, w' =>
    answer = (w.store.completeRun w.clock taskID runID status).1 ∧
      w' = w.after (w.store.completeRun w.clock taskID runID status)
  | .resetRunToQueued taskID runID, answer, w' =>
    answer = (w.store.resetRunToQueued w.clock taskID runID).1 ∧
      w' = w.after (w.store.resetRunToQueued w.clock taskID runID)
  | .listRuns tenantID statuses limit, answer, w' =>
    answer = .ok (w.store.listRuns tenantID statuses limit) ∧ w' = w
  | .getStep runID stepIndex, answer, w' => answer = w.store.getStep runID stepIndex ∧ w' = w
  | .enqueue msg, .ok (), w' => w' = { w with sent := msg :: w.sent }
  | .enqueue msg, .error _, w' => w' = { w with refused := msg :: w.refused }
  | .newLocalManager _, _, w' => w' = w
  | .engine call, answer, w' => EngineRuns sha256 w call answer w'

end World

/-! ## Answers -/

section Answers

variable {F : Type} [Float64 F]

/-- The world answers a call: the store and the artifacts as they are, all else as chosen. -/
def World.serve (sha256 : Bytes → String) (outside : (call : EngineCall F) → call.Ans)
    (w : World F) : (call : EngineCall F) → call.Ans × World F
  | .now => (w.clock, w)
  | .contextDone => (outside .contextDone, w)
  | .getStep runID stepIndex => (w.store.getStep runID stepIndex, w)
  | .isAbortRequested taskID => (w.store.isAbortRequested taskID, w)
  | .putStep step => ((w.store.putStep step).1, w.after (w.store.putStep step))
  | .updateLastStepIndex taskID runID stepIndex =>
    let stored := w.store.updateLastStepIndex taskID runID stepIndex
    (stored.1, w.after stored)
  | .addRunUsage taskID runID usage costUSD =>
    let stored := w.store.addRunUsage taskID runID usage costUSD
    (stored.1, w.after stored)
  | .putEvent event =>
    let stored := w.store.putEvent w.clock event
    (stored.1, w.after stored)
  | .getConnectionsByTask taskID => (.ok (w.store.getConnectionsByTask taskID), w)
  | .push connectionID event => (outside (.push connectionID event), w)
  | .deleteConnection connectionID =>
    (.ok (), { w with store := w.store.deleteConnection connectionID })
  | .artifactPut key data =>
    (.ok (sha256 data, (data.length : Int)), { w with blobs := w.blobs.insert key data })
  | .artifactGet key =>
    (match w.blobs.lookup key with
      | none => .error ("artifact: not found: " ++ key)
      | some data => .ok data, w)
  | .workspaceSnapshot => (outside .workspaceSnapshot, w)
  | .workspaceRestore data => (outside (.workspaceRestore data), w)
  | .chat request => (outside (.chat request), w)
  | .executeTool name args => (outside (.executeTool name args), w)

theorem engineRuns_serve (sha256 : Bytes → String) (outside : (call : EngineCall F) → call.Ans)
    (w : World F) (call : EngineCall F) :
    w.EngineRuns sha256 call (w.serve sha256 outside call).1 (w.serve sha256 outside call).2 := by
  cases call with
  | executeTool name args => exact ⟨w.blobs, fun _ _ => rfl, rfl⟩
  | contextDone | push _ _ | workspaceSnapshot | workspaceRestore _ | chat _ => exact rfl
  | _ => exact ⟨rfl, rfl⟩

/-- What the world does not decide: the letters of new ids, whether the queue takes a message
and a workspace is made, and what the engine is told. -/
structure Outside (F : Type) where
  random : Vector UInt8 12 := .replicate 12 0
  queue : Except String Unit := .ok ()
  workspace : Except String Unit := .ok ()
  engine : (call : EngineCall F) → call.Ans

/-- The answer to a call of the services and the world after it. -/
def World.respond (sha256 : Bytes → String) (outside : Outside F) (w : World F) :
    (call : Call F) → call.Ans × World F
  | .now => (w.clock, w)
  | .newID kind => (newID kind outside.random, w)
  | .applyCreateTransition task run => stored (w.store.applyCreateTransition w.clock task run)
  | .applyResumeTransition taskID run fromStatuses toStatus =>
    stored (w.store.applyResumeTransition w.clock taskID run fromStatuses toStatus)
  | .getTask taskID => (w.store.getTask taskID, w)
  | .getTaskByIdempotencyKey tenantID idempotencyKey =>
    (w.store.getTaskByIdempotencyKey tenantID idempotencyKey, w)
  | .updateTaskStatusForRun taskID runID fromStatuses toStatus =>
    stored (w.store.updateTaskStatusForRun w.clock taskID runID fromStatuses toStatus)
  | .setAbortRequested taskID reason => stored (w.store.setAbortRequested w.clock taskID reason)
  | .getRun taskID runID => (w.store.getRun taskID runID, w)
  | .claimRun taskID runID => stored (w.store.claimRun w.clock taskID runID)
  | .completeRun taskID runID status => stored (w.store.completeRun w.clock taskID runID status)
  | .resetRunToQueued taskID runID => stored (w.store.resetRunToQueued w.clock taskID runID)
  | .listRuns tenantID statuses limit => (.ok (w.store.listRuns tenantID statuses limit), w)
  | .getStep runID stepIndex => (w.store.getStep runID stepIndex, w)
  | .enqueue msg => (outside.queue,
    match outside.queue with
    | .ok () => { w with sent := msg :: w.sent }
    | .error _ => { w with refused := msg :: w.refused })
  | .newLocalManager _ => (outside.workspace, w)
  | .engine call => w.serve sha256 outside.engine call
where
  stored {α : Type} (result : α × MemoryStore F) : α × World F := (result.1, w.after result)

theorem runs_respond (sha256 : Bytes → String) (outside : Outside F) (w : World F) (call : Call F) :
    w.Runs sha256 call (w.respond sha256 outside call).1 (w.respond sha256 outside call).2 := by
  cases call with
  | newID kind => exact ⟨⟨outside.random, rfl⟩, rfl⟩
  | enqueue msg =>
    obtain ⟨_, queue, _, _⟩ := outside
    cases queue <;> exact rfl
  | newLocalManager _ => exact rfl
  | engine call => exact engineRuns_serve sha256 outside.engine w call
  | _ => exact ⟨rfl, rfl⟩

end Answers

/-- A call of the engine that its backend did not carry out. Calls that answer
freely, such as the model's, have their errors among their answers. -/
def EngineCall.Fault {F : Type} : (call : EngineCall F) → call.Ans → Prop
  | .getStep .., answer | .isAbortRequested .., answer | .putStep .., answer
  | .updateLastStepIndex .., answer | .addRunUsage .., answer | .putEvent .., answer
  | .getConnectionsByTask .., answer | .deleteConnection .., answer =>
    ∃ message, answer = .error (.other message)
  | .artifactPut .., answer | .artifactGet .., answer => ∃ message, answer = .error message
  | _, _ => False

/-- A call that its backend did not carry out. -/
def Call.Fault {F : Type} : (call : Call F) → call.Ans → Prop
  | .applyCreateTransition .., answer | .applyResumeTransition .., answer
  | .updateTaskStatusForRun .., answer | .setAbortRequested .., answer | .claimRun .., answer
  | .completeRun .., answer | .resetRunToQueued .., answer | .getTask _, answer
  | .getTaskByIdempotencyKey .., answer | .getRun .., answer | .listRuns .., answer
  | .getStep .., answer => ∃ message, answer = .error (.other message)
  | .newLocalManager _, answer => ∃ message, answer = .error message
  | .engine call, answer => call.Fault answer
  | _, _ => False

/-- A call is carried out, or it fails and leaves the world as it was. -/
def World.Exec {F : Type} [Float64 F] (sha256 : Bytes → String) (w : World F) (call : Call F)
    (answer : call.Ans) (w' : World F) : Prop :=
  w.Runs sha256 call answer w' ∨ (call.Fault answer ∧ w' = w)

end AgentForge
