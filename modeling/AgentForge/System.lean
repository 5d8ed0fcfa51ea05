import AgentForge.Lifecycle
import AgentForge.TaskService
import AgentForge.Worker

/-! The system of `Create`, `Resume` and `Abort` requests and of workers, running
over one store. Any number of each may be under way, a message may be delivered
any number of times once it was queued, and the calls of all of them interleave
freely. `ledger` and `phase` read the lifecycle protocol off its states. -/
namespace AgentForge

open Transition

/-- A request or a worker at work. -/
inductive Thread (F : Type) where
  | create (pc : CreatePC F)
  | resume (pc : ResumePC F)
  | abort (pc : AbortPC F)
  | worker (pc : WorkerPC F)

section System

variable {F : Type} [Float64 F] (senv : ServiceEnv) (eenv : EngineEnv F)

def Thread.view : Thread F → View (Call F) Call.Ans (Thread F)
  | .create pc => (pc.view senv).map .create
  | .resume pc => (pc.view senv).map .resume
  | .abort pc => pc.view.map .abort
  | .worker pc => (pc.view eenv).map .worker

/-- Requests arrive with anything in them; a worker starts on a queued message. -/
inductive Thread.Starts (w : World F) : Thread F → Prop where
  | create (req : CreateRequest F) : Starts w (.create (.start senv req))
  | resume (taskID : String) (req : ResumeRequest F) : Starts w (.resume (.start taskID req))
  | abort (tenantID taskID : String) (req : AbortRequest) :
      Starts w (.abort (.getTask tenantID taskID req))
  | worker {msg : SQSMessage F} (queued : msg ∈ w.sent) : Starts w (.worker (.claim msg))

/-- No call of a service or a worker on the store fails. What the engine calls and
the making of a workspace may fail at any time. -/
def StoreWorks : (call : Call F) → call.Ans → Prop
  | .engine _, _ | .newLocalManager _, _ => True
  | call, answer => ¬ call.Fault answer

/-- The queue accepts every message. -/
def QueueAccepts : (call : Call F) → call.Ans → Prop
  | .enqueue _, answer => answer = .ok ()
  | _, _ => True

/-- The queue accepts every message but those of resuming requests, which it may
refuse. -/
def QueueMayRefuseResume (thread : Thread F) (call : Call F) (answer : call.Ans) : Prop :=
  QueueAccepts call answer ∨ ∃ pc, thread = .resume pc

/-- No run was refused by the queue and queued as well. -/
def World.NotRequeued (w : World F) : Prop :=
  ∀ msg ∈ w.refused, ∀ msg' ∈ w.sent, msg'.taskID = msg.taskID → msg'.runID ≠ msg.runID

/-- Who runs the two transactions, and with which records. -/
theorem view_transaction {senv : ServiceEnv} {eenv : EngineEnv F} {thread : Thread F}
    {call : Call F} {resume : call.Ans → Thread F}
    (calls : thread.view senv eenv = .call call resume) :
    match call with
    | .applyCreateTransition task run => ∃ req mc now taskID runID,
        thread = .create (.apply req mc now taskID runID) ∧
        task = createdTask req mc now taskID runID ∧ run = createdRun req mc now taskID runID
    | .applyResumeTransition taskID run _ _ => ∃ req task mc now runID,
        thread = .resume (.apply taskID req task mc now runID) ∧
        run = resumedRun taskID req mc now runID
    | _ => True := by
  cases thread with
  | create pc =>
    obtain ⟨resume', calls', -⟩ := View.map_eq_call.mp calls
    cases pc <;> cases calls' <;> first | trivial | exact ⟨_, _, _, _, _, rfl, rfl, rfl⟩
  | resume pc =>
    obtain ⟨resume', calls', -⟩ := View.map_eq_call.mp calls
    cases pc <;> cases calls' <;> first | trivial | exact ⟨_, _, _, _, _, rfl, rfl⟩
  | abort pc =>
    obtain ⟨resume', calls', -⟩ := View.map_eq_call.mp calls
    cases pc <;> cases calls'
    all_goals trivial
  | worker pc =>
    obtain ⟨resume', calls', -⟩ := View.map_eq_call.mp calls
    cases pc with
    | executing msg task run program =>
      cases program <;> cases calls'
      trivial
    | _ =>
      cases calls'
      all_goals trivial

/-- Only a worker whose engine has finished goes on without a call. -/
theorem Thread.tau_eq {senv : ServiceEnv} {eenv : EngineEnv F} {thread next : Thread F}
    (moves : thread.view senv eenv = .tau next) :
    ∃ msg task run outcome, thread = .worker (.executing msg task run (.ret outcome)) ∧
      next = .worker (.finalizeComplete msg (executionStatus outcome)) := by
  cases thread with
  | create pc | resume pc | abort pc =>
    obtain ⟨pc', moves', -⟩ := View.map_eq_tau.mp moves
    cases pc <;> cases moves'
  | worker pc =>
    obtain ⟨pc', moves', rfl⟩ := View.map_eq_tau.mp moves
    cases pc with
    | executing msg task run program =>
      cases program <;> cases moves'
      exact ⟨_, _, _, _, rfl, rfl⟩
    | _ => cases moves'

/-- The services and workers over a store that begins empty, with the answers the
given condition permits. -/
def servicePool (permits : Thread F → (call : Call F) → call.Ans → Prop) :
    Pool (World F) (Call F) Call.Ans (Thread F) where
  initial w := w.store = {} ∧ w.sent = [] ∧ w.refused = []
  starts w thread := Thread.Starts senv w thread
  view := Thread.view senv eenv
  exec w call answer w' := w.Exec eenv.sha256 call answer w'
  permits thread call answer := StoreWorks call answer ∧ permits thread call answer
  env w w' := ∃ clock, w' = { w with clock := clock }
  stops _ := False

end System

/-! ## The protocol in the system -/

section Abstraction

variable {F : Type}

/-- The key of the run a message is about. -/
def SQSMessage.key (msg : SQSMessage F) : String := runKey msg.taskID msg.runID

/-- What the store and the queue record of tasks and runs. Runs go by their key,
tasks by their id. -/
def World.ledger (w : World F) : Lifecycle.Ledger String String where
  task t := (w.store.tasks.lookup t).map fun task => (runKey t task.activeRunID, task.status)
  run k := (w.store.runs.lookup k).map fun run => (run.taskID, run.status)
  sent t k := ∃ msg ∈ w.sent, msg.taskID = t ∧ msg.key = k
  refused t k := ∃ msg ∈ w.refused, msg.taskID = t ∧ msg.key = k

def CreatePC.phase : CreatePC F → Lifecycle.Phase String String
  | .loadActiveRun existing =>
    .knows existing.taskID (runKey existing.taskID existing.activeRunID)
  | .stamp existing run => .knows existing.taskID (runKey existing.taskID run.runID)
  | .enqueue _ msg => .knows msg.taskID msg.key
  | _ => .idle

def ResumePC.phase : ResumePC F → Lifecycle.Phase String String
  | .enqueue msg => .resumed msg.taskID msg.key
  | .failRun taskID runID _ => .failing taskID (runKey taskID runID)
  | .failTask taskID runID _ => .failed taskID (runKey taskID runID)
  | _ => .idle

def WorkerPC.phase : WorkerPC F → Lifecycle.Phase String String
  | .claim msg => .delivered msg.taskID msg.key
  | .setRunning msg | .completeUpdateFailed msg _ => .claimed msg.taskID msg.key
  | .completeStale msg => .stale msg.taskID msg.key
  | .getTask msg | .completeTaskLoadFailed msg _ | .completeMismatch msg | .getRun msg _
  | .completeRunLoadFailed msg _ | .newWorkspace msg _ _ | .executing msg _ _ _
  | .finalizeComplete msg _ => .running msg.taskID msg.key
  | .updateMismatch msg | .updateRunLoadFailed msg _ => .closing msg.taskID msg.key .failed
  | .finalizeUpdate msg status => .closing msg.taskID msg.key status.1
  | .returned _ => .idle

/-- How far a thread has come in the protocol. -/
def Thread.phase : Thread F → Lifecycle.Phase String String
  | .create pc => pc.phase
  | .resume pc => pc.phase
  | .abort _ => .idle
  | .worker pc => pc.phase

/-- The state of the protocol a configuration stands for. -/
def lifecycle (c : Config (World F) (Thread F)) : Lifecycle.State String String where
  ledger := c.world.ledger
  phase i := ((c.threads i).map Thread.phase).getD .idle

/-- The task and the run an engine is executing for this thread. -/
def Thread.executes : Thread F → Option (String × String)
  | .worker (.executing _ task run _) => some (task.taskID, run.runID)
  | _ => none

/-- Places no thread comes to while the store works, the ids a resuming request has
by the time it queues its run, and whose records a worker has loaded. -/
def Thread.Sound : Thread F → Prop
  | .resume (.enqueue msg) => msg.taskID ≠ "" ∧ msg.runID ≠ ""
  | .worker (.completeUpdateFailed ..) | .worker (.completeTaskLoadFailed ..) => False
  | .worker (.getRun msg task) => task.taskID = msg.taskID
  | .worker (.newWorkspace msg task run) | .worker (.executing msg task run _) =>
    task.taskID = msg.taskID ∧ run.runID = msg.runID
  | _ => True

end Abstraction

/-! ## A plain system -/

/-- A service and an engine with nothing configured. -/
def plainService : ServiceEnv := { lower := id }

def plainEngine : EngineEnv Rat where
  maxSteps := 10
  policy := {}
  lower := id
  quote := id
  toolSpecs := []
  hasPusher := false
  pricingOverrides := []
  sanitizeEventText := id
  encodeMemory _ := []
  decodeMemory _ := none
  encodeToolOutputs _ := ""
  encodeExternalized _ _ _ := ""
  sha256 _ := ""

/-- A response that ends a run. -/
def lastWord : LLMResponse := ⟨"done", [], none, "stop", "gpt-4o", "openai"⟩

/-- Everything works, the model always gives this answer, and the context may be done. -/
def atOnce (done : Bool) (answer : Except String LLMResponse) : (call : EngineCall Rat) → call.Ans
  | .now => (0 : Int)
  | .contextDone => done
  | .getStep .. => .error .notFound
  | .isAbortRequested _ => .ok (false, "")
  | .putStep _ | .updateLastStepIndex .. | .addRunUsage .. | .putEvent _ | .deleteConnection _ =>
    .ok ()
  | .getConnectionsByTask _ => .ok []
  | .push .. => .pushed true
  | .artifactPut .. => .ok ("", 0)
  | .artifactGet _ => .error ""
  | .workspaceSnapshot => .ok []
  | .workspaceRestore _ => .ok ()
  | .chat _ => ([], answer)
  | .executeTool .. => none

/-- Ids are made of this letter, and everything works. -/
def outsideWorks (letter : UInt8) : Outside Rat where
  random := .replicate 12 letter
  engine := atOnce false (.ok lastWord)

/-! A task as `Create` leaves it, and the message of its run. -/

def freshRequest : CreateRequest Rat := { tenantID := "acme", userID := "ada", prompt := "hello" }

def freshTask : Task Rat := createdTask freshRequest none 0 "task_1" "run_1"

def freshRun : Run Rat := createdRun freshRequest none 0 "task_1" "run_1"

def freshWorld : World Rat :=
  World.after {} (MemoryStore.applyCreateTransition {} 0 freshTask freshRun)

def freshMessage : SQSMessage Rat := runMessage plainService "acme" "task_1" "run_1" "hello" none 0

end AgentForge
