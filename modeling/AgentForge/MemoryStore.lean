import Mathlib.Data.List.AList
import Mathlib.Data.List.Sort
import AgentForge.Model

/-! `pkg/state/memory_store.go`: the in-memory `Store`. Every method holds the
store's lock from its first read to its last write, so a method is a function
from the store to its answer and the store it leaves. `now` is what the method
reads from `time.Now()`.

The maps keep Go's string keys: a run lives under `task_id#run_id`, a step
under `run_id#step_index`, an idempotency entry under `tenant_id#key`. -/
namespace AgentForge

/-- The errors of a `Store`. A `MemoryStore` never answers `other`; it stands
for a backend that could not carry out the call. -/
inductive StoreError where
  | notFound | conflict | alreadyExists | other (message : String)
  deriving DecidableEq, Repr

/-- The text of an error. -/
def StoreError.text : StoreError → String
  | .notFound => "not found"
  | .conflict => "conflict: condition check failed"
  | .alreadyExists => "already exists"
  | .other message => message

/-- A Go `map[string]α`. -/
abbrev GoMap (α : Type) := AList (fun _ : String => α)

/-- `MemoryStore`. -/
structure MemoryStore (F : Type) where
  tasks : GoMap (Task F) := ∅
  runs : GoMap (Run F) := ∅
  steps : GoMap Step := ∅
  connections : GoMap Connection := ∅
  events : GoMap (List (StreamEvent F)) := ∅
  idempotency : GoMap String := ∅
  eventRetention : Int := 24 * 3600 * 1000000000

def runKey (taskID runID : String) : String := taskID ++ "#" ++ runID
def stepKey (runID : String) (idx : Int) : String := runID ++ "#" ++ GoText.padded 8 idx
def idempKey (tenantID key : String) : String := tenantID ++ "#" ++ key
def eventKey (taskID runID : String) : String := taskID ++ "#" ++ runID

/-- `ensureQueuedAt`: a queued run is stored with the time it was queued. -/
def ensureQueuedAt {F : Type} (run : Run F) (now : Time) : Run F :=
  if run.status = .queued ∧ run.queuedAt = none then { run with queuedAt := some now } else run

namespace MemoryStore

variable {F : Type} (s : MemoryStore F) (now : Time)

/-! ## Tasks -/

/-- The shape of every method that changes one task in place: look it up, and
either refuse or write the changed record back. -/
def changeTask (taskID : String) (change : Task F → Except StoreError (Task F)) :
    Except StoreError Unit × MemoryStore F :=
  match s.tasks.lookup taskID with
  | none => (.error .notFound, s)
  | some t =>
    match change t with
    | .error e => (.error e, s)
    | .ok t' => (.ok (), { s with tasks := s.tasks.insert taskID t' })

def applyCreateTransition (task : Task F) (run : Run F) : Except StoreError Unit × MemoryStore F :=
  let run := ensureQueuedAt run now
  if task.taskID = "" ∨ run.taskID = "" ∨ run.runID = "" then (.error .conflict, s)
  else if run.taskID ≠ task.taskID then (.error .conflict, s)
  else if (s.tasks.lookup task.taskID).isSome then (.error .alreadyExists, s)
  else if (s.runs.lookup (runKey run.taskID run.runID)).isSome then (.error .alreadyExists, s)
  else if task.idempotencyKey ≠ "" ∧
      (s.idempotency.lookup (idempKey task.tenantID task.idempotencyKey)).isSome then
    (.error .alreadyExists, s)
  else
    (.ok (), { s with
      tasks := s.tasks.insert task.taskID task
      runs := s.runs.insert (runKey run.taskID run.runID) run
      idempotency := if task.idempotencyKey ≠ "" then
          s.idempotency.insert (idempKey task.tenantID task.idempotencyKey) task.taskID
        else s.idempotency })

/-- `PutTask` takes the idempotency key before it looks at the task id. -/
def putTask (task : Task F) : Except StoreError Unit × MemoryStore F :=
  let ik := idempKey task.tenantID task.idempotencyKey
  if task.idempotencyKey ≠ "" ∧ (s.idempotency.lookup ik).isSome then (.error .alreadyExists, s)
  else
    let s' := if task.idempotencyKey ≠ "" then
        { s with idempotency := s.idempotency.insert ik task.taskID } else s
    if (s'.tasks.lookup task.taskID).isSome then (.error .alreadyExists, s')
    else (.ok (), { s' with tasks := s'.tasks.insert task.taskID task })

def getTask (taskID : String) : Except StoreError (Task F) :=
  match s.tasks.lookup taskID with
  | none => .error .notFound
  | some t => .ok t

def isAbortRequested (taskID : String) : Except StoreError (Bool × String) :=
  match s.tasks.lookup taskID with
  | none => .error .notFound
  | some t => .ok (t.abortRequested, t.abortReason)

def updateTaskStatus (taskID : String) (fromStatuses : List TaskStatus) (toStatus : TaskStatus) :
    Except StoreError Unit × MemoryStore F :=
  s.changeTask taskID fun t =>
    if t.status ∈ fromStatuses then .ok { t with status := toStatus, updatedAt := now }
    else .error .conflict

def updateTaskStatusForRun (taskID runID : String) (fromStatuses : List TaskStatus)
    (toStatus : TaskStatus) : Except StoreError Unit × MemoryStore F :=
  s.changeTask taskID fun t =>
    if t.activeRunID ≠ runID then .error .conflict
    else if t.status ∈ fromStatuses then .ok { t with status := toStatus, updatedAt := now }
    else .error .conflict

def setAbortRequested (taskID reason : String) : Except StoreError Unit × MemoryStore F :=
  s.changeTask taskID fun t => .ok { t with
    abortRequested := true, abortReason := reason, abortTS := some now, updatedAt := now }

def clearAbortRequested (taskID : String) : Except StoreError Unit × MemoryStore F :=
  s.changeTask taskID fun t => .ok { t with
    abortRequested := false, abortReason := "", abortTS := none, updatedAt := now }

def setActiveRun (taskID runID : String) : Except StoreError Unit × MemoryStore F :=
  s.changeTask taskID fun t => .ok { t with activeRunID := runID, updatedAt := now }

def applyResumeTransition (taskID : String) (run : Run F) (fromStatuses : List TaskStatus)
    (toStatus : TaskStatus) : Except StoreError Unit × MemoryStore F :=
  let run := ensureQueuedAt run now
  if run.taskID = "" ∨ run.runID = "" ∨ run.taskID ≠ taskID then (.error .conflict, s)
  else
    match s.tasks.lookup taskID with
    | none => (.error .notFound, s)
    | some t =>
      let key := runKey run.taskID run.runID
      if (s.runs.lookup key).isSome then (.error .alreadyExists, s)
      else if t.status ∉ fromStatuses then (.error .conflict, s)
      else
        (.ok (), { s with
          runs := s.runs.insert key run
          tasks := s.tasks.insert taskID { t with
            activeRunID := run.runID, abortRequested := false, abortReason := "", abortTS := none,
            status := toStatus, updatedAt := now } })

def getTaskByIdempotencyKey (tenantID idempotencyKey : String) : Except StoreError (Task F) :=
  match s.idempotency.lookup (idempKey tenantID idempotencyKey) with
  | none => .error .notFound
  | some taskID =>
    match s.tasks.lookup taskID with
    | none => .error .notFound
    | some t => .ok t

/-- The order of `ListTasks`: creation time, then task id. -/
def taskBefore (a b : Task F) : Prop :=
  a.createdAt < b.createdAt ∨ (a.createdAt = b.createdAt ∧ a.taskID ≤ b.taskID)

instance : DecidableRel (taskBefore (F := F)) := fun _ _ => inferInstanceAs (Decidable (_ ∨ _))

/-- `if limit > 0 && len(out) > limit { out = out[:limit] }`. -/
def capped {α : Type} (limit : Int) (out : List α) : List α :=
  if 0 < limit ∧ limit < out.length then out.take limit.toNat else out

/-- The records a listing keeps. No status given means every status. -/
def taskMatches (tenantID : String) (statuses : List TaskStatus) (t : Task F) : Bool :=
  (tenantID = "" || t.tenantID = tenantID) && (statuses.isEmpty || statuses.contains t.status)

def listTasks (tenantID : String) (statuses : List TaskStatus) (limit : Int) : List (Task F) :=
  capped limit (((s.tasks.entries.map Sigma.snd).filter
    (taskMatches tenantID statuses)).insertionSort taskBefore)

/-! ## Runs -/

/-- The shape of every method that changes one run in place. -/
def changeRun (taskID runID : String) (change : Run F → Except StoreError (Run F)) :
    Except StoreError Unit × MemoryStore F :=
  match s.runs.lookup (runKey taskID runID) with
  | none => (.error .notFound, s)
  | some r =>
    match change r with
    | .error e => (.error e, s)
    | .ok r' => (.ok (), { s with runs := s.runs.insert (runKey taskID runID) r' })

def putRun (run : Run F) : Except StoreError Unit × MemoryStore F :=
  let run := ensureQueuedAt run now
  let key := runKey run.taskID run.runID
  if (s.runs.lookup key).isSome then (.error .alreadyExists, s)
  else (.ok (), { s with runs := s.runs.insert key run })

def getRun (taskID runID : String) : Except StoreError (Run F) :=
  match s.runs.lookup (runKey taskID runID) with
  | none => .error .notFound
  | some r => .ok r

def claimRun (taskID runID : String) : Except StoreError Unit × MemoryStore F :=
  s.changeRun taskID runID fun r =>
    if r.status ≠ .queued then .error .conflict
    else .ok { r with status := .running, startedAt := some now }

/-- `CompleteRun` looks at no status: whatever the run was, it now has this one. -/
def completeRun (taskID runID : String) (status : RunStatus) :
    Except StoreError Unit × MemoryStore F :=
  s.changeRun taskID runID fun r => .ok { r with status := status, endedAt := some now }

def updateLastStepIndex (taskID runID : String) (stepIndex : Int) :
    Except StoreError Unit × MemoryStore F :=
  s.changeRun taskID runID fun r => .ok { r with lastStepIndex := stepIndex }

def addRunUsage [Float64 F] (taskID runID : String) (usage : Option TokenUsage) (costUSD : F) :
    Except StoreError Unit × MemoryStore F :=
  s.changeRun taskID runID fun r =>
    let total := match usage with
      | none => r.totalTokenUsage
      | some u =>
        let t := r.totalTokenUsage.getD {}
        some ⟨t.input + u.input, t.output + u.output, t.total + u.total⟩
    let cost := if Float64.lt (Float64.lit 0) costUSD then Float64.add r.totalCostUSD costUSD
      else r.totalCostUSD
    .ok { r with totalTokenUsage := total, totalCostUSD := cost }

/-- `ResetRunToQueued` looks at no status either. -/
def resetRunToQueued (taskID runID : String) : Except StoreError Unit × MemoryStore F :=
  s.changeRun taskID runID fun r =>
    .ok { r with status := .queued, queuedAt := some now, startedAt := none, endedAt := none }

/-- The order of `ListRuns`: start time, a run not started having Go's zero
time, then the key. -/
def runBefore (a b : Run F) : Prop :=
  a.startedAt.getD 0 < b.startedAt.getD 0 ∨
    (a.startedAt.getD 0 = b.startedAt.getD 0 ∧ runKey a.taskID a.runID ≤ runKey b.taskID b.runID)

instance : DecidableRel (runBefore (F := F)) := fun _ _ => inferInstanceAs (Decidable (_ ∨ _))

def runMatches (tenantID : String) (statuses : List RunStatus) (r : Run F) : Bool :=
  (tenantID = "" || r.tenantID = tenantID) && (statuses.isEmpty || statuses.contains r.status)

def listRuns (tenantID : String) (statuses : List RunStatus) (limit : Int) : List (Run F) :=
  capped limit (((s.runs.entries.map Sigma.snd).filter (runMatches tenantID statuses)).insertionSort
    runBefore)

/-! ## Steps, connections, events -/

/-- `PutStep`: the first write of a step wins. -/
def putStep (step : Step) : Except StoreError Unit × MemoryStore F :=
  let key := stepKey step.runID step.stepIndex
  if (s.steps.lookup key).isSome then (.error .conflict, s)
  else (.ok (), { s with steps := s.steps.insert key step })

def getStep (runID : String) (stepIndex : Int) : Except StoreError Step :=
  match s.steps.lookup (stepKey runID stepIndex) with
  | none => .error .notFound
  | some st => .ok st

def listSteps (runID : String) (start limit : Int) : List Step :=
  capped limit (((s.steps.entries.map Sigma.snd).filter fun st =>
    st.runID = runID && start ≤ st.stepIndex).insertionSort fun a b => a.stepIndex ≤ b.stepIndex)

def putConnection (conn : Connection) : MemoryStore F :=
  { s with connections := s.connections.insert conn.connectionID conn }

def deleteConnection (connectionID : String) : MemoryStore F :=
  { s with connections := s.connections.erase connectionID }

def getConnectionsByTask (taskID : String) : List Connection :=
  (s.connections.entries.map Sigma.snd).filter fun c => c.taskID = taskID

/-- The order `PutEvent` keeps a run's events in. -/
def eventBefore (a b : StreamEvent F) : Prop := a.seq < b.seq ∨ (a.seq = b.seq ∧ a.ts ≤ b.ts)

instance : DecidableRel (eventBefore (F := F)) := fun _ _ => inferInstanceAs (Decidable (_ ∨ _))

/-- `PutEvent`: an event with a sequence number already stored is dropped, and
events past the retention are let go of on the way. -/
def putEvent (event : StreamEvent F) : Except StoreError Unit × MemoryStore F :=
  if event.taskID = "" ∨ event.runID = "" then (.error .conflict, s)
  else
    let event := if event.ts = 0 then { event with ts := unix now } else event
    let key := eventKey event.taskID event.runID
    let runEvents := (s.events.lookup key).getD []
    if runEvents.any fun existing => existing.seq = event.seq then (.ok (), s)
    else
      let sorted := (runEvents ++ [event]).insertionSort eventBefore
      let kept := if 0 < s.eventRetention then
          sorted.filter fun ev => unix (now - s.eventRetention) ≤ ev.ts
        else sorted
      (.ok (), { s with events := s.events.insert key kept })

/-- `ReplayEvents`: the first events of a run past a sequence number and a time. With no
task id it falls back on the runs of that id of every task. -/
def replayEvents (taskID runID : String) (fromSeq fromTS limit : Int) : List (StreamEvent F) :=
  let limit := if limit ≤ 0 then 200 else limit
  let own := (s.events.lookup (eventKey taskID runID)).getD []
  let runEvents := if own.isEmpty ∧ taskID = "" then
      ((s.events.entries.filter fun entry => ("#" ++ runID).toList <:+ entry.1.toList).flatMap
        Sigma.snd).insertionSort eventBefore
    else own
  (runEvents.filter fun ev => (taskID = "" || ev.taskID = taskID) &&
    !(0 < fromSeq && ev.seq ≤ fromSeq) && !(0 < fromTS && ev.ts < fromTS)).take limit.toNat

/-- `CompactEvents`: how many events were let go of, and the store without them. -/
def compactEvents (taskID runID : String) (beforeTS : Int) : Int × MemoryStore F :=
  let runEvents := (s.events.lookup (eventKey taskID runID)).getD []
  let old := fun ev : StreamEvent F => (taskID = "" || ev.taskID = taskID) && ev.ts < beforeTS
  if beforeTS ≤ 0 then (0, s)
  else if runEvents.isEmpty then (0, s)
  else (runEvents.countP old, { s with
    events := s.events.insert (eventKey taskID runID) (runEvents.filter fun ev => !old ev) })

end MemoryStore

end AgentForge
