import Mathlib.Logic.Function.Basic
import AgentForge.Consistency
import AgentForge.Transition

/-! The lifecycle protocol of tasks and runs, apart from the code that carries
it out. A task has an active run and a status, a run has an owner and a status,
and each party is in a phase that says what it has achieved and still owes.

Exclusion rests on three guards that no single lock combines: only a queued run
can be claimed, only the active run can set its task running, and only a task
that is not running can be resumed. The invariant says which facts of the
ledger each phase relies on, and lets a task and its run disagree exactly while
some party is in the phase that will settle it. -/
namespace AgentForge.Lifecycle

/-- What is recorded of tasks `T` and runs `K`, and which runs were queued or
refused by the queue. -/
structure Ledger (T K : Type) where
  task : T → Option (K × TaskStatus)
  run : K → Option (T × RunStatus)
  sent : T → K → Prop
  refused : T → K → Prop

/-- What a party has achieved. A worker holds its run from `claimed` to
`closing`; a resuming request owes its run a message, or its failure. -/
inductive Phase (T K : Type) where
  | idle
  | knows (t : T) (k : K)
  | delivered (t : T) (k : K)
  | claimed (t : T) (k : K)
  | stale (t : T) (k : K)
  | running (t : T) (k : K)
  | closing (t : T) (k : K) (status : RunStatus)
  | resumed (t : T) (k : K)
  | failing (t : T) (k : K)
  | failed (t : T) (k : K)

section Protocol

variable {T K : Type}

/-- The run a worker in this phase holds. -/
def Phase.held : Phase T K → Option K
  | .claimed _ k | .stale _ k | .running _ k | .closing _ k _ => some k
  | _ => none

/-- The run a resuming request in this phase has still to settle. -/
def Phase.owed : Phase T K → Option K
  | .resumed _ k | .failing _ k | .failed _ k => some k
  | _ => none

/-- The run exists and belongs to the task. -/
def Ledger.Owns (l : Ledger T K) (t : T) (k : K) : Prop := ∃ status, l.run k = some (t, status)

variable [DecidableEq T] [DecidableEq K]

def Ledger.setTask (l : Ledger T K) (t : T) (k : K) (status : TaskStatus) : Ledger T K :=
  { l with task := Function.update l.task t (some (k, status)) }

def Ledger.setRun (l : Ledger T K) (t : T) (k : K) (status : RunStatus) : Ledger T K :=
  { l with run := Function.update l.run k (some (t, status)) }

def Ledger.send (l : Ledger T K) (t : T) (k : K) : Ledger T K :=
  { l with sent := fun t' k' => (t' = t ∧ k' = k) ∨ l.sent t' k' }

def Ledger.refuse (l : Ledger T K) (t : T) (k : K) : Ledger T K :=
  { l with refused := fun t' k' => (t' = t ∧ k' = k) ∨ l.refused t' k' }

/-- What one party may do in one atomic step. -/
inductive Move : Ledger T K → Phase T K → Ledger T K → Phase T K → Prop where
  | quiet {l p} : Move l p l p
  | leave {l p} (free : p.held = none) (settled : p.owed = none) : Move l p l .idle
  | learn {l t k} (owns : l.Owns t k) : Move l .idle l (.knows t k)
  | create {l t k} (newTask : l.task t = none) (newRun : l.run k = none) :
      Move l .idle ((l.setTask t k .queued).setRun t k .queued) (.knows t k)
  | send {l t k} : Move l (.knows t k) (l.send t k) .idle
  | deliver {l t k} (sent : l.sent t k) : Move l .idle l (.delivered t k)
  | claim {l t k} (queued : l.run k = some (t, .queued)) :
      Move l (.delivered t k) (l.setRun t k .running) (.claimed t k)
  | begin {l t k status} (active : l.task t = some (k, status))
      (open' : status = .queued ∨ status = .running) :
      Move l (.claimed t k) (l.setTask t k .running) (.running t k)
  | lose {l t k} (lost : ∀ status, l.task t = some (k, status) →
      status ≠ .queued ∧ status ≠ .running) : Move l (.claimed t k) l (.stale t k)
  | abortStale {l t k} : Move l (.stale t k) (l.setRun t k .aborted) .idle
  | abandon {l t k} : Move l (.running t k) l .idle
  | complete {l t k status} (terminal : status.terminal = true) :
      Move l (.running t k) (l.setRun t k status) (.closing t k status)
  | close {l t k status} (active : l.task t = some (k, .running)) :
      Move l (.closing t k status) (l.setTask t k (mapRunToTaskStatus status)) .idle
  | resume {l t k k' status} (active : l.task t = some (k', status)) (stopped : status ≠ .running)
      (newRun : l.run k = none) :
      Move l .idle ((l.setTask t k .queued).setRun t k .queued) (.resumed t k)
  | sendResumed {l t k} : Move l (.resumed t k) (l.send t k) .idle
  | refuse {l t k} : Move l (.resumed t k) (l.refuse t k) (.failing t k)
  | failRun {l t k} : Move l (.failing t k) (l.setRun t k .failed) (.failed t k)
  | failTask {l t k status} (active : l.task t = some (k, status))
      (open' : status = .queued ∨ status = .running) :
      Move l (.failed t k) (l.setTask t k .failed) .idle
  | yield {l t k} (lost : ∀ status, l.task t = some (k, status) →
      status ≠ .queued ∧ status ≠ .running) : Move l (.failed t k) l .idle

/-- A ledger and the phase of every party. -/
structure State (T K : Type) where
  ledger : Ledger T K
  phase : Nat → Phase T K

/-- One party makes a move; the others stay where they are. -/
inductive Step : State T K → State T K → Prop where
  | move {s : State T K} {i : Nat} {l : Ledger T K} {p : Phase T K}
      (moved : Move s.ledger (s.phase i) l p) : Step s ⟨l, Function.update s.phase i p⟩

/-! ## The invariant -/

/-- What the ledger says while a party is in a phase. A resumed run is still
queued, unless another request has queued it too and a worker may have it. -/
def Phase.Ok (l : Ledger T K) : Phase T K → Prop
  | .idle => True
  | .knows t k => l.Owns t k
  | .delivered t k => l.sent t k
  | .claimed t k => l.run k = some (t, .running) ∧ l.sent t k
  | .stale t k =>
    l.run k = some (t, .running) ∧ l.sent t k ∧ ∀ status, l.task t ≠ some (k, status)
  | .running t k =>
    l.run k = some (t, .running) ∧ l.sent t k ∧ l.task t = some (k, .running)
  | .closing t k status =>
    l.run k = some (t, status) ∧ status.terminal = true ∧ l.sent t k ∧
      l.task t = some (k, .running)
  | .resumed t k => l.run k = some (t, .queued) ∨ (l.Owns t k ∧ l.sent t k)
  | .failing t k => l.run k = some (t, .queued) ∧ l.refused t k
  | .failed t k => l.run k = some (t, .failed) ∧ l.refused t k

/-- A task's status is the one its active run's status gives, unless a party is
about to write it. -/
def Agrees (phase : Nat → Phase T K) (t : T) (k : K) (status : TaskStatus) (run : RunStatus) :
    Prop :=
  status = mapRunToTaskStatus run ∨
    (run = .running ∧ status = .queued ∧ ∃ i, phase i = .claimed t k) ∨
    (status = .running ∧ ∃ i, phase i = .closing t k run) ∨
    (run = .failed ∧ status = .queued ∧ ∃ i, phase i = .failed t k)

structure Inv (s : State T K) : Prop where
  ok : ∀ i, (s.phase i).Ok s.ledger
  sentOwned : ∀ t k, s.ledger.sent t k → s.ledger.Owns t k
  oneHolder : ∀ i j k, (s.phase i).held = some k → (s.phase j).held = some k → i = j
  oneDebtor : ∀ i j k, (s.phase i).owed = some k → (s.phase j).owed = some k → i = j
  agrees : ∀ t k status, s.ledger.task t = some (k, status) →
    ∃ run, s.ledger.run k = some (t, run) ∧ Agrees s.phase t k status run

/-- No run was both queued and refused: nobody queues again what the queue
refused to a resuming request. -/
def Ledger.Exclusive (l : Ledger T K) : Prop := ∀ t k, l.refused t k → ¬ l.sent t k

end Protocol

end AgentForge.Lifecycle
