import AgentForge.MemoryQueue
import AgentForge.Soup

/-! The goroutines of a `MemoryQueue`: calls of `Enqueue`, the loops a consumer starts,
the timers of retries and calls of `RedriveDeadLetters`, over one queue and one tenant
manager. A section under the queue's lock that takes nothing from the channel and calls
nobody is one step; the two longer ones, draining the channel and looking for an
eligible tenant, hold the lock over several. Sends on the channel and calls of the
manager take no queue lock and fall between any two steps.

`log` is not part of the program: it keeps what was sent, dispatched and finished. -/
namespace AgentForge

open Transition

section QueueSystem

variable {F : Type}

/-- On whose behalf `Enqueue` runs: a caller of the queue, the timer of a retry, or
`RedriveDeadLetters` with this message, the rest of its batch and its count so far. -/
inductive Origin (F : Type) where
  | caller
  | retry
  | redrive (msg : SQSMessage F) (rest : List (SQSMessage F)) (ok : Nat)

/-- The errors `Enqueue` returns: the manager's refusal, or a context that was done. -/
inductive EnqueueError where
  | refused (violation : PolicyViolation)
  | cancelled
  deriving DecidableEq, Repr

/-- Where a call of `Enqueue` stands, from `mark` on with its own copy of the message. -/
inductive EnqueuePC (F : Type) where
  | start (msg : SQSMessage F)
  | mark (msg : SQSMessage F) (now : Time)
  | admission (msg : SQSMessage F)
  | unmark (msg : SQSMessage F) (violation : PolicyViolation)
  | send (msg : SQSMessage F)
  | cancelUnmark (msg : SQSMessage F)
  | cancelManager (msg : SQSMessage F)

/-- Where `ingressLoop` stands; it holds the lock while it drains the channel. -/
inductive IngressPC (F : Type) where
  | waiting
  | received (msg : SQSMessage F)
  | draining

/-- Where `workerLoop` stands; it holds the lock while it looks for an eligible tenant. -/
inductive DispatchPC (F : Type) where
  | idle
  | popping (checked : Nat)
  | handling (msg : SQSMessage F)
  | deadLettering (msg : SQSMessage F)
  | releasing (msg : SQSMessage F) (failed : Bool)

inductive QueueThread (F : Type) where
  | enqueue (origin : Origin F) (pc : EnqueuePC F)
  | returned (result : Except EnqueueError Unit)
  | ingress (pc : IngressPC F)
  | dispatch (pc : DispatchPC F)
  | retryTimer (msg : SQSMessage F) (due : Time)
  | redrive (limit : Int)
  | redriving (batch : List (SQSMessage F)) (ok : Nat)
  | putBack (msg : SQSMessage F) (ok : Nat) (error : EnqueueError)
  | redriven (ok : Nat) (error : Option EnqueueError)

/-- What is kept of a run for the statements about it. -/
inductive LogEntry (F : Type) where
  | sent (origin : Origin F) (msg : SQSMessage F)
  | dispatched (msg : SQSMessage F)
  | finished (msg : SQSMessage F) (failed : Bool)

structure QueueWorld (F : Type) where
  queue : MemoryQueue F := {}
  manager : Manager F
  locked : Bool := false
  clock : Time
  log : List (LogEntry F) := []

/-- What becomes of the goroutine that called `Enqueue`. A retry only logs the error;
a redrive stops at the first one and puts that message back. -/
def Origin.finish (result : Except EnqueueError Unit) : Origin F → Multiset (QueueThread F)
  | .caller => {.returned result}
  | .retry => 0
  | .redrive msg rest ok =>
    match result with
    | .ok () => {.redriving rest (ok + 1)}
    | .error error => {.putBack msg ok error}

/-- Retries run with the consumer's context, other calls with one of their own. -/
def Origin.MayCancel (consumerCancels : Prop) : Origin F → Prop
  | .retry => consumerCancels
  | .caller | .redrive .. => True

/-- What `finishAttempt` leaves beside the worker: the timer of a retry, unless the
message succeeded or its failure is final. -/
def retryTimers (cfg : MemoryQueueConfig) (clock : Time) (msg : SQSMessage F) (failed : Bool) :
    Multiset (QueueThread F) :=
  if failed && !isFinalFailure cfg msg failed then
    {.retryTimer (retryMessage msg) (clock + retryDelay cfg (retryMessage msg))}
  else 0

/-- The first attempt that a redrive makes of a dead letter. -/
def redriveMessage (msg : SQSMessage F) : SQSMessage F := { msg with attempt := 1 }

/-! ## The steps -/

variable [Float64 F]

/-- One step of a call of `Enqueue`. -/
inductive EnqueuePC.Acts (cfg : MemoryQueueConfig) (consumerCancels : Prop) (origin : Origin F)
    (w : QueueWorld F) : EnqueuePC F → QueueWorld F → Multiset (QueueThread F) → Prop where
  | start (msg : SQSMessage F) :
      Acts cfg consumerCancels origin w (.start msg) w
        {.enqueue origin (.mark (prepareMessage msg) w.clock)}
  /-- A duplicate is answered with nil and nothing is sent. -/
  | mark (msg : SQSMessage F) (now : Time) (unlocked : w.locked = false) :
      Acts cfg consumerCancels origin w (.mark msg now)
        { w with queue := (w.queue.mark cfg now (messageKey msg)).2 }
        (if (w.queue.mark cfg now (messageKey msg)).1 then {.enqueue origin (.admission msg)}
          else origin.finish (.ok ()))
  | admission (msg : SQSMessage F) (opened : Time) (later : w.clock ≤ opened) :
      Acts cfg consumerCancels origin w (.admission msg)
        { w with
          manager := (w.manager.tryEnqueue w.clock opened msg.tenantID (admissionInfo msg)).2
          clock := opened }
        (match (w.manager.tryEnqueue w.clock opened msg.tenantID (admissionInfo msg)).1 with
          | .ok () => {.enqueue origin (.send msg)}
          | .error violation => {.enqueue origin (.unmark msg violation)})
  | unmark (msg : SQSMessage F) (violation : PolicyViolation) (unlocked : w.locked = false) :
      Acts cfg consumerCancels origin w (.unmark msg violation)
        { w with queue := w.queue.unmark (messageKey msg) }
        (origin.finish (.error (.refused violation)))
  | send (msg : SQSMessage F) (room : w.queue.ch.length < cfg.bufferSize) :
      Acts cfg consumerCancels origin w (.send msg)
        { w with
          queue := { w.queue with ch := w.queue.ch ++ [msg] }
          log := .sent origin msg :: w.log }
        (origin.finish (.ok ()))
  | cancel (msg : SQSMessage F) (done : origin.MayCancel consumerCancels) :
      Acts cfg consumerCancels origin w (.send msg) w {.enqueue origin (.cancelUnmark msg)}
  | cancelUnmark (msg : SQSMessage F) (unlocked : w.locked = false) :
      Acts cfg consumerCancels origin w (.cancelUnmark msg)
        { w with queue := w.queue.unmark (messageKey msg) }
        {.enqueue origin (.cancelManager msg)}
  | cancelManager (msg : SQSMessage F) :
      Acts cfg consumerCancels origin w (.cancelManager msg)
        { w with manager := w.manager.cancelEnqueue msg.tenantID (messageKey msg) }
        (origin.finish (.error .cancelled))

/-- One step of `ingressLoop`. -/
inductive IngressPC.Acts (consumerCancels : Prop) (w : QueueWorld F) :
    IngressPC F → QueueWorld F → Multiset (QueueThread F) → Prop where
  | receive {msg : SQSMessage F} {rest : List (SQSMessage F)} (first : w.queue.ch = msg :: rest) :
      Acts consumerCancels w .waiting { w with queue := { w.queue with ch := rest } }
        {.ingress (.received msg)}
  | lock (msg : SQSMessage F) (unlocked : w.locked = false) :
      Acts consumerCancels w (.received msg)
        { w with queue := w.queue.addPending msg, locked := true } {.ingress .draining}
  | drain {msg : SQSMessage F} {rest : List (SQSMessage F)} (first : w.queue.ch = msg :: rest) :
      Acts consumerCancels w .draining
        { w with queue := { w.queue with ch := rest }.addPending msg } {.ingress .draining}
  | drained (empty : w.queue.ch = []) :
      Acts consumerCancels w .draining { w with locked := false } {.ingress .waiting}
  | stop (done : consumerCancels) : Acts consumerCancels w .waiting w 0

/-- What a worker does with the outcome of one turn of `popEligibleLocked`: it looks
further, or unlocks the queue and calls the handler. -/
def afterTurn (w : QueueWorld F) (checked : Nat) :
    MemoryQueue.PopResult F × MemoryQueue F × Manager F →
      QueueWorld F × Multiset (QueueThread F)
  | (.dropped, queue, manager) =>
    ({ w with queue := queue, manager := manager }, {.dispatch (.popping checked)})
  | (.refused, queue, manager) =>
    ({ w with queue := queue, manager := manager }, {.dispatch (.popping (checked + 1))})
  | (.popped msg, queue, manager) =>
    ({ w with
        queue := queue
        manager := manager
        locked := false
        log := .dispatched msg :: w.log }, {.dispatch (.handling msg)})

/-- One step of `workerLoop`. The handler may return anything. -/
inductive DispatchPC.Acts (cfg : MemoryQueueConfig) (consumerCancels : Prop) (w : QueueWorld F) :
    DispatchPC F → QueueWorld F → Multiset (QueueThread F) → Prop where
  | lock (unlocked : w.locked = false) :
      Acts cfg consumerCancels w .idle { w with locked := true } {.dispatch (.popping 0)}
  | turn (checked : Nat) (more : checked < w.queue.tenantOrder.length) :
      Acts cfg consumerCancels w (.popping checked)
        (afterTurn w checked (w.queue.popTurn w.clock w.manager)).1
        (afterTurn w checked (w.queue.popTurn w.clock w.manager)).2
  | unlock (checked : Nat) (all : w.queue.tenantOrder.length ≤ checked) :
      Acts cfg consumerCancels w (.popping checked) { w with locked := false } {.dispatch .idle}
  | stop (done : consumerCancels) : Acts cfg consumerCancels w .idle w 0
  | complete (msg : SQSMessage F) (failed : Bool) :
      Acts cfg consumerCancels w (.handling msg)
        { w with manager :=
            w.manager.completeRun w.clock msg.tenantID (completionInfo cfg msg failed) }
        {.dispatch (if isFinalFailure cfg msg failed then .deadLettering msg
          else .releasing msg failed)}
  | deadLetter (msg : SQSMessage F) :
      Acts cfg consumerCancels w (.deadLettering msg)
        { w with manager := w.manager.markDeadLetter msg.tenantID (messageKey msg) }
        {.dispatch (.releasing msg true)}
  | release (msg : SQSMessage F) (failed : Bool) (unlocked : w.locked = false) :
      Acts cfg consumerCancels w (.releasing msg failed)
        { w with
          queue := w.queue.releaseAttempt cfg w.clock msg failed (isFinalFailure cfg msg failed)
          log := .finished msg failed :: w.log }
        (.dispatch .idle ::ₘ retryTimers cfg w.clock msg failed)

/-- One step of any goroutine of the queue. -/
inductive QueueThread.Acts (cfg : MemoryQueueConfig) (consumerCancels : Prop) (w : QueueWorld F) :
    QueueThread F → QueueWorld F → Multiset (QueueThread F) → Prop where
  | enqueue {origin : Origin F} {pc : EnqueuePC F} {w' : QueueWorld F}
      {left : Multiset (QueueThread F)} (acts : pc.Acts cfg consumerCancels origin w w' left) :
      Acts cfg consumerCancels w (.enqueue origin pc) w' left
  | ingress {pc : IngressPC F} {w' : QueueWorld F} {left : Multiset (QueueThread F)}
      (acts : pc.Acts consumerCancels w w' left) : Acts cfg consumerCancels w (.ingress pc) w' left
  | dispatch {pc : DispatchPC F} {w' : QueueWorld F} {left : Multiset (QueueThread F)}
      (acts : pc.Acts cfg consumerCancels w w' left) :
      Acts cfg consumerCancels w (.dispatch pc) w' left
  | fire (msg : SQSMessage F) (due : Time) (elapsed : due ≤ w.clock) :
      Acts cfg consumerCancels w (.retryTimer msg due) w {.enqueue .retry (.start msg)}
  | giveUp (msg : SQSMessage F) (due : Time) (done : consumerCancels) :
      Acts cfg consumerCancels w (.retryTimer msg due) w 0
  | redrive (limit : Int) (unlocked : w.locked = false) :
      Acts cfg consumerCancels w (.redrive limit)
        { w with queue := (w.queue.takeDeadLetters limit).2 }
        {.redriving (w.queue.takeDeadLetters limit).1 0}
  | redriveNext (msg : SQSMessage F) (rest : List (SQSMessage F)) (ok : Nat) :
      Acts cfg consumerCancels w (.redriving (msg :: rest) ok) w
        {.enqueue (.redrive (redriveMessage msg) rest ok) (.start (redriveMessage msg))}
  | redriven (ok : Nat) : Acts cfg consumerCancels w (.redriving [] ok) w {.redriven ok none}
  | putBack (msg : SQSMessage F) (ok : Nat) (error : EnqueueError) (unlocked : w.locked = false) :
      Acts cfg consumerCancels w (.putBack msg ok error)
        { w with queue := { w.queue with dlq := w.queue.dlq ++ [msg] } }
        {.redriven ok (some error)}

/-! ## The system -/

/-- The surroundings of a queue: its configuration, the managers it may be given,
whether a consumer's context may be done and dead letters may be redriven, and what
other users may do to the manager. -/
structure Setting (F : Type) where
  cfg : MemoryQueueConfig
  given : Manager F → Prop
  consumerCancels : Prop
  redrives : Prop
  shared : Manager F → Manager F → Prop

/-- What may be started from outside, any number of times. -/
inductive QueueThread.Starts (redrives : Prop) : QueueThread F → Prop where
  | enqueue (msg : SQSMessage F) : Starts redrives (.enqueue .caller (.start msg))
  | ingress : Starts redrives (.ingress .waiting)
  | dispatch : Starts redrives (.dispatch .idle)
  | redrive (limit : Int) (allowed : redrives) : Starts redrives (.redrive limit)

/-- Time passes, and others use the manager. -/
structure QueueWorld.Passes (shared : Manager F → Manager F → Prop) (w w' : QueueWorld F) :
    Prop where
  manager : w'.manager = w.manager ∨ shared w.manager w'.manager
  clock : w.clock ≤ w'.clock
  same : w' = { w with manager := w'.manager, clock := w'.clock }

/-- The queue that `NewMemoryQueueWithConfig` makes, at work. -/
def Setting.soup (setting : Setting F) : Soup (QueueWorld F) (QueueThread F) where
  initial w := setting.given w.manager ∧ w = { manager := w.manager, clock := w.clock }
  spawns := QueueThread.Starts setting.redrives
  acts := QueueThread.Acts setting.cfg.normalize setting.consumerCancels
  env := QueueWorld.Passes setting.shared

abbrev QueueState (F : Type) := Soup.State (QueueWorld F) (QueueThread F)

end QueueSystem

end AgentForge
