import Mathlib.Algebra.Order.Group.Multiset
import AgentForge.QueueSystem

/-! The life of a message in a `MemoryQueue`, apart from who carries it: each message
is a token that stands at a stage, and every step of the queue moves at most one token
from stage to stage. The books are what is kept beside the messages: the two sets of
keys, and the tenant manager. `Allowed` says what a move does to the books and what it
needs of them. -/
namespace AgentForge

/-- Where a message stands. The first seven are the stages of an `Enqueue`, which is one
of a retry or not. -/
inductive Stage where
  /-- `Enqueue` was called. -/
  | offered (retry : Bool)
  /-- `Enqueue` has made its copy, and not looked at the key yet. -/
  | prepared (retry : Bool)
  /-- The key is marked, and the manager not asked yet. -/
  | admitting (retry : Bool)
  /-- The manager has refused it; the mark is still to be taken back. -/
  | refused (retry : Bool)
  /-- The manager has admitted it; it waits for room in the channel. -/
  | sending (retry : Bool)
  /-- The context was done; mark and admission are still to be taken back. -/
  | cancelling (retry : Bool)
  /-- The mark was taken back, the admission not yet. -/
  | withdrawn (retry : Bool)
  | channel
  | received
  | pending
  /-- From `TryStartRun` to `CompleteRun`. -/
  | handling
  /-- From `CompleteRun` to the release of the key. -/
  | finishing
  | timer
  | dead
  | done
  deriving DecidableEq, Repr

section MessageFlow

variable {F : Type}

abbrev Token (F : Type) := Stage × SQSMessage F

structure Books (F : Type) where
  inQueue : Finset String
  inFlight : Finset String
  manager : Manager F

inductive Move (F : Type) where
  | quiet
  | offer (msg : SQSMessage F)
  | prepare (retry : Bool) (msg : SQSMessage F)
  | mark (retry : Bool) (msg : SQSMessage F)
  | duplicate (retry : Bool) (msg : SQSMessage F)
  | admission (retry : Bool) (msg : SQSMessage F)
  | refuse (retry : Bool) (msg : SQSMessage F)
  | unmark (retry : Bool) (msg : SQSMessage F)
  | send (retry : Bool) (msg : SQSMessage F)
  | cancel (retry : Bool) (msg : SQSMessage F)
  | cancelUnmark (retry : Bool) (msg : SQSMessage F)
  | cancelManager (retry : Bool) (msg : SQSMessage F)
  | receive (msg : SQSMessage F)
  | add (msg : SQSMessage F)
  | drain (msg : SQSMessage F)
  | passBy (tenantID : String)
  | pop (msg : SQSMessage F)
  | complete (msg : SQSMessage F) (failed : Bool)
  | deadLetter (msg : SQSMessage F)
  | release (msg : SQSMessage F) (failed : Bool)
  | fire (msg : SQSMessage F)
  | giveUp (msg : SQSMessage F)
  | redrive (batch : Multiset (SQSMessage F))
  | putBack (msg : SQSMessage F)
  /-- Another user of the manager was at work. -/
  | others

/-- Where a released message goes. -/
def released (cfg : MemoryQueueConfig) (msg : SQSMessage F) (failed : Bool) : Token F :=
  if failed then
    if isFinalFailure cfg msg failed then (.dead, msg) else (.timer, retryMessage msg)
  else (.done, msg)

namespace Move

/-- The tokens a move takes away. -/
def out : Move F → Multiset (Token F)
  | .quiet | .offer _ | .passBy _ | .deadLetter _ | .putBack _ | .others => 0
  | .prepare retry msg => {(.offered retry, msg)}
  | .mark retry msg | .duplicate retry msg => {(.prepared retry, msg)}
  | .admission retry msg | .refuse retry msg => {(.admitting retry, msg)}
  | .unmark retry msg => {(.refused retry, msg)}
  | .send retry msg | .cancel retry msg => {(.sending retry, msg)}
  | .cancelUnmark retry msg => {(.cancelling retry, msg)}
  | .cancelManager retry msg => {(.withdrawn retry, msg)}
  | .receive msg | .drain msg => {(.channel, msg)}
  | .add msg => {(.received, msg)}
  | .pop msg => {(.pending, msg)}
  | .complete msg _ => {(.handling, msg)}
  | .release msg _ => {(.finishing, msg)}
  | .fire msg | .giveUp msg => {(.timer, msg)}
  | .redrive batch => batch.map fun msg => (.dead, msg)

/-- The tokens a move puts down. -/
def into (cfg : MemoryQueueConfig) : Move F → Multiset (Token F)
  | .quiet | .passBy _ | .deadLetter _ | .duplicate .. | .unmark .. | .cancelManager ..
  | .giveUp _ | .redrive _ | .others => 0
  | .offer msg => {(.offered false, msg)}
  | .prepare retry msg => {(.prepared retry, prepareMessage msg)}
  | .mark retry msg => {(.admitting retry, msg)}
  | .admission retry msg => {(.sending retry, msg)}
  | .refuse retry msg => {(.refused retry, msg)}
  | .send _ msg => {(.channel, msg)}
  | .cancel retry msg => {(.cancelling retry, msg)}
  | .cancelUnmark retry msg => {(.withdrawn retry, msg)}
  | .receive msg => {(.received, msg)}
  | .add msg | .drain msg => {(.pending, msg)}
  | .pop msg => {(.handling, msg)}
  | .complete msg _ => {(.finishing, msg)}
  | .release msg failed => {released cfg msg failed}
  | .fire msg => {(.offered true, msg)}
  | .putBack msg => {(.dead, msg)}

/-- The messages a move accepts: those sent that are not retries. -/
def accepted : Move F → Multiset (SQSMessage F)
  | .send false msg => {msg}
  | _ => 0

/-- The messages a move gives up: retries that are found to be duplicates or refused. -/
def lost : Move F → Multiset (SQSMessage F)
  | .duplicate true msg | .refuse true msg => {msg}
  | _ => 0

end Move

variable [Float64 F]

/-- What a move needs of the books and does to them. -/
inductive Allowed (setting : Setting F) (b : Books F) : Move F → Books F → Prop where
  | quiet : Allowed setting b .quiet b
  | offer (msg : SQSMessage F) : Allowed setting b (.offer msg) b
  | prepare (retry : Bool) (msg : SQSMessage F) : Allowed setting b (.prepare retry msg) b
  | mark (retry : Bool) {msg : SQSMessage F} (notQueued : messageKey msg ∉ b.inQueue)
      (notInFlight : messageKey msg ∉ b.inFlight) :
      Allowed setting b (.mark retry msg)
        { b with inQueue := insert (messageKey msg) b.inQueue }
  | duplicate (retry : Bool) (msg : SQSMessage F) : Allowed setting b (.duplicate retry msg) b
  | admission (retry : Bool) {msg : SQSMessage F} {now opened : Time}
      (ok : (b.manager.tryEnqueue now opened msg.tenantID (admissionInfo msg)).1 = .ok ()) :
      Allowed setting b (.admission retry msg)
        { b with manager :=
            (b.manager.tryEnqueue now opened msg.tenantID (admissionInfo msg)).2 }
  | refuse (retry : Bool) {msg : SQSMessage F} {now opened : Time} {violation : PolicyViolation}
      (error : (b.manager.tryEnqueue now opened msg.tenantID (admissionInfo msg)).1 =
        .error violation) :
      Allowed setting b (.refuse retry msg)
        { b with manager :=
            (b.manager.tryEnqueue now opened msg.tenantID (admissionInfo msg)).2 }
  | unmark (retry : Bool) (msg : SQSMessage F) :
      Allowed setting b (.unmark retry msg)
        { b with inQueue := b.inQueue.erase (messageKey msg) }
  | send (retry : Bool) (msg : SQSMessage F) : Allowed setting b (.send retry msg) b
  | cancel {retry : Bool} (msg : SQSMessage F) (done : retry = true → setting.consumerCancels) :
      Allowed setting b (.cancel retry msg) b
  | cancelUnmark (retry : Bool) (msg : SQSMessage F) :
      Allowed setting b (.cancelUnmark retry msg)
        { b with inQueue := b.inQueue.erase (messageKey msg) }
  | cancelManager (retry : Bool) (msg : SQSMessage F) :
      Allowed setting b (.cancelManager retry msg)
        { b with manager := b.manager.cancelEnqueue msg.tenantID (messageKey msg) }
  | receive (msg : SQSMessage F) : Allowed setting b (.receive msg) b
  | add (msg : SQSMessage F) : Allowed setting b (.add msg) b
  | drain (msg : SQSMessage F) : Allowed setting b (.drain msg) b
  | passBy {tenantID : String} {now : Time} {violation : PolicyViolation}
      (error : (b.manager.tryStartRun now tenantID).1 = .error violation) :
      Allowed setting b (.passBy tenantID)
        { b with manager := (b.manager.tryStartRun now tenantID).2 }
  | pop {msg : SQSMessage F} {now : Time}
      (ok : (b.manager.tryStartRun now (normalizeTenant msg.tenantID)).1 = .ok ()) :
      Allowed setting b (.pop msg)
        { inQueue := b.inQueue.erase (messageKey msg)
          inFlight := insert (messageKey msg) b.inFlight
          manager := (b.manager.tryStartRun now (normalizeTenant msg.tenantID)).2 }
  | complete (msg : SQSMessage F) (failed : Bool) (opened : Time) :
      Allowed setting b (.complete msg failed)
        { b with manager :=
            b.manager.completeRun opened msg.tenantID (completionInfo setting.cfg.normalize msg failed) }
  | deadLetter (msg : SQSMessage F) :
      Allowed setting b (.deadLetter msg)
        { b with manager := b.manager.markDeadLetter msg.tenantID (messageKey msg) }
  | release (msg : SQSMessage F) (failed : Bool) :
      Allowed setting b (.release msg failed)
        { b with inFlight := b.inFlight.erase (messageKey msg) }
  | fire (msg : SQSMessage F) : Allowed setting b (.fire msg) b
  | giveUp (msg : SQSMessage F) (done : setting.consumerCancels) : Allowed setting b (.giveUp msg) b
  | redrive (batch : Multiset (SQSMessage F)) (allowed : setting.redrives) :
      Allowed setting b (.redrive batch) b
  | putBack (msg : SQSMessage F) (allowed : setting.redrives) : Allowed setting b (.putBack msg) b
  | others {manager : Manager F} (used : setting.shared b.manager manager) :
      Allowed setting b .others { b with manager := manager }

end MessageFlow

end AgentForge
