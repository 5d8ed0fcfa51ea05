import Mathlib.Data.Finset.Erase
import Mathlib.Data.Finset.Insert
import AgentForge.TenantManager

/-! `pkg/queue/memory_queue.go`: the data of a `MemoryQueue` and what each section
under its lock does to it. Messages wait in a channel, are sorted into one pending
list per tenant, and are dispatched round robin over the tenants that the manager
lets start a run. -/
namespace AgentForge

section Queue

variable {F : Type}

/-- `MemoryQueueConfig`; the manager is a part of the shared state. -/
structure MemoryQueueConfig where
  bufferSize : Int
  maxWorkers : Int
  maxAttempts : Int
  retryBackoff : Int
  dedupeWindow : Int

/-- The defaults of `NewMemoryQueueWithConfig`. -/
def MemoryQueueConfig.normalize (cfg : MemoryQueueConfig) : MemoryQueueConfig where
  bufferSize := if cfg.bufferSize ≤ 0 then 100 else cfg.bufferSize
  maxWorkers := if cfg.maxWorkers ≤ 0 then 1 else cfg.maxWorkers
  maxAttempts := if cfg.maxAttempts ≤ 0 then 3 else cfg.maxAttempts
  retryBackoff := if cfg.retryBackoff ≤ 0 then 250 * 1000000 else cfg.retryBackoff
  dedupeWindow := if cfg.dedupeWindow ≤ 0 then 120 * 1000000000 else cfg.dedupeWindow

def normalizeTenant (tenantID : String) : String :=
  if tenantID = "" then "default" else tenantID

def messageKey (msg : SQSMessage F) : String :=
  if msg.dedupeKey ≠ "" then normalizeTenant msg.tenantID ++ "#" ++ msg.dedupeKey
  else normalizeTenant msg.tenantID ++ "#" ++ msg.taskID ++ "#" ++ msg.runID

/-- The copy of a message that `Enqueue` works on. -/
def prepareMessage (msg : SQSMessage F) : SQSMessage F :=
  { msg with
    attempt := if msg.attempt ≤ 0 then 1 else msg.attempt
    tenantID := normalizeTenant msg.tenantID }

/-- What a message is admitted with. -/
def admissionInfo (msg : SQSMessage F) : AdmissionInfo F :=
  ⟨messageKey msg, msg.estimatedTokens, msg.estimatedCost⟩

/-- The entries of a map that meet a condition. -/
def GoMap.filter {α : Type} (keep : String → α → Bool) (map : GoMap α) : GoMap α :=
  ⟨map.entries.filter fun entry => keep entry.1 entry.2,
    List.NodupKeys.sublist List.filter_sublist map.nodupKeys⟩

/-- `MemoryQueue`. `ch` holds the buffered messages of the channel, oldest first. -/
structure MemoryQueue (F : Type) where
  ch : List (SQSMessage F) := []
  pending : GoMap (List (SQSMessage F)) := ∅
  tenantOrder : List String := []
  nextTenant : Nat := 0
  inQueue : Finset String := ∅
  inFlight : Finset String := ∅
  recent : GoMap Time := ∅
  dlq : List (SQSMessage F) := []

namespace MemoryQueue

variable (cfg : MemoryQueueConfig) (now : Time) (q : MemoryQueue F)

/-- `pruneRecentLocked`. -/
def pruneRecent : MemoryQueue F :=
  { q with recent := GoMap.filter (fun _ ts => now - ts ≤ cfg.dedupeWindow) q.recent }

/-- Whether a key is queued, in flight, or was completed within the window. -/
def duplicate (key : String) : Bool :=
  key ∈ q.inQueue || key ∈ q.inFlight ||
    match q.recent.lookup key with
    | some ts => now - ts ≤ cfg.dedupeWindow
    | none => false

/-- The first section of `Enqueue`: whether the key is new, and if so it is marked. -/
def mark (key : String) : Bool × MemoryQueue F :=
  let q := q.pruneRecent cfg now
  if q.duplicate cfg now key then (false, q)
  else (true, { q with inQueue := insert key q.inQueue })

def unmark (key : String) : MemoryQueue F := { q with inQueue := q.inQueue.erase key }

/-- `addPendingLocked`. -/
def addPending (msg : SQSMessage F) : MemoryQueue F :=
  let tenantID := normalizeTenant msg.tenantID
  match q.pending.lookup tenantID with
  | some waiting => { q with pending := q.pending.insert tenantID (waiting ++ [msg]) }
  | none => { q with
      tenantOrder := q.tenantOrder ++ [tenantID]
      pending := q.pending.insert tenantID [msg] }

/-- `removeTenantLocked`, for an index of the ring. -/
def removeTenant (idx : Nat) : MemoryQueue F :=
  let order := q.tenantOrder.eraseIdx idx
  { q with
    tenantOrder := order
    nextTenant := if order.length ≤ q.nextTenant then 0 else q.nextTenant }

/-- How one turn of the loop of `popEligibleLocked` ends. -/
inductive PopResult (F : Type) where
  | dropped
  | refused
  | popped (msg : SQSMessage F)

/-- One turn of the loop of `popEligibleLocked`, on a ring that is not empty: a tenant
with nothing pending is dropped from the ring; one the manager refuses is passed by;
otherwise its first message is dispatched. -/
def popTurn [Float64 F] (m : Manager F) : PopResult F × MemoryQueue F × Manager F :=
  let idx := q.nextTenant % q.tenantOrder.length
  let tenantID := q.tenantOrder.getD idx ""
  match (q.pending.lookup tenantID).getD [] with
  | [] => (.dropped, { q with pending := q.pending.erase tenantID }.removeTenant idx, m)
  | msg :: rest =>
    match m.tryStartRun now tenantID with
    | (.error _, m) =>
      (.refused, { q with nextTenant := (idx + 1) % q.tenantOrder.length }, m)
    | (.ok (), m) =>
      let q := if rest.isEmpty then
          { q with pending := q.pending.erase tenantID }.removeTenant idx
        else { q with
          pending := q.pending.insert tenantID rest
          nextTenant := (idx + 1) % q.tenantOrder.length }
      let key := messageKey msg
      (.popped msg, { q with
        inQueue := q.inQueue.erase key
        inFlight := insert key q.inFlight }, m)

/-- The loop of `popEligibleLocked` with `checked` tenants passed by. A turn drops a
tenant or counts one, so as many turns as there are tenants are enough. The manager
reads the clock in each turn. -/
def popLoop [Float64 F] (clock : Nat → Time) : Nat → Nat → MemoryQueue F → Manager F →
    Option (SQSMessage F) × MemoryQueue F × Manager F
  | 0, _, q, m => (none, q, m)
  | turns + 1, checked, q, m =>
    if checked < q.tenantOrder.length then
      match q.popTurn (clock turns) m with
      | (.dropped, q, m) => popLoop clock turns checked q m
      | (.refused, q, m) => popLoop clock turns (checked + 1) q m
      | (.popped msg, q, m) => (some msg, q, m)
    else (none, q, m)

/-- `popEligibleLocked`. -/
def popEligible [Float64 F] (clock : Nat → Time) (q : MemoryQueue F) (m : Manager F) :
    Option (SQSMessage F) × MemoryQueue F × Manager F :=
  popLoop clock q.tenantOrder.length 0 q m

/-- The section of `finishAttempt` under the queue's lock: the key is released, and
remembered if the message is done with; a final failure is dead-lettered. -/
def releaseAttempt (msg : SQSMessage F) (failed finalFailure : Bool) : MemoryQueue F :=
  let key := messageKey msg
  let q := { q with inFlight := q.inFlight.erase key }
  let q := if !failed || finalFailure then { q with recent := q.recent.insert key now } else q
  let q := q.pruneRecent cfg now
  if finalFailure then { q with dlq := q.dlq ++ [msg] } else q

/-- The first section of `RedriveDeadLetters`: the batch it takes. -/
def takeDeadLetters (limit : Int) : List (SQSMessage F) × MemoryQueue F :=
  let limit := if limit ≤ 0 ∨ q.dlq.length < limit then q.dlq.length else limit.toNat
  (q.dlq.take limit, { q with dlq := q.dlq.drop limit })

end MemoryQueue

/-- Whether a failure of this attempt is final. -/
def isFinalFailure (cfg : MemoryQueueConfig) (msg : SQSMessage F) (failed : Bool) : Bool :=
  failed && cfg.maxAttempts ≤ msg.attempt

/-- What `finishAttempt` reports to `CompleteRun`. -/
def completionInfo (cfg : MemoryQueueConfig) (msg : SQSMessage F) (failed : Bool) :
    CompletionInfo F :=
  ⟨messageKey msg, msg.estimatedTokens, msg.estimatedCost, failed,
    !failed || isFinalFailure cfg msg failed⟩

/-- The message of the next attempt. -/
def retryMessage (msg : SQSMessage F) : SQSMessage F := { msg with attempt := msg.attempt + 1 }

/-- How long the next attempt waits; the product is one of 64-bit durations. -/
def retryDelay (cfg : MemoryQueueConfig) (retry : SQSMessage F) : Int :=
  let delay := (cfg.retryBackoff * (retry.attempt - 1)).bmod (2 ^ 64)
  if delay ≤ 0 then cfg.retryBackoff else delay

end Queue

end AgentForge
