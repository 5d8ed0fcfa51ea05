import AgentForge.MemoryStore

/-! `pkg/tenant/manager.go`: per-tenant limits, budgets and the circuit breaker. A
method holds the manager's lock throughout, so it is a function from the manager to
its answer and the manager it leaves. `now` is its first reading of the clock; a
breaker that opens is stamped with a second one, `opened`. Alerts are written and
never read by any of this, and left out. -/
namespace AgentForge

inductive BreakerState where
  | closed | opened | halfOpen
  deriving DecidableEq, Repr

/-- `Policy`, without its alert thresholds. -/
structure Policy (F : Type) where
  maxRunning : Int64
  maxQueued : Int64
  rateLimitPerMinute : Int64
  maxConsecutiveErrors : Int64
  breakerCooldown : Int
  tokenBudget : Int64
  costBudget : F

/-- `AdmissionInfo`. -/
structure AdmissionInfo (F : Type) where
  messageKey : String
  estimatedTokens : Int64
  estimatedCost : F

/-- `CompletionInfo`. -/
structure CompletionInfo (F : Type) where
  messageKey : String
  tokensUsed : Int64
  costUsed : F
  failed : Bool
  wasAccepted : Bool

/-- `tenantState`. -/
structure TenantState (F : Type) where
  running : Int64 := 0
  queued : Int64 := 0
  enqueued : Int64 := 0
  dequeued : Int64 := 0
  completed : Int64 := 0
  failed : Int64 := 0
  deadLetter : Int64 := 0
  consecutiveErrors : Int64 := 0
  breakerState : BreakerState := .closed
  breakerOpenedAt : Time := 0
  halfOpenInFlight : Bool := false
  rateLimited : Int64 := 0
  tokensUsed : Int64 := 0
  costUsed : F
  reservedTokens : Int64 := 0
  reservedCost : F
  reservations : GoMap (AdmissionInfo F) := ∅
  enqWindow : List Time := []

/-- The reasons of an `ErrPolicyViolation`. -/
inductive PolicyViolation where
  | breakerOpen | queuedLimit | rateLimit | tokenBudget | costBudget | probing | runningLimit
  deriving DecidableEq, Repr

def PolicyViolation.reason : PolicyViolation → String
  | .breakerOpen => "tenant breaker is open"
  | .queuedLimit => "tenant queued limit exceeded"
  | .rateLimit => "tenant rate limit exceeded"
  | .tokenBudget => "tenant token budget exceeded"
  | .costBudget => "tenant cost budget exceeded"
  | .probing => "tenant breaker is half-open and already probing"
  | .runningLimit => "tenant running limit exceeded"

section Tenant

variable {F : Type} [Float64 F]

/-- `normalizePolicy`: a limit that is not positive is given its default. -/
def normalizePolicy (p : Policy F) : Policy F :=
  { p with
    maxRunning := if p.maxRunning ≤ 0 then 4 else p.maxRunning
    maxQueued := if p.maxQueued ≤ 0 then 128 else p.maxQueued
    rateLimitPerMinute := if p.rateLimitPerMinute ≤ 0 then 240 else p.rateLimitPerMinute
    maxConsecutiveErrors := if p.maxConsecutiveErrors ≤ 0 then 5 else p.maxConsecutiveErrors
    breakerCooldown := if p.breakerCooldown ≤ 0 then 60 * 1000000000 else p.breakerCooldown }

def max64 (a b : Int64) : Int64 := if b < a then a else b

def maxFloat (a b : F) : F := if Float64.lt b a then a else b

/-- `pruneOld`: the timestamps from the first that is not before the cutoff on. -/
def pruneOld (ts : List Time) (cutoff : Time) : List Time := ts.dropWhile (· < cutoff)

def oneMinute : Int := 60 * 1000000000

/-! ## One tenant -/

namespace TenantState

/-- The state of a tenant not seen before. -/
def fresh : TenantState F := { costUsed := Float64.lit 0, reservedCost := Float64.lit 0 }

variable (pol : Policy F) (now opened : Time) (st : TenantState F)

/-- `maybeRecoverBreakerLocked`: an open breaker is half open once it has cooled down. -/
def maybeRecoverBreaker : TenantState F :=
  if st.breakerState ≠ .opened then st
  else if pol.breakerCooldown ≤ 0 ∨ st.breakerOpenedAt = 0 then st
  else if pol.breakerCooldown ≤ now - st.breakerOpenedAt then
    { st with breakerState := .halfOpen, halfOpenInFlight := false }
  else st

/-- `openBreakerLocked`. -/
def openBreaker : TenantState F :=
  if st.breakerState = .opened then st
  else { st with breakerState := .opened, breakerOpenedAt := opened, halfOpenInFlight := false }

/-- Give the reservation of a message back, if it has one. -/
def release (messageKey : String) : TenantState F :=
  if messageKey = "" then st
  else match st.reservations.lookup messageKey with
    | none => st
    | some reserved => { st with
        reservedTokens := st.reservedTokens - reserved.estimatedTokens
        reservedCost := Float64.sub st.reservedCost reserved.estimatedCost
        reservations := st.reservations.erase messageKey }

/-- Reserve the estimates of a message, in place of those it had reserved before. -/
def reserve (messageKey : String) (tokens : Int64) (cost : F) : TenantState F :=
  if messageKey = "" then st
  else
    let (heldTokens, heldCost) := match st.reservations.lookup messageKey with
      | some old => (st.reservedTokens - old.estimatedTokens,
          Float64.sub st.reservedCost old.estimatedCost)
      | none => (st.reservedTokens, st.reservedCost)
    { st with
      reservations := st.reservations.insert messageKey ⟨messageKey, tokens, cost⟩
      reservedTokens := heldTokens + tokens
      reservedCost := Float64.add heldCost cost }

/-- `TryEnqueue`. -/
def tryEnqueue (info : AdmissionInfo F) : Except PolicyViolation Unit × TenantState F :=
  let st := st.maybeRecoverBreaker pol now
  if st.breakerState = .opened then (.error .breakerOpen, st)
  else if 0 < pol.maxQueued ∧ pol.maxQueued ≤ st.queued then (.error .queuedLimit, st)
  else
    let st := { st with enqWindow := pruneOld st.enqWindow (now - oneMinute) }
    if 0 < pol.rateLimitPerMinute ∧ pol.rateLimitPerMinute.toInt ≤ st.enqWindow.length then
      (.error .rateLimit, { st with rateLimited := st.rateLimited + 1 })
    else
      let estTokens := max64 0 info.estimatedTokens
      let estCost := maxFloat (Float64.lit 0) info.estimatedCost
      if 0 < pol.tokenBudget ∧ pol.tokenBudget < st.tokensUsed + st.reservedTokens + estTokens then
        (.error .tokenBudget, st.openBreaker opened)
      else if Float64.lt (Float64.lit 0) pol.costBudget ∧ Float64.lt pol.costBudget
          (Float64.add (Float64.add st.costUsed st.reservedCost) estCost) then
        (.error .costBudget, st.openBreaker opened)
      else
        let st := { st with
          queued := st.queued + 1
          enqueued := st.enqueued + 1
          enqWindow := st.enqWindow ++ [now] }
        (.ok (), st.reserve info.messageKey estTokens estCost)

/-- `TryStartRun`. -/
def tryStartRun : Except PolicyViolation Unit × TenantState F :=
  let st := st.maybeRecoverBreaker pol now
  if st.breakerState = .opened then (.error .breakerOpen, st)
  else if st.breakerState = .halfOpen ∧ st.halfOpenInFlight then (.error .probing, st)
  else
    let st := if st.breakerState = .halfOpen then { st with halfOpenInFlight := true } else st
    if 0 < pol.maxRunning ∧ pol.maxRunning ≤ st.running then
      (.error .runningLimit,
        if st.breakerState = .halfOpen then { st with halfOpenInFlight := false } else st)
    else
      (.ok (), { st with
        running := st.running + 1
        queued := if 0 < st.queued then st.queued - 1 else st.queued
        dequeued := st.dequeued + 1 })

/-- The breaker after a completion. A success closes a half-open breaker; a failure
opens it at the threshold, and opens a half-open one in any case. -/
def settleBreaker (failed : Bool) : TenantState F :=
  if failed then
    let st := { st with failed := st.failed + 1, consecutiveErrors := st.consecutiveErrors + 1 }
    let st := if 0 < pol.maxConsecutiveErrors ∧ pol.maxConsecutiveErrors ≤ st.consecutiveErrors then
        st.openBreaker opened else st
    if st.breakerState = .halfOpen then st.openBreaker opened else st
  else
    let st := { st with completed := st.completed + 1, consecutiveErrors := 0 }
    if st.breakerState = .halfOpen then
      { st with breakerState := .closed, halfOpenInFlight := false, breakerOpenedAt := 0 }
    else st

/-- `CompleteRun`. -/
def completeRun (info : CompletionInfo F) : TenantState F :=
  let st := if 0 < st.running then { st with running := st.running - 1 } else st
  let st := st.release info.messageKey
  let st := if info.wasAccepted then
      { st with
        tokensUsed := st.tokensUsed + max64 0 info.tokensUsed
        costUsed := Float64.add st.costUsed (maxFloat (Float64.lit 0) info.costUsed) }
    else st
  { st.settleBreaker pol opened info.failed with halfOpenInFlight := false }

/-- `CancelEnqueue`. -/
def cancelEnqueue (messageKey : String) : TenantState F :=
  let st := if 0 < st.queued then { st with queued := st.queued - 1 } else st
  st.release messageKey

/-- `MarkDeadLetter`. -/
def markDeadLetter (messageKey : String) : TenantState F :=
  let st := { st with deadLetter := st.deadLetter + 1 }
  st.release messageKey

end TenantState

/-! ## The manager -/

/-- `Manager`. -/
structure Manager (F : Type) where
  defaultPolicy : Policy F
  policies : GoMap (Policy F) := ∅
  states : GoMap (TenantState F) := ∅

namespace Manager

/-- `NewManager`. -/
def newManager (defaultPolicy : Policy F) : Manager F :=
  { defaultPolicy := normalizePolicy defaultPolicy }

variable (m : Manager F) (now opened : Time) (tenantID : String)

/-- `SetPolicy`. -/
def setPolicy (policy : Policy F) : Manager F :=
  if tenantID = "" then m
  else { m with policies := m.policies.insert tenantID (normalizePolicy policy) }

/-- `policyLocked`. -/
def policy : Policy F := (m.policies.lookup tenantID).getD m.defaultPolicy

/-- `stateLocked`. -/
def state : TenantState F := (m.states.lookup tenantID).getD .fresh

def setState (st : TenantState F) : Manager F :=
  { m with states := m.states.insert tenantID st }

def tryEnqueue (info : AdmissionInfo F) : Except PolicyViolation Unit × Manager F :=
  let result := (m.state tenantID).tryEnqueue (m.policy tenantID) now opened info
  (result.1, m.setState tenantID result.2)

def tryStartRun : Except PolicyViolation Unit × Manager F :=
  let result := (m.state tenantID).tryStartRun (m.policy tenantID) now
  (result.1, m.setState tenantID result.2)

def completeRun (info : CompletionInfo F) : Manager F :=
  m.setState tenantID ((m.state tenantID).completeRun (m.policy tenantID) opened info)

def cancelEnqueue (messageKey : String) : Manager F :=
  m.setState tenantID ((m.state tenantID).cancelEnqueue messageKey)

def markDeadLetter (messageKey : String) : Manager F :=
  m.setState tenantID ((m.state tenantID).markDeadLetter messageKey)

end Manager

end Tenant

end AgentForge
