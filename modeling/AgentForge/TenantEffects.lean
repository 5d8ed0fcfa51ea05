import AgentForge.Tally
import AgentForge.TenantManager

/-! What each method of the tenant manager does to a tenant, said once: to its counters,
its admissions of the last minute, its dead letters, what it holds and its breaker. A
theorem about one of these reads it off here. -/
namespace AgentForge

open Tally

/-- The two counters of a tenant. -/
structure TenantState.Counters where
  queued : Int64
  running : Int64

/-- The breaker of a tenant. -/
structure Breaker where
  state : BreakerState
  openedAt : Time
  inFlight : Bool

section TenantEffects

variable {F : Type}

/-! ## What a tenant holds -/

/-- What a tenant used and what it holds reserved. -/
structure Holdings (F : Type) where
  tokensUsed : Int64
  reservedTokens : Int64
  reservations : GoMap (AdmissionInfo F)

namespace Holdings

variable (h : Holdings F) (key : String)

/-- The reservation of a message given back. -/
def without : Holdings F :=
  match h.reservations.lookup key with
  | none => h
  | some reserved => { h with
      reservedTokens := h.reservedTokens - reserved.estimatedTokens
      reservations := h.reservations.erase key }

/-- A reservation in place of the one there was. -/
def holding (reserved : AdmissionInfo F) : Holdings F :=
  { h with
    reservedTokens := (h.without key).reservedTokens + reserved.estimatedTokens
    reservations := h.reservations.insert key reserved }

/-- Under the empty key nothing is given back. -/
def freed : Holdings F := if key = "" then h else h.without key

/-- Under the empty key nothing is reserved. -/
def reserving (reserved : AdmissionInfo F) : Holdings F :=
  if key = "" then h else h.holding key reserved

end Holdings

/-! ## What is read off a tenant -/

/-- The parts of a tenant that the theorems are about. -/
structure TenantView (F : Type) where
  counters : TenantState.Counters
  window : List Time
  deadLetter : Int64
  holdings : Holdings F
  breaker : Breaker

namespace TenantState

variable {st : TenantState F} {key : String} {opened : Time}

def counters (st : TenantState F) : Counters := ⟨st.queued, st.running⟩

def holdings (st : TenantState F) : Holdings F :=
  ⟨st.tokensUsed, st.reservedTokens, st.reservations⟩

def breaker (st : TenantState F) : Breaker :=
  ⟨st.breakerState, st.breakerOpenedAt, st.halfOpenInFlight⟩

def view (st : TenantState F) : TenantView F :=
  ⟨st.counters, st.enqWindow, st.deadLetter, st.holdings, st.breaker⟩

/-- The admissions of the last minute, as `TryEnqueue` sees them. -/
def lastMinute (st : TenantState F) (now : Time) : List Time :=
  pruneOld st.enqWindow (now - oneMinute)

/-! ## The steps the methods share -/

/-- The lazy recovery touches nothing but the breaker. -/
theorem maybeRecoverBreaker_eq (pol : Policy F) (now : Time) (st : TenantState F) :
    st.maybeRecoverBreaker pol now = { st with
      breakerState := (st.maybeRecoverBreaker pol now).breakerState
      breakerOpenedAt := (st.maybeRecoverBreaker pol now).breakerOpenedAt
      halfOpenInFlight := (st.maybeRecoverBreaker pol now).halfOpenInFlight } := by
  unfold maybeRecoverBreaker
  split_ifs <;> rfl

/-- An open breaker recovers no earlier than the cooldown allows; any other stays as it is. -/
theorem maybeRecoverBreaker_breaker (pol : Policy F) (now : Time) (st : TenantState F) :
    (st.maybeRecoverBreaker pol now).breaker = st.breaker ∨
      (st.breakerState = .opened ∧ st.breakerOpenedAt + pol.breakerCooldown ≤ now ∧
        (st.maybeRecoverBreaker pol now).breaker = ⟨.halfOpen, st.breakerOpenedAt, false⟩) := by
  unfold maybeRecoverBreaker
  split_ifs with other never cooled
  · exact .inl rfl
  · exact .inl rfl
  · exact .inr ⟨not_not.mp other, Int.add_le_of_le_sub_left cooled, rfl⟩
  · exact .inl rfl

private theorem openBreaker_view (opened : Time) (shut : st.breakerState ≠ .opened) :
    (st.openBreaker opened).view = { st.view with breaker := ⟨.opened, opened, false⟩ } := by
  unfold openBreaker
  rw [if_neg shut]
  rfl

/-- The breaker after a completion: a failure opens it unless it is open already, at once
or at the threshold, and a success closes a half-open one. -/
inductive Settled (before : Breaker) (opened : Time) (failed : Bool) : Breaker → Prop
  | opens (shut : before.state ≠ .opened) (failure : failed = true) :
      Settled before opened failed ⟨.opened, opened, false⟩
  | closes (half : before.state = .halfOpen) (success : failed = false) :
      Settled before opened failed ⟨.closed, 0, false⟩
  | stays (other : before.state ≠ .halfOpen) : Settled before opened failed before

private theorem settleBreaker_view (pol : Policy F) (opened : Time) (st : TenantState F)
    (failed : Bool) : ∃ b, Settled st.breaker opened failed b ∧
      (st.settleBreaker pol opened failed).view = { st.view with breaker := b } := by
  unfold settleBreaker
  cases failed with
  | true =>
    generalize counted : ({ st with
      failed := st.failed + 1
      consecutiveErrors := st.consecutiveErrors + 1 } : TenantState F) = failing
    have same : failing.view = st.view := by rw [← counted]; rfl
    have before : failing.breaker = st.breaker := congrArg TenantView.breaker same
    rw [if_pos rfl, ← same, ← before]
    dsimp only
    by_cases isOpen : failing.breakerState = .opened
    · have kept : failing.openBreaker opened = failing := if_pos isOpen
      have other : failing.breakerState ≠ .halfOpen := fun half => by cases isOpen.symm.trans half
      rw [kept, ite_self, if_neg other]
      exact ⟨_, .stays other, rfl⟩
    have opens := openBreaker_view opened isOpen
    have shut : (failing.openBreaker opened).breakerState ≠ .halfOpen := fun half => by
      cases (congrArg (·.breaker.state) opens).symm.trans half
    by_cases reached : 0 < pol.maxConsecutiveErrors ∧
        pol.maxConsecutiveErrors ≤ failing.consecutiveErrors
    · rw [if_pos reached, if_neg shut]
      exact ⟨_, .opens isOpen rfl, opens⟩
    rw [if_neg reached]
    by_cases half : failing.breakerState = .halfOpen
    · rw [if_pos half]
      exact ⟨_, .opens isOpen rfl, opens⟩
    · rw [if_neg half]
      exact ⟨_, .stays half, rfl⟩
  | false =>
    rw [if_neg Bool.false_ne_true]
    dsimp only
    by_cases half : st.breakerState = .halfOpen
    · rw [if_pos half]
      exact ⟨_, .closes half rfl, rfl⟩
    · rw [if_neg half]
      exact ⟨_, .stays half, rfl⟩

variable [Float64 F]

private theorem release_view :
    (st.release key).view = { st.view with holdings := st.holdings.freed key } := by
  unfold release Holdings.freed Holdings.without
  by_cases unnamed : key = ""
  · rw [if_pos unnamed, if_pos unnamed]
    rfl
  · rw [if_neg unnamed, if_neg unnamed]
    cases found : st.reservations.lookup key <;> simp only [holdings, found] <;> rfl

private theorem reserve_view (tokens : Int64) (cost : F) :
    (st.reserve key tokens cost).view =
      { st.view with holdings := st.holdings.reserving key ⟨key, tokens, cost⟩ } := by
  unfold reserve Holdings.reserving Holdings.holding Holdings.without
  by_cases unnamed : key = ""
  · rw [if_pos unnamed, if_pos unnamed]
    rfl
  · rw [if_neg unnamed, if_neg unnamed]
    cases found : st.reservations.lookup key <;> simp only [holdings, found] <;> rfl

/-! ## The methods -/

/-- With the estimate of the message the tenant is over its budget of tokens or of cost. -/
def OverBudget (pol : Policy F) (st : TenantState F) (info : AdmissionInfo F) : Prop :=
  (0 < pol.tokenBudget ∧
      pol.tokenBudget < st.tokensUsed + st.reservedTokens + max64 0 info.estimatedTokens) ∨
    (Float64.lt (Float64.lit 0) pol.costBudget ∧ Float64.lt pol.costBudget
      (Float64.add (Float64.add st.costUsed st.reservedCost)
        (maxFloat (Float64.lit 0) info.estimatedCost)))

/-- What `TryEnqueue` comes to. It looks at the breaker after the lazy recovery. -/
inductive TriesEnqueue (pol : Policy F) (now opened : Time) (st : TenantState F)
    (info : AdmissionInfo F) (result : Except PolicyViolation Unit × TenantState F) : Prop
  | refused {error : PolicyViolation} (answer : result.1 = .error error)
      (other : error ≠ .rateLimit)
      (left : result.2.view = { st.view with
        breaker := (st.maybeRecoverBreaker pol now).breaker })
  | limited (answer : result.1 = .error .rateLimit)
      (full : pol.rateLimitPerMinute.toInt ≤ (st.lastMinute now).length)
      (left : result.2.view = { st.view with
        window := st.lastMinute now
        breaker := (st.maybeRecoverBreaker pol now).breaker })
  | overBudget {error : PolicyViolation} (answer : result.1 = .error error)
      (other : error ≠ .rateLimit)
      (shut : (st.maybeRecoverBreaker pol now).breakerState ≠ .opened)
      (above : st.OverBudget pol info)
      (left : result.2.view = { st.view with
        window := st.lastMinute now
        breaker := ⟨.opened, opened, false⟩ })
  | admitted (answer : result.1 = .ok ())
      (shut : (st.maybeRecoverBreaker pol now).breakerState ≠ .opened)
      (room : ¬ (0 < pol.maxQueued ∧ pol.maxQueued ≤ st.queued))
      (slow : 0 < pol.rateLimitPerMinute →
        (st.lastMinute now).length < pol.rateLimitPerMinute.toInt)
      (below : ¬ st.OverBudget pol info)
      (left : result.2.view = {
        counters := ⟨st.queued + 1, st.running⟩
        window := st.lastMinute now ++ [now]
        deadLetter := st.deadLetter
        holdings := st.holdings.reserving info.messageKey
          ⟨info.messageKey, max64 0 info.estimatedTokens,
            maxFloat (Float64.lit 0) info.estimatedCost⟩
        breaker := (st.maybeRecoverBreaker pol now).breaker })

theorem tryEnqueue_effect (pol : Policy F) (now opened : Time) (st : TenantState F)
    (info : AdmissionInfo F) :
    TriesEnqueue pol now opened st info (st.tryEnqueue pol now opened info) := by
  have recovered := maybeRecoverBreaker_eq pol now st
  unfold tryEnqueue
  generalize found : st.maybeRecoverBreaker pol now = recovery at recovered
  rw [recovered]
  dsimp only
  split_ifs with isOpen full rate tokens cost
  · exact .refused rfl nofun (by rw [found]; rfl)
  · exact .refused rfl nofun (by rw [found]; rfl)
  · exact .limited rfl rate.2 (by rw [found]; rfl)
  · exact .overBudget rfl nofun (found ▸ isOpen) (.inl tokens) (openBreaker_view _ isOpen)
  · exact .overBudget rfl nofun (found ▸ isOpen) (.inr cost) (openBreaker_view _ isOpen)
  · refine .admitted rfl (found ▸ isOpen) full ?_ ?_ ?_
    · exact fun positive => not_le.mp fun reached => rate ⟨positive, reached⟩
    · exact fun above => above.elim tokens cost
    · rw [found]
      exact reserve_view ..

/-- What `TryStartRun` comes to. At a half-open breaker the run is a probe. -/
inductive TriesStart (pol : Policy F) (now : Time) (st : TenantState F)
    (result : Except PolicyViolation Unit × TenantState F) : Prop
  | refused {error : PolicyViolation} (answer : result.1 = .error error)
      (left : result.2.view = { st.view with
        breaker := (st.maybeRecoverBreaker pol now).breaker })
  | started (answer : result.1 = .ok ())
      (room : ¬ (0 < pol.maxRunning ∧ pol.maxRunning ≤ st.running))
      (closed : (st.maybeRecoverBreaker pol now).breakerState = .closed)
      (left : result.2.view = { st.view with
        counters := ⟨lowered st.queued, st.running + 1⟩
        breaker := (st.maybeRecoverBreaker pol now).breaker })
  | probe (answer : result.1 = .ok ())
      (room : ¬ (0 < pol.maxRunning ∧ pol.maxRunning ≤ st.running))
      (half : (st.maybeRecoverBreaker pol now).breakerState = .halfOpen)
      (idle : (st.maybeRecoverBreaker pol now).halfOpenInFlight = false)
      (left : result.2.view = { st.view with
        counters := ⟨lowered st.queued, st.running + 1⟩
        breaker := ⟨.halfOpen, (st.maybeRecoverBreaker pol now).breakerOpenedAt, true⟩ })

omit [Float64 F] in
theorem tryStartRun_effect (pol : Policy F) (now : Time) (st : TenantState F) :
    TriesStart pol now st (st.tryStartRun pol now) := by
  have recovered := maybeRecoverBreaker_eq pol now st
  unfold tryStartRun
  generalize found : st.maybeRecoverBreaker pol now = recovery at recovered
  rw [recovered]
  dsimp only
  by_cases isOpen : recovery.breakerState = .opened
  · rw [if_pos isOpen]
    exact .refused rfl (by rw [found]; rfl)
  rw [if_neg isOpen]
  by_cases half : recovery.breakerState = .halfOpen
  · by_cases probing : recovery.halfOpenInFlight = true
    · rw [if_pos ⟨half, probing⟩]
      exact .refused rfl (by rw [found]; rfl)
    have idle := Bool.eq_false_iff.mpr probing
    rw [if_neg fun both => probing both.2, if_pos half]
    by_cases full : 0 < pol.maxRunning ∧ pol.maxRunning ≤ st.running
    · -- A probe that finds no room is taken back.
      rw [if_pos full, if_pos half, ← idle]
      exact .refused rfl (by rw [found]; rfl)
    · rw [if_neg full]
      refine .probe rfl full (found ▸ half) (found ▸ idle) ?_
      rw [found, ← half]
      rfl
  · have closed : recovery.breakerState = .closed := by
      cases state : recovery.breakerState with
      | closed => rfl
      | opened => exact absurd state isOpen
      | halfOpen => exact absurd state half
    rw [if_neg fun both => half both.1, if_neg half, if_neg half]
    by_cases full : 0 < pol.maxRunning ∧ pol.maxRunning ≤ st.running
    · rw [if_pos full]
      exact .refused rfl (by rw [found]; rfl)
    · rw [if_neg full]
      exact .started rfl full (found ▸ closed) (by rw [found]; rfl)

/-- What `CompleteRun` comes to. -/
theorem completeRun_effect (pol : Policy F) (opened : Time) (st : TenantState F)
    (done : CompletionInfo F) : ∃ b, Settled st.breaker opened done.failed b ∧
      (st.completeRun pol opened done).view = { st.view with
        counters := ⟨st.queued, lowered st.running⟩
        holdings :=
          if done.wasAccepted then
            { st.holdings.freed done.messageKey with
              tokensUsed :=
                (st.holdings.freed done.messageKey).tokensUsed + max64 0 done.tokensUsed }
          else st.holdings.freed done.messageKey
        breaker := { b with inFlight := false } } := by
  have lower : (if 0 < st.running then { st with running := st.running - 1 } else st).view =
      { st.view with counters := ⟨st.queued, lowered st.running⟩ } := by
    unfold lowered
    split_ifs <;> rfl
  unfold completeRun
  dsimp only
  generalize (if 0 < st.running then { st with running := st.running - 1 } else st) = less at lower
  have freed : (less.release done.messageKey).view = { st.view with
      counters := ⟨st.queued, lowered st.running⟩
      holdings := st.holdings.freed done.messageKey } := by
    rw [release_view, show less.holdings = st.holdings from congrArg TenantView.holdings lower, lower]
  generalize less.release done.messageKey = free at freed
  generalize charged : (if done.wasAccepted then
    { free with
      tokensUsed := free.tokensUsed + max64 0 done.tokensUsed
      costUsed := Float64.add free.costUsed (maxFloat (Float64.lit 0) done.costUsed) }
    else free) = before
  have charge : before.view = { free.view with
      holdings :=
        if done.wasAccepted then
          { free.holdings with tokensUsed := free.holdings.tokensUsed + max64 0 done.tokensUsed }
        else free.holdings } := by
    rw [← charged]
    split_ifs <;> rfl
  have holds : free.holdings = _ := congrArg TenantView.holdings freed
  rw [freed, holds] at charge
  obtain ⟨b, settled, left⟩ := settleBreaker_view pol opened before done.failed
  rw [charge] at left
  rw [show before.breaker = st.breaker from congrArg TenantView.breaker charge] at settled
  refine ⟨b, settled, ?_⟩
  have cleared : ∀ s : TenantState F, { s with halfOpenInFlight := false }.view =
      { s.view with breaker := { s.view.breaker with inFlight := false } } := fun _ => rfl
  rw [cleared, left]

theorem cancelEnqueue_view (st : TenantState F) (key : String) :
    (st.cancelEnqueue key).view = { st.view with
      counters := ⟨lowered st.queued, st.running⟩
      holdings := st.holdings.freed key } := by
  unfold cancelEnqueue lowered
  rw [release_view]
  split_ifs <;> rfl

theorem markDeadLetter_view (st : TenantState F) (key : String) :
    (st.markDeadLetter key).view = { st.view with
      deadLetter := st.deadLetter + 1
      holdings := st.holdings.freed key } :=
  release_view

/-! ## The counters -/

/-- An admission is counted, and made only below the limit; a refusal is not counted. -/
theorem tryEnqueue_counters (pol : Policy F) (now opened : Time) (st : TenantState F)
    (info : AdmissionInfo F) :
    match (st.tryEnqueue pol now opened info).1 with
    | .ok () => ¬ (0 < pol.maxQueued ∧ pol.maxQueued ≤ st.queued) ∧
        (st.tryEnqueue pol now opened info).2.counters = ⟨st.queued + 1, st.running⟩
    | .error _ => (st.tryEnqueue pol now opened info).2.counters = st.counters := by
  cases st.tryEnqueue_effect pol now opened info with
  | refused answer _ left | limited answer _ left | overBudget answer _ _ _ left =>
    exact answer ▸ congrArg TenantView.counters left
  | admitted answer _ room _ _ left => exact answer ▸ ⟨room, congrArg TenantView.counters left⟩

omit [Float64 F] in
/-- A run that starts is counted in place of an admission, and starts only below the
limit. -/
theorem tryStartRun_counters (pol : Policy F) (now : Time) (st : TenantState F) :
    match (st.tryStartRun pol now).1 with
    | .ok () => ¬ (0 < pol.maxRunning ∧ pol.maxRunning ≤ st.running) ∧
        (st.tryStartRun pol now).2.counters = ⟨lowered st.queued, st.running + 1⟩
    | .error _ => (st.tryStartRun pol now).2.counters = st.counters := by
  cases st.tryStartRun_effect pol now with
  | refused answer left => exact answer ▸ congrArg TenantView.counters left
  | started answer room _ left | probe answer room _ _ left =>
    exact answer ▸ ⟨room, congrArg TenantView.counters left⟩

theorem completeRun_counters (pol : Policy F) (opened : Time) (st : TenantState F)
    (done : CompletionInfo F) :
    (st.completeRun pol opened done).counters = ⟨st.queued, lowered st.running⟩ := by
  obtain ⟨_, -, left⟩ := st.completeRun_effect pol opened done
  exact congrArg TenantView.counters left

end TenantState

/-! ## The manager -/

namespace Manager

variable [Float64 F] {m : Manager F} {tenantID other : String} {st : TenantState F}

theorem state_setState : (m.setState tenantID st).state tenantID = st := by
  rw [state, setState, AList.lookup_insert, Option.getD_some]

theorem state_setState_of_ne (apart : other ≠ tenantID) :
    (m.setState tenantID st).state other = m.state other := by
  rw [state, setState, AList.lookup_insert_ne apart, state]

end Manager

end TenantEffects

end AgentForge
