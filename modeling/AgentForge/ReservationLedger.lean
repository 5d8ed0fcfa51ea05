import AgentForge.TokenBudget
import Mathlib.Data.Int.ModEq

/-! The reservations of all tenants as a ledger. Whatever is called, in any order and
with keys that repeat, are unknown or empty, a tenant's counter of reserved tokens is the
sum of its reservations up to wrap-around, a call is about one tenant, and an admission
that is cancelled at once leaves the ledger as it was. -/
namespace AgentForge

open Tally

section Ledger

variable {F : Type} [Float64 F]

/-! ## One tenant -/

namespace TenantState

variable {pol : Policy F} {now opened : Time} {st : TenantState F} {key : String} {charged : Int}

/-- Under a limit on the queue the queue counter does not become negative. -/
theorem after_queued (limited : 0 < pol.maxQueued) (call : TenantCall F)
    (positive : 0 ≤ st.queued.toInt) : 0 ≤ (st.after pol call).queued.toInt := by
  have lowers : 0 ≤ (lowered st.queued).toInt := by
    unfold lowered
    split
    · rename_i some
      have more := Int64.lt_iff_toInt_lt.mp some
      rw [toInt_sub_one some]
      exact Int.le_sub_one_of_lt more
    · exact positive
  change 0 ≤ (st.after pol call).counters.queued.toInt
  cases call with
  | tryEnqueue now opened info =>
    have spec := st.tryEnqueue_counters pol now opened info
    simp only [after]
    split at spec
    · rw [spec.2, toInt_add_one fun full => spec.1 ⟨limited, full⟩]
      omega
    · rw [spec]
      exact positive
  | tryStartRun now =>
    have spec := st.tryStartRun_counters pol now
    simp only [after]
    split at spec
    · rw [spec.2]
      exact lowers
    · rw [spec]
      exact positive
  | completeRun opened done =>
    simp only [after, completeRun_counters]
    exact positive
  | cancelEnqueue key =>
    rw [after, show counters _ = _ from congrArg TenantView.counters (st.cancelEnqueue_view key)]
    exact lowers
  | markDeadLetter key =>
    rw [after, show counters _ = _ from congrArg TenantView.counters (st.markDeadLetter_view key)]
    exact positive

end TenantState

/-! ## The manager -/

/-- A call of the manager. -/
inductive ManagerCall (F : Type) where
  | setPolicy (tenantID : String) (policy : Policy F)
  | look (tenantID : String)
  | on (tenantID : String) (call : TenantCall F)

def ManagerCall.tenantID : ManagerCall F → String
  | .setPolicy tenantID _ | .look tenantID | .on tenantID _ => tenantID

namespace Manager

variable {m : Manager F}

/-- What a call does. `Snapshot` and `Alerts` come to know the tenant they are asked
about; `GetPolicy` and `Snapshots` do nothing to the manager. -/
def does (m : Manager F) : ManagerCall F → Manager F
  | .setPolicy tenantID policy => m.setPolicy tenantID policy
  | .look tenantID => m.setState tenantID (m.state tenantID)
  | .on tenantID call => m.after tenantID call

/-- The managers any calls come to. -/
inductive Reached : Manager F → Prop where
  | new (defaultPolicy : Policy F) : Reached (newManager defaultPolicy)
  | call {m : Manager F} (reached : Reached m) (call : ManagerCall F) : Reached (m.does call)

omit [Float64 F] in
private theorem states_setPolicy (tenantID : String) (policy : Policy F) :
    (m.setPolicy tenantID policy).states = m.states := by
  unfold setPolicy
  split_ifs <;> rfl

/-- A call is about one tenant. -/
theorem lookup_does (apart : call.tenantID ≠ other) :
    (m.does call).states.lookup other = m.states.lookup other := by
  cases call with
  | setPolicy tenantID policy =>
    rw [does, states_setPolicy]
  | look tenantID => exact AList.lookup_insert_ne (Ne.symm apart)
  | on tenantID call =>
    rw [does, after_eq]
    exact AList.lookup_insert_ne (Ne.symm apart)

/-- What holds of the ledger of every tenant. -/
structure Ledger (m : Manager F) : Prop where
  limited : ∀ tenantID, 0 < (m.policy tenantID).maxQueued
  queued : ∀ tenantID, 0 ≤ (m.state tenantID).queued.toInt
  inStep : ∀ tenantID, ∃ charged, (m.state tenantID).holdings.InStep charged

omit [Float64 F] in
private theorem normalizePolicy_limited (policy : Policy F) :
    0 < (normalizePolicy policy).maxQueued := by
  unfold normalizePolicy
  dsimp only
  split
  · decide
  · rename_i positive
    exact Int64.not_le.mp positive

private theorem Ledger.new (defaultPolicy : Policy F) : (newManager defaultPolicy).Ledger where
  limited _ := normalizePolicy_limited defaultPolicy
  queued _ := Int.le_refl 0
  inStep _ := ⟨0, rfl, rfl, Int.le_refl 0, nofun⟩

private theorem Ledger.setPolicy (ledger : m.Ledger) (tenantID : String) (policy : Policy F) :
    (m.setPolicy tenantID policy).Ledger := by
  have states : ∀ other, (m.setPolicy tenantID policy).state other = m.state other := by
    intro other
    rw [state, states_setPolicy, state]
  refine ⟨fun other => ?_, fun other => ?_, fun other => ?_⟩
  · unfold Manager.setPolicy
    split_ifs with unnamed
    · exact ledger.limited other
    · by_cases same : other = tenantID
      · subst same
        rw [Manager.policy, AList.lookup_insert, Option.getD_some]
        exact normalizePolicy_limited policy
      · rw [Manager.policy, AList.lookup_insert_ne same]
        exact ledger.limited other
  · rw [states]
    exact ledger.queued other
  · rw [states]
    exact ledger.inStep other

private theorem Ledger.setState (ledger : m.Ledger) (tenantID : String)
    (queued : 0 ≤ st.queued.toInt) (inStep : ∃ charged, st.holdings.InStep charged) :
    (m.setState tenantID st).Ledger := by
  refine ⟨ledger.limited, fun other => ?_, fun other => ?_⟩
  all_goals by_cases same : other = tenantID
  · rw [same, state_setState]
    exact queued
  · rw [state_setState_of_ne same]
    exact ledger.queued other
  · rw [same, state_setState]
    exact inStep
  · rw [state_setState_of_ne same]
    exact ledger.inStep other

private theorem Ledger.does (ledger : m.Ledger) (call : ManagerCall F) : (m.does call).Ledger := by
  cases call with
  | setPolicy tenantID policy => exact ledger.setPolicy tenantID policy
  | look tenantID =>
    exact ledger.setState tenantID (ledger.queued tenantID) (ledger.inStep tenantID)
  | on tenantID call =>
    obtain ⟨charged, inStep⟩ := ledger.inStep tenantID
    rw [Manager.does, after_eq]
    exact ledger.setState tenantID
      (TenantState.after_queued (ledger.limited tenantID) call (ledger.queued tenantID))
      ⟨_, inStep_after _ call inStep⟩

private theorem Reached.ledger (reached : m.Reached) : m.Ledger := by
  induction reached with
  | new defaultPolicy => exact .new defaultPolicy
  | call _ call ledger => exact ledger.does call

end Manager

/-! ## Cancelling at once -/

namespace TenantState

variable {pol : Policy F} {now opened : Time} {st : TenantState F} {info : AdmissionInfo F}

omit [Float64 F] in
/-- A reservation made where there was none and given back is as if it had not been made. -/
theorem without_holding {h : Holdings F} {key : String}
    (unreserved : h.reservations.lookup key = none) :
    (h.holding key reserved).without key = h := by
  have before : h.without key = h := by
    rw [Holdings.without, unreserved]
  have held : (h.holding key reserved).reservations.lookup key = some reserved :=
    AList.lookup_insert _
  have erased : (h.holding key reserved).reservations.erase key = h.reservations := by
    have absent : key ∉ h.reservations.keys := AList.lookup_eq_none.mp unreserved
    apply AList.ext
    change (List.kinsert key reserved h.reservations.entries).kerase key = _
    have removed : (List.kinsert key reserved h.reservations.entries).kerase key =
        h.reservations.entries.kerase key := List.kerase_cons_eq rfl
    rw [removed, List.kerase_of_notMem_keys absent]
  rw [Holdings.without, held]
  simp only [erased]
  rw [Holdings.holding, before, Int64.add_sub_cancel]

private theorem cancel_tryEnqueue_holdings
    (admitted : (st.tryEnqueue pol now opened info).1 = .ok ())
    (unreserved : st.reservations.lookup info.messageKey = none) :
    ((st.tryEnqueue pol now opened info).2.cancelEnqueue info.messageKey).holdings =
      st.holdings := by
  have spec := st.tryEnqueue_holdings pol now opened info
  rw [admitted] at spec
  rw [cancelEnqueue_holdings, spec.2, Holdings.freed, Holdings.reserving]
  split_ifs
  · rfl
  · exact without_holding unreserved

private theorem cancel_tryEnqueue_queued (limited : 0 < pol.maxQueued)
    (positive : 0 ≤ st.queued.toInt) (admitted : (st.tryEnqueue pol now opened info).1 = .ok ()) :
    ((st.tryEnqueue pol now opened info).2.cancelEnqueue info.messageKey).queued = st.queued := by
  have spec := st.tryEnqueue_counters pol now opened info
  rw [admitted] at spec
  have more : 0 < st.queued + 1 := by
    rw [Int64.lt_iff_toInt_lt, toInt_add_one fun full => spec.1 ⟨limited, full⟩]
    exact Int.lt_add_one_of_le positive
  have counted : (_ : TenantState F).counters = _ := congrArg TenantView.counters
    ((st.tryEnqueue pol now opened info).2.cancelEnqueue_view info.messageKey)
  have queued : (st.tryEnqueue pol now opened info).2.queued = st.queued + 1 :=
    congrArg Counters.queued spec.2
  rw [queued, lowered, if_pos more, Int64.add_sub_cancel] at counted
  exact congrArg Counters.queued counted

end TenantState

/-- **The reservations are a ledger.** Whatever calls were made, the counter of reserved
tokens of every tenant is the sum of the estimates in its reservations, modulo `2 ^ 64`,
and none of these is negative; a call changes the state of its own tenant only; and an
admission under a key without a reservation, cancelled at once, leaves the queue, the
counter and the reservations as they were. -/
theorem reservations_ledger {m : Manager F} (reached : m.Reached) :
    (∀ tenantID,
      (m.state tenantID).reservedTokens.toInt ≡
        ((m.state tenantID).reservations.entries.map fun entry =>
          entry.2.estimatedTokens.toInt).sum [ZMOD 2 ^ 64] ∧
      ∀ key reserved, (m.state tenantID).reservations.lookup key = some reserved →
        0 ≤ reserved.estimatedTokens.toInt) ∧
    (∀ (call : ManagerCall F) (other : String), call.tenantID ≠ other →
      (m.does call).states.lookup other = m.states.lookup other ∧
        (m.does call).state other = m.state other) ∧
    ∀ (now opened : Time) (tenantID : String) (info : AdmissionInfo F),
      (m.tryEnqueue now opened tenantID info).1 = .ok () →
      (m.state tenantID).reservations.lookup info.messageKey = none →
      let after := ((m.tryEnqueue now opened tenantID info).2.cancelEnqueue tenantID
        info.messageKey).state tenantID
      after.queued = (m.state tenantID).queued ∧
        after.reservedTokens = (m.state tenantID).reservedTokens ∧
        after.reservations = (m.state tenantID).reservations := by
  have ledger := reached.ledger
  refine ⟨fun tenantID => ?_, fun call other apart => ?_, ?_⟩
  · obtain ⟨charged, inStep⟩ := ledger.inStep tenantID
    refine ⟨?_, inStep.estimates⟩
    have counter : (m.state tenantID).reservedTokens =
        .ofInt (m.state tenantID).holdings.outstanding := inStep.reserved
    rw [counter, Int64.toInt_ofInt]
    exact Int.bmod_emod
  · have kept := Manager.lookup_does (m := m) apart
    refine ⟨kept, ?_⟩
    rw [Manager.state, kept, Manager.state]
  · intro now opened tenantID info admitted unreserved
    have held := TenantState.cancel_tryEnqueue_holdings admitted unreserved
    have queued := TenantState.cancel_tryEnqueue_queued (ledger.limited tenantID)
      (ledger.queued tenantID) admitted
    have same : ((m.tryEnqueue now opened tenantID info).2.cancelEnqueue tenantID
        info.messageKey).state tenantID =
        ((m.state tenantID).tryEnqueue (m.policy tenantID) now opened info).2.cancelEnqueue
          info.messageKey := by
      rw [Manager.cancelEnqueue, Manager.state_setState, Manager.tryEnqueue, Manager.state_setState]
    simp only [same]
    exact ⟨queued, congrArg Holdings.reservedTokens held, congrArg Holdings.reservations held⟩

end Ledger

/-! Two messages that reserve the greatest estimate there is wrap the counter around. The
ledger is kept, and a third message can still be admitted and cancelled. -/

def greatestEstimates : Manager Rat :=
  ((Manager.newManager { hundredTokens with tokenBudget := 0 }).does
    (.on "t" (.tryEnqueue 1 1 ⟨"a", Int64.maxValue, 0⟩))).does
    (.on "t" (.tryEnqueue 2 2 ⟨"b", Int64.maxValue, 0⟩))

theorem reservations_ledger_wraps :
    greatestEstimates.Reached ∧
      (greatestEstimates.state "t").reservedTokens = -2 ∧
      (-2 : Int64).toInt ≡ Int64.maxValue.toInt + Int64.maxValue.toInt [ZMOD 2 ^ 64] ∧
      (greatestEstimates.tryEnqueue 3 3 "t" ⟨"", 7, 0⟩).1 = .ok () ∧
      (((greatestEstimates.tryEnqueue 3 3 "t" ⟨"", 7, 0⟩).2.cancelEnqueue "t" "").state
        "t").queued = (greatestEstimates.state "t").queued := by
  have reached : greatestEstimates.Reached := .call (.call (.new _) _) _
  have wrapped : (greatestEstimates.state "t").reservedTokens = -2 := by decide
  have admitted : (greatestEstimates.tryEnqueue 3 3 "t" ⟨"", 7, 0⟩).1 = .ok () := by decide
  have unreserved : (greatestEstimates.state "t").reservations.lookup "" = none := by decide
  have ⟨sums, _, cancels⟩ := reservations_ledger reached
  have sum : ((greatestEstimates.state "t").reservations.entries.map fun entry =>
      entry.2.estimatedTokens.toInt).sum = Int64.maxValue.toInt + Int64.maxValue.toInt := by decide
  refine ⟨reached, wrapped, ?_, admitted, (cancels 3 3 "t" _ admitted unreserved).1⟩
  have congruent := (sums "t").1
  rwa [wrapped, sum] at congruent

end AgentForge
