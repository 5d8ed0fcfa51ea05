import AgentForge.TenantCalls

/-! The token budget of a tenant. `TryEnqueue` adds what was used, what is reserved and
what the message is estimated at in 64 bits and compares the sum with the budget. The two
counters keep their true sums up to wrap-around, and as long as these are within the
budget they are exact; but the sum with the new estimate may wrap around, and then any
estimate is let in. -/
namespace AgentForge

open Transition Tally
open Transition.System (Throughout Within)

section TokenBudget

variable {F : Type}

namespace Holdings

/-- The estimate of a reservation as an integer. -/
def estimate (reserved : AdmissionInfo F) : Int := reserved.estimatedTokens.toInt

variable (h : Holdings F) (key : String)

/-- The true sum of the estimates of all reservations. -/
def outstanding : Int := total estimate h.reservations

/-- What is reserved for a message. -/
def reservedFor : Int := amountOf estimate h.reservations key

/-- The counters keep the true sums up to wrap-around, and nothing is negative. -/
structure InStep (charged : Int) (h : Holdings F) : Prop where
  used : h.tokensUsed = .ofInt charged
  reserved : h.reservedTokens = .ofInt h.outstanding
  positive : 0 ≤ charged
  estimates : ∀ key reserved, h.reservations.lookup key = some reserved → 0 ≤ estimate reserved

variable {h key}

private theorem outstanding_without :
    (h.without key).outstanding = h.outstanding - h.reservedFor key := by
  have erased := total_erase estimate h.reservations key
  unfold without
  cases found : h.reservations.lookup key with
  | none => simp [reservedFor, amountOf, found]
  | some reserved => exact erased

private theorem outstanding_holding (reserved : AdmissionInfo F) :
    (h.holding key reserved).outstanding =
      h.outstanding - h.reservedFor key + estimate reserved :=
  total_insert estimate h.reservations key reserved

private theorem without_reservedTokens (inStep : InStep charged h) :
    (h.without key).reservedTokens = .ofInt (h.outstanding - h.reservedFor key) := by
  unfold without reservedFor amountOf
  cases found : h.reservations.lookup key with
  | none => simp [inStep.reserved]
  | some reserved =>
    rw [Option.map_some, Option.getD_some, estimate, Int64.ofInt_sub, Int64.ofInt_toInt,
      ← inStep.reserved]

private theorem without_tokensUsed : (h.without key).tokensUsed = h.tokensUsed := by
  unfold without
  split <;> rfl

section InStep

variable (inStep : InStep charged h)

include inStep

theorem InStep.without : InStep charged (h.without key) where
  used := without_tokensUsed.trans inStep.used
  reserved := by rw [outstanding_without, without_reservedTokens inStep]
  positive := inStep.positive
  estimates := by
    intro other reserved found
    refine inStep.estimates other reserved ?_
    unfold Holdings.without at found
    split at found
    · exact found
    · by_cases same : other = key
      · rw [same, AList.lookup_erase] at found
        cases found
      · rwa [AList.lookup_erase_ne same] at found

theorem InStep.holding {reserved : AdmissionInfo F}
    (positive : 0 ≤ estimate reserved) : InStep charged (h.holding key reserved) where
  used := inStep.used
  reserved := by
    have counter : (h.holding key reserved).reservedTokens =
        (h.without key).reservedTokens + reserved.estimatedTokens := rfl
    rw [counter, without_reservedTokens inStep, outstanding_holding, Int64.ofInt_add, estimate,
      Int64.ofInt_toInt]
  positive := inStep.positive
  estimates := by
    intro other held found
    by_cases same : other = key
    · have here : (h.holding key reserved).reservations.lookup other = some reserved := by
        rw [same]
        exact AList.lookup_insert _
      obtain rfl := Option.some.inj (here.symm.trans found)
      exact positive
    · refine inStep.estimates other held ?_
      rwa [Holdings.holding, AList.lookup_insert_ne same] at found

theorem InStep.freed : InStep charged (h.freed key) := by
  unfold Holdings.freed
  split_ifs
  · exact inStep
  · exact inStep.without

theorem InStep.reserving {reserved : AdmissionInfo F}
    (positive : 0 ≤ estimate reserved) : InStep charged (h.reserving key reserved) := by
  unfold Holdings.reserving
  split_ifs
  · exact inStep
  · exact inStep.holding positive

theorem InStep.charge {tokens : Int64} (positive : 0 ≤ tokens.toInt) :
    InStep (charged + tokens.toInt) { h with tokensUsed := h.tokensUsed + tokens } where
  used := by rw [inStep.used, Int64.ofInt_add, Int64.ofInt_toInt]
  reserved := inStep.reserved
  positive := Int.add_nonneg inStep.positive positive
  estimates := inStep.estimates

theorem InStep.outstanding_nonneg : 0 ≤ h.outstanding :=
  total_nonneg inStep.estimates

theorem InStep.reservedFor_nonneg : 0 ≤ h.reservedFor key :=
  amountOf_nonneg key inStep.estimates

end InStep

end Holdings

/-! ## What the calls do to the holdings -/

variable [Float64 F]

namespace TenantState

/-- An admission reserves the estimate, and is made only if the sum in 64 bits is within
the budget; a refusal changes nothing. -/
theorem tryEnqueue_holdings (pol : Policy F) (now opened : Time) (st : TenantState F)
    (info : AdmissionInfo F) :
    match (st.tryEnqueue pol now opened info).1 with
    | .ok () => ¬ (0 < pol.tokenBudget ∧
          pol.tokenBudget < st.tokensUsed + st.reservedTokens + max64 0 info.estimatedTokens) ∧
        (st.tryEnqueue pol now opened info).2.holdings = st.holdings.reserving info.messageKey
          ⟨info.messageKey, max64 0 info.estimatedTokens,
            maxFloat (Float64.lit 0) info.estimatedCost⟩
    | .error _ => (st.tryEnqueue pol now opened info).2.holdings = st.holdings := by
  cases st.tryEnqueue_effect pol now opened info with
  | refused answer _ left | limited answer _ left | overBudget answer _ _ _ left =>
    exact answer ▸ congrArg TenantView.holdings left
  | admitted answer _ _ _ below left =>
    exact answer ▸ ⟨fun above => below (.inl above), congrArg TenantView.holdings left⟩

omit [Float64 F] in
theorem tryStartRun_holdings (pol : Policy F) (now : Time) (st : TenantState F) :
    (st.tryStartRun pol now).2.holdings = st.holdings := by
  cases st.tryStartRun_effect pol now with
  | refused _ left | started _ _ _ left | probe _ _ _ _ left =>
    exact congrArg TenantView.holdings left

theorem completeRun_holdings (pol : Policy F) (opened : Time) (st : TenantState F)
    (done : CompletionInfo F) :
    (st.completeRun pol opened done).holdings =
      if done.wasAccepted then
        { st.holdings.freed done.messageKey with
          tokensUsed := (st.holdings.freed done.messageKey).tokensUsed + max64 0 done.tokensUsed }
      else st.holdings.freed done.messageKey := by
  obtain ⟨_, -, left⟩ := st.completeRun_effect pol opened done
  exact congrArg TenantView.holdings left

theorem cancelEnqueue_holdings (st : TenantState F) (key : String) :
    (st.cancelEnqueue key).holdings = st.holdings.freed key :=
  congrArg TenantView.holdings (st.cancelEnqueue_view key)

theorem markDeadLetter_holdings (st : TenantState F) (key : String) :
    (st.markDeadLetter key).holdings = st.holdings.freed key :=
  congrArg TenantView.holdings (st.markDeadLetter_view key)

end TenantState

/-! ## Whole runs -/

omit [Float64 F] in
private theorem max64_toInt (n : Int64) : (max64 0 n).toInt = max 0 n.toInt := by
  have zero : (0 : Int64).toInt = 0 := rfl
  unfold max64
  split
  · rename_i negative
    have less := Int64.lt_iff_toInt_lt.mp negative
    omega
  · rename_i positive
    have more := Int64.lt_iff_toInt_lt.not.mp positive
    omega

/-- Calls with keys, in which an accepted completion reports at most what is reserved for
its message; noted is the true sum of the tokens charged. -/
def charging : Watch F (TenantCall F) Int where
  call := id
  begins charged := charged = 0
  permits st _
    | .tryEnqueue _ _ info => info.messageKey ≠ ""
    | .tryStartRun _ => True
    | .completeRun _ info => info.messageKey ≠ "" ∧
        (info.wasAccepted → info.tokensUsed.toInt ≤ st.holdings.reservedFor info.messageKey)
    | .cancelEnqueue messageKey | .markDeadLetter messageKey => messageKey ≠ ""
  notes _ _ charged
    | .completeRun _ info => if info.wasAccepted then charged + (max64 0 info.tokensUsed).toInt
        else charged
    | _ => charged

/-- What was charged and what is outstanding are within the budget. -/
def WithinBudget (pol : Policy F) (s : TenantState F × Int) : Prop :=
  s.2 + s.1.holdings.outstanding ≤ pol.tokenBudget.toInt

/-- A message is let in only if the sum with its estimate fits 64 bits, or if what it had
reserved before makes up for it. -/
def AdmitsFitting (pol : Policy F) (s : TenantState F × Int) : TenantCall F → Prop
  | .tryEnqueue now opened info => (s.1.tryEnqueue pol now opened info).1 = .ok () →
      s.2 + s.1.holdings.outstanding + (max64 0 info.estimatedTokens).toInt < 2 ^ 63 ∨
        s.2 + s.1.holdings.outstanding - s.1.holdings.reservedFor info.messageKey +
          (max64 0 info.estimatedTokens).toInt ≤ pol.tokenBudget.toInt
  | _ => True

private theorem max64_nonneg (n : Int64) : 0 ≤ (max64 0 n).toInt := by
  rw [max64_toInt]
  omega

/-- Every call keeps the counters in step, whatever its key. -/
theorem inStep_after (pol : Policy F) {st : TenantState F} (call : TenantCall F)
    (inStep : st.holdings.InStep charged) :
    (st.after pol call).holdings.InStep (charging.notes pol st charged call) := by
  cases call with
  | tryEnqueue now opened info =>
    have spec := st.tryEnqueue_holdings pol now opened info
    simp only [TenantState.after, charging]
    split at spec
    · rw [spec.2]
      exact inStep.reserving (max64_nonneg _)
    · rw [spec]
      exact inStep
  | tryStartRun now =>
    simp only [TenantState.after, st.tryStartRun_holdings]
    exact inStep
  | completeRun opened info =>
    simp only [TenantState.after, st.completeRun_holdings, charging]
    split_ifs
    · exact inStep.freed.charge (max64_nonneg _)
    · exact inStep.freed
  | cancelEnqueue key =>
    simp only [TenantState.after, st.cancelEnqueue_holdings]
    exact inStep.freed
  | markDeadLetter key =>
    simp only [TenantState.after, st.markDeadLetter_holdings]
    exact inStep.freed

/-- In every reachable state the counters keep the true sums up to wrap-around. -/
theorem inStep_of_reachable {pol : Policy F} (reached : (watched pol charging).Reachable s) :
    s.1.holdings.InStep s.2 := by
  refine reached.invariant (P := fun s => s.1.holdings.InStep s.2) ?_ ?_
  · rintro ⟨st, charged⟩ ⟨rfl, rfl⟩
    exact ⟨rfl, rfl, le_rfl, fun key reserved found => by cases found⟩
  · rintro s call t - inStep ⟨-, rfl⟩
    exact inStep_after pol call inStep

omit [Float64 F] in
/-- Within the budget the comparison is exact wherever the sum fits 64 bits. -/
theorem sum_exact {h : Holdings F} (inStep : h.InStep charged) {tokens : Int64}
    (positive : 0 ≤ tokens.toInt) (fits : charged + h.outstanding + tokens.toInt < 2 ^ 63) :
    (h.tokensUsed + h.reservedTokens + tokens).toInt = charged + h.outstanding + tokens.toInt := by
  have sum : h.tokensUsed + h.reservedTokens + tokens =
      .ofInt (charged + h.outstanding + tokens.toInt) := by
    rw [Int64.ofInt_add, Int64.ofInt_add, Int64.ofInt_toInt, inStep.used, inStep.reserved]
  have charges := inStep.positive
  have estimates := inStep.outstanding_nonneg
  rw [sum, Int64.toInt_ofInt_of_le (by omega) fits]

/-- From a state within the budget, a call leads to one exactly if it meets the
condition. Only an admission adds to the two sums. -/
theorem withinBudget_after_iff (limited : 0 < pol.tokenBudget) {s : TenantState F × Int}
    {call : TenantCall F} (inStep : s.1.holdings.InStep s.2) (within : WithinBudget pol s)
    (permitted : charging.permits s.1 s.2 call) :
    WithinBudget pol (s.1.after pol call, charging.notes pol s.1 s.2 call) ↔
      AdmitsFitting pol s call := by
  obtain ⟨st, charged⟩ := s
  change charged + st.holdings.outstanding ≤ pol.tokenBudget.toInt at within
  change st.holdings.InStep charged at inStep
  have reserved : ∀ key, 0 ≤ st.holdings.reservedFor key := fun key => inStep.reservedFor_nonneg
  have released : ∀ key, charged + (st.holdings.without key).outstanding ≤ pol.tokenBudget.toInt := by
    intro key
    have some := reserved key
    rw [Holdings.outstanding_without]
    omega
  unfold WithinBudget
  cases call with
  | tryEnqueue now opened info =>
    have spec := st.tryEnqueue_holdings pol now opened info
    simp only [TenantState.after, charging, AdmitsFitting]
    split at spec
    · rename_i admitted
      obtain ⟨passed, holdings⟩ := spec
      rw [holdings, Holdings.reserving, if_neg permitted, Holdings.outstanding_holding]
      dsimp only [Holdings.estimate]
      refine ⟨fun kept _ => .inr (by omega), fun fitting => ?_⟩
      rcases fitting admitted with fits | kept
      · have sum : (st.tokensUsed + st.reservedTokens + max64 0 info.estimatedTokens).toInt =
            charged + st.holdings.outstanding + (max64 0 info.estimatedTokens).toInt :=
          sum_exact inStep (max64_nonneg _) fits
        have compared := Int64.lt_iff_toInt_lt.not.mp fun above => passed ⟨limited, above⟩
        have some := reserved info.messageKey
        omega
      · omega
    · rename_i refused
      rw [spec]
      refine iff_of_true within fun admitted => ?_
      cases refused.symm.trans admitted
  | tryStartRun now =>
    simp only [TenantState.after, charging, AdmitsFitting, st.tryStartRun_holdings]
    exact iff_of_true within trivial
  | completeRun opened info =>
    simp only [TenantState.after, charging, AdmitsFitting, st.completeRun_holdings,
      Holdings.freed, if_neg permitted.1]
    refine iff_of_true ?_ trivial
    split_ifs with accepted
    · have reports : info.tokensUsed.toInt ≤ st.holdings.reservedFor info.messageKey :=
        permitted.2 accepted
      have some := reserved info.messageKey
      have charge : ∀ tokens, ({ st.holdings.without info.messageKey with tokensUsed := tokens } :
          Holdings F).outstanding = (st.holdings.without info.messageKey).outstanding := fun _ => rfl
      rw [charge, Holdings.outstanding_without, max64_toInt]
      omega
    · exact released _
  | cancelEnqueue key =>
    simp only [TenantState.after, charging, AdmitsFitting, st.cancelEnqueue_holdings,
      Holdings.freed, if_neg (show key ≠ "" from permitted)]
    exact iff_of_true (released key) trivial
  | markDeadLetter key =>
    simp only [TenantState.after, charging, AdmitsFitting, st.markDeadLetter_holdings,
      Holdings.freed, if_neg (show key ≠ "" from permitted)]
    exact iff_of_true (released key) trivial

/-- **Token budget.** With a budget, in every run of calls the true sum of the tokens
charged and of the outstanding estimates is within it in every state if and only if each
message that is let in fits: the sum of what was charged, what is outstanding and its
estimate is below 2^63, or what it had reserved before makes up for it. -/
theorem token_budget_kept_iff {pol : Policy F} (limited : 0 < pol.tokenBudget)
    {history : List ((TenantState F × Int) × TenantCall F)} {s : TenantState F × Int}
    (path : (watched pol charging).Path history s) :
    Throughout (WithinBudget pol) history s ↔ Within (AdmitsFitting pol) history := by
  refine path.throughout_iff_within ?_ ?_
  · rintro ⟨st, charged⟩ ⟨rfl, rfl⟩
    exact Int.le_of_lt (Int64.lt_iff_toInt_lt.mp limited)
  · rintro s call t reached within ⟨permitted, rfl⟩
    exact withinBudget_after_iff limited (inStep_of_reachable reached) within permitted

end TokenBudget

/-- A budget of a hundred tokens, and nothing else that limits two messages. -/
def hundredTokens : Policy Rat := normalizePolicy
  { maxRunning := 0, maxQueued := 0, rateLimitPerMinute := 0, maxConsecutiveErrors := 0
    breakerCooldown := 0, tokenBudget := 100, costBudget := 0 }

/-- Two messages of a tenant not seen before, one after the other. -/
theorem two_messages (first second : AdmissionInfo Rat) (named : first.messageKey ≠ "")
    (named' : second.messageKey ≠ "") :
    (watched hundredTokens charging).Path
      [((TenantState.fresh.after hundredTokens (.tryEnqueue 1 1 first), 0), .tryEnqueue 2 2 second),
        ((TenantState.fresh, 0), .tryEnqueue 1 1 first)]
      ((TenantState.fresh.after hundredTokens (.tryEnqueue 1 1 first)).after hundredTokens
        (.tryEnqueue 2 2 second), 0) :=
  .next (.next (.start ⟨rfl, rfl⟩) ⟨named, rfl⟩) ⟨named', rfl⟩

/-- Estimates of sixty and forty tokens are let in, and the budget is kept. -/
theorem token_budget_kept_small :
    ∃ history s, (watched hundredTokens charging).Path history s ∧
      s.1.holdings.outstanding = 100 ∧ Throughout (WithinBudget hundredTokens) history s := by
  have path := two_messages ⟨"a", 60, 0⟩ ⟨"b", 40, 0⟩ (by decide) (by decide)
  refine ⟨_, _, path, by decide, (token_budget_kept_iff (by decide) path).mpr ?_⟩
  simp only [Within, List.forall_mem_cons]
  exact ⟨fun _ => .inl (by decide), fun _ => .inl (by decide), by simp⟩

/-- After one token is reserved, the largest estimate there is wraps the sum around. -/
theorem token_budget_exceeded_wrap :
    ∃ history s, (watched hundredTokens charging).Path history s ∧
      ¬ WithinBudget hundredTokens s := by
  have path := two_messages ⟨"a", 1, 0⟩ ⟨"b", Int64.maxValue, 0⟩ (by decide) (by decide)
  exact ⟨_, _, path, by unfold WithinBudget; decide⟩

end AgentForge
