import AgentForge.System

/-! What a run is estimated to use when it is queued. Nothing bounds `max_tokens` from above, so
that its sum with the estimate of the prompt may leave the numbers of 64 bits, and the lower bound
of 256 then stands in for a request of any size. -/
namespace AgentForge

variable {F : Type} [Float64 F] {mc : ModelConfig F}

/-- The estimate of the prompt: 1.3 tokens a word. -/
def estimatedInput (F : Type) [Float64 F] (prompt : String) : Int :=
  Float64.ceil (Float64.mul (Float64.ofInt (GoText.fields prompt).length : F)
    (Float64.lit (13 / 10)))

/-- The estimate is the sum with the lower bound, or the lower bound where the sum wraps. -/
theorem estimateUsage_tokens (env : ServiceEnv) (asks : 0 < mc.maxTokens)
    (low : 0 ≤ estimatedInput F prompt) (high : estimatedInput F prompt < 2 ^ 63) :
    (estimateUsage env prompt (some mc)).1.toInt =
      if estimatedInput F prompt + mc.maxTokens.toInt < 2 ^ 63 then
        max 256 (estimatedInput F prompt + mc.maxTokens.toInt)
      else 256 := by
  have positive : 0 < mc.maxTokens.toInt := Int64.lt_iff_toInt_lt.mp asks
  have bound := mc.maxTokens.toInt_lt
  have floor : (256 : Int64).toInt = 256 := rfl
  have read : (Int64.ofInt (estimatedInput F prompt)).toInt = estimatedInput F prompt :=
    Int64.toInt_ofInt_of_le (by omega) high
  have sum : (Int64.ofInt (estimatedInput F prompt) + mc.maxTokens).toInt =
      (estimatedInput F prompt + mc.maxTokens.toInt).bmod (2 ^ 64) := by
    rw [Int64.toInt_add, read]
  have tokens : (estimateUsage env prompt (some mc)).1 =
      if Int64.ofInt (estimatedInput F prompt) + mc.maxTokens < 256 then 256
      else Int64.ofInt (estimatedInput F prompt) + mc.maxTokens := by
    simp only [estimateUsage, if_pos asks]
    rfl
  rw [tokens, apply_ite Int64.toInt, floor, sum]
  simp only [Int64.lt_iff_toInt_lt, sum, floor]
  by_cases fits : estimatedInput F prompt + mc.maxTokens.toInt < 2 ^ 63
  · rw [if_pos fits, Int.bmod_eq_of_le (by omega) (by omega)]
    omega
  · have wrapped : (estimatedInput F prompt + mc.maxTokens.toInt).bmod (2 ^ 64) < 256 := by
      rw [Int.bmod_def]
      omega
    rw [if_neg fits, if_pos wrapped]

/-- **Estimates cover the request unless the sum wraps.** For every model configuration with a
positive `max_tokens`, accepted or not, and a prompt whose own estimate is a number of 64 bits, the
estimate is at least 256. It is at least `max_tokens` just if the sum does not wrap or 256 tokens
are enough. It does not fall when `max_tokens` rises, just if the greater sum does not wrap, or the
smaller one wraps as well or is at most 256. -/
theorem estimate_covers_request_iff (env : ServiceEnv) (prompt : String) (mc : ModelConfig F)
    (asks : 0 < mc.maxTokens) (low : 0 ≤ estimatedInput F prompt)
    (high : estimatedInput F prompt < 2 ^ 63) :
    256 ≤ (estimateUsage env prompt (some mc)).1 ∧
    (mc.maxTokens ≤ (estimateUsage env prompt (some mc)).1 ↔
      estimatedInput F prompt + mc.maxTokens.toInt < 2 ^ 63 ∨ mc.maxTokens ≤ 256) ∧
    ∀ mc' : ModelConfig F, mc.maxTokens ≤ mc'.maxTokens →
      ((estimateUsage env prompt (some mc)).1 ≤ (estimateUsage env prompt (some mc')).1 ↔
        estimatedInput F prompt + mc'.maxTokens.toInt < 2 ^ 63 ∨
          2 ^ 63 ≤ estimatedInput F prompt + mc.maxTokens.toInt ∨
          estimatedInput F prompt + mc.maxTokens.toInt ≤ 256) := by
  have floor : (256 : Int64).toInt = 256 := rfl
  have positive : 0 < mc.maxTokens.toInt := Int64.lt_iff_toInt_lt.mp asks
  have tokens := estimateUsage_tokens env asks low high
  simp only [Int64.le_iff_toInt_le, floor]
  refine ⟨by omega, by omega, fun mc' more => ?_⟩
  have asks' : 0 < mc'.maxTokens := Int64.lt_iff_toInt_lt.mpr (positive.trans_le more)
  have tokens' := estimateUsage_tokens env asks' low high
  omega

/-- The model every service allows, with this `max_tokens`. -/
def smallConfig (maxTokens : Int64) : ModelConfig Rat := ⟨"gpt-4o-mini", 1, maxTokens, "", 0, []⟩

theorem estimate_covers_thousand :
    (1000 : Int64) ≤ (estimateUsage plainService "hello" (some (smallConfig 1000))).1 :=
  (estimate_covers_request_iff plainService "hello" (smallConfig 1000) (by decide)
    (by decide +kernel) (by decide +kernel)).2.1.mpr (.inl (by decide +kernel))

/-- The greatest `max_tokens` is accepted, and the run is queued as one of 256 tokens, fewer than
for a request of 1000. -/
theorem greatest_request_understated :
    normalizeAndValidateModelConfig plainService (some (smallConfig 9223372036854775807)) =
        .ok (some (smallConfig 9223372036854775807)) ∧
      (estimateUsage plainService "hello" (some (smallConfig 9223372036854775807))).1 = 256 ∧
      (estimateUsage plainService "hello" (some (smallConfig 1000))).1 = 1002 := by
  refine ⟨rfl, ?_, ?_⟩ <;> decide +kernel

end AgentForge
