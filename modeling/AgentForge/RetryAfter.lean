import AgentForge.Model

/-! How long the client of a provider waits before it tries again. The wait doubles from one
attempt to the next, and a `Retry-After` header asks for a longer one in seconds or by a date.
Both are computed in the 64 bits of a `time.Duration`, where a great number of seconds wraps. -/
namespace AgentForge

/-- `time.Duration`: nanoseconds. -/
abbrev Duration := Int64

/-- `Time.Sub`, which stops at the ends of the range. -/
def timeSub (t u : Time) : Duration := Int64.ofInt (max (-2 ^ 63) (min (2 ^ 63 - 1) (t - u)))

/-- `parseTime` is `http.ParseTime`. -/
def parseRetryAfter (parseTime : String → Option Time) (raw : String) (now : Time) : Duration :=
  let value := GoText.trimSpace raw
  if value = "" then 0
  else
    match GoText.atoi value with
    | .ok seconds => if seconds ≤ 0 then 0 else Int64.ofInt seconds * 1000000000
    | .error _ =>
      match parseTime value with
      | none => 0
      | some when =>
        let d := timeSub when now
        if d ≤ 0 then 0 else d

/-- 200 milliseconds, doubled as often as this. -/
def backoff : Nat → Duration
  | 0 => 200000000
  | n + 1 => backoff n * 2

/-- The duration of the timer; without an attempt there is none. -/
def sleepWithBackoff (parseTime : String → Option Time) (attempt : Int64)
    (retryAfterHeader : String) (now : Time) : Option Duration :=
  if attempt ≤ 0 then none
  else
    let wait := backoff (attempt.toInt - 1).toNat
    let retryAfter := parseRetryAfter parseTime retryAfterHeader now
    some (if wait < retryAfter then retryAfter else wait)

/-- The header asks for a number of seconds. -/
structure AsksFor (raw : String) (s : Int) : Prop where
  reads : GoText.atoi (GoText.trimSpace raw) = .ok s
  positive : 0 < s

section RetryAfter

variable {raw : String} {s : Int} {parseTime : String → Option Time} {now : Time}

private theorem AsksFor.parse (asks : AsksFor raw s) :
    parseRetryAfter parseTime raw now = Int64.ofInt s * 1000000000 := by
  have given : GoText.trimSpace raw ≠ "" := by
    intro empty
    have reads := asks.reads
    rw [empty] at reads
    cases reads
  simp [parseRetryAfter, given, asks.reads, Int.not_le.mpr asks.positive]

/-- What the header asks for, as 64 bits have it. -/
theorem AsksFor.wrapped (asks : AsksFor raw s) (parseTime : String → Option Time) (now : Time) :
    (parseRetryAfter parseTime raw now).toInt = (s * 1000000000).bmod (2 ^ 64) := by
  have second : (1000000000 : Int64).toInt = 1000000000 := rfl
  have size : Int64.size = 2 ^ 64 := rfl
  rw [asks.parse, Int64.toInt_mul, Int64.toInt_ofInt, second, size, Int.bmod_mul_bmod]

private theorem backoff_even (n : Nat) : (backoff n).toInt % 2 = 0 := by
  cases n with
  | zero => rfl
  | succ n =>
    have two : (2 : Int64).toInt = 2 := rfl
    rw [backoff, Int64.toInt_mul, two, Int.bmod_def]
    omega

/-- A header's seconds and those below it are not the less the more they are. -/
def NonDecreasingUpTo (parseTime : String → Option Time) (now : Time) (s : Int) : Prop :=
  ∀ raw₁ raw₂ s₁ s₂, AsksFor raw₁ s₁ → AsksFor raw₂ s₂ → s₁ ≤ s₂ → s₂ ≤ s →
    parseRetryAfter parseTime raw₁ now ≤ parseRetryAfter parseTime raw₂ now

private theorem nonDecreasingUpTo_iff :
    NonDecreasingUpTo parseTime now s ↔ s * 1000000000 < 2 ^ 63 := by
  constructor
  · intro monotone
    by_contra wraps
    have last : AsksFor "9223372036" 9223372036 := ⟨by decide +kernel, by decide⟩
    have next : AsksFor "9223372037" 9223372037 := ⟨by decide +kernel, by decide⟩
    have ordered := monotone _ _ _ _ last next (by decide) (by omega)
    rw [last.parse, next.parse] at ordered
    exact absurd ordered (by decide)
  · intro fits raw₁ raw₂ s₁ s₂ asks₁ asks₂ less bound
    have positive := asks₁.positive
    rw [Int64.le_iff_toInt_le, asks₁.wrapped, asks₂.wrapped,
      Int.bmod_eq_of_le (by omega) (by omega), Int.bmod_eq_of_le (by omega) (by omega)]
    omega

/-- **`Retry-After` is obeyed while its seconds fit a `Duration`.** For every header that asks
for some seconds and every attempt from the first on, the wait is as long as it should be (the
seconds, or the longest duration if they are none) just if the seconds are a duration. What is
parsed is not negative just if the nanoseconds wrap to a number that is not, and over the headers
of at most so many seconds it is non-decreasing just if these are a duration. -/
theorem retry_after_obeyed_iff (parseTime : String → Option Time) (now : Time) (raw : String)
    (s : Int) (asks : AsksFor raw s) (attempt : Int64) (begun : 1 ≤ attempt) :
    (∃ wait, sleepWithBackoff parseTime attempt raw now = some wait ∧
      (((s * 1000000000 < 2 ^ 63 → s * 1000000000 ≤ wait.toInt) ∧
        (2 ^ 63 ≤ s * 1000000000 → wait.toInt = 2 ^ 63 - 1)) ↔ s * 1000000000 < 2 ^ 63)) ∧
    (0 ≤ parseRetryAfter parseTime raw now ↔ s * 1000000000 % 2 ^ 64 < 2 ^ 63) ∧
    (NonDecreasingUpTo parseTime now s ↔ s * 1000000000 < 2 ^ 63) := by
  have positive := asks.positive
  have wrapped := asks.wrapped parseTime now
  rw [Int.bmod_def] at wrapped
  refine ⟨⟨_, if_neg ?_, ?_⟩, ?_, nonDecreasingUpTo_iff⟩
  · have first : (1 : Int64).toInt = 1 := rfl
    rw [Int64.le_iff_toInt_le] at begun ⊢
    have zero : (0 : Int64).toInt = 0 := rfl
    omega
  · have even := backoff_even (attempt.toInt - 1).toNat
    rw [apply_ite Int64.toInt]
    simp only [Int64.lt_iff_toInt_lt]
    split <;> omega
  · have zero : (0 : Int64).toInt = 0 := rfl
    rw [Int64.le_iff_toInt_le]
    omega

end RetryAfter

/-- A header of two seconds, at the first attempt and at one whose own wait is longer. -/
theorem retry_after_obeyed_two_seconds :
    (∃ wait, sleepWithBackoff (fun _ => none) 1 "2" 0 = some wait ∧ 2000000000 ≤ wait.toInt) ∧
      ∃ wait, sleepWithBackoff (fun _ => none) 6 "2" 0 = some wait ∧ 2000000000 ≤ wait.toInt := by
  have asks : AsksFor "2" 2 := ⟨by decide +kernel, by decide⟩
  have obeyed := fun attempt begun =>
    (retry_after_obeyed_iff (fun _ => none) 0 "2" 2 asks attempt begun).1
  obtain ⟨wait, waits, exact⟩ := obeyed 1 (by decide)
  obtain ⟨wait', waits', exact'⟩ := obeyed 6 (by decide)
  exact ⟨⟨wait, waits, (exact.mpr (by decide)).1 (by decide)⟩,
    ⟨wait', waits', (exact'.mpr (by decide)).1 (by decide)⟩⟩

/-- The first number of seconds that is no duration: the header is parsed as a negative duration,
and the client waits for 200 milliseconds. -/
theorem long_wait_not_obeyed :
    AsksFor "9223372037" 9223372037 ∧
      parseRetryAfter (fun _ => none) "9223372037" 0 < 0 ∧
      parseRetryAfter (fun _ => none) "9223372036" 0 = 9223372036000000000 ∧
      sleepWithBackoff (fun _ => none) 1 "9223372037" 0 = some 200000000 := by
  refine ⟨⟨by decide +kernel, by decide⟩, ?_, ?_, ?_⟩ <;> decide +kernel

end AgentForge
