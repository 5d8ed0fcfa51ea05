import AgentForge.Breaker
import AgentForge.SlidingWindow
import Mathlib.Algebra.Order.Group.Int

/-! The rate limit of a tenant. The manager keeps the times of the latest admissions
and prunes them only where it looks, in `TryEnqueue`; what it has let go of lies more
than a minute back, so the list it counts is all that matters for any minute that has
not ended. -/
namespace AgentForge

open Transition SlidingWindow

section RateLimit

variable {F : Type} [Float64 F] {pol : Policy F}

/-! ## What the calls do to the window -/

/-- `TryEnqueue` adds to the last minute if it is below the limit, and refuses for rate
if it is not; what else it refuses for leaves the window, pruned or not. -/
theorem TenantState.tryEnqueue_window (pol : Policy F) (now opened : Time) (st : TenantState F)
    (info : AdmissionInfo F) :
    ((st.tryEnqueue pol now opened info).1 = .ok () ∧
        (0 < pol.rateLimitPerMinute →
          (st.lastMinute now).length < pol.rateLimitPerMinute.toInt) ∧
        (st.tryEnqueue pol now opened info).2.enqWindow = st.lastMinute now ++ [now]) ∨
      ((st.tryEnqueue pol now opened info).1 ≠ .ok () ∧
        ((st.tryEnqueue pol now opened info).1 = .error .rateLimit →
          pol.rateLimitPerMinute.toInt ≤ (st.lastMinute now).length) ∧
        ((st.tryEnqueue pol now opened info).2.enqWindow = st.enqWindow ∨
          (st.tryEnqueue pol now opened info).2.enqWindow = st.lastMinute now)) := by
  cases st.tryEnqueue_effect pol now opened info with
  | refused answer other left =>
    rw [answer]
    exact .inr ⟨nofun, fun same => absurd (Except.error.inj same) other,
      .inl (congrArg TenantView.window left)⟩
  | limited answer full left =>
    rw [answer]
    exact .inr ⟨nofun, fun _ => full, .inr (congrArg TenantView.window left)⟩
  | overBudget answer other _ _ left =>
    rw [answer]
    exact .inr ⟨nofun, fun same => absurd (Except.error.inj same) other,
      .inr (congrArg TenantView.window left)⟩
  | admitted answer _ _ slow _ left =>
    exact .inl ⟨answer, slow, congrArg TenantView.window left⟩

omit [Float64 F] in
private theorem TenantState.tryStartRun_window {st : TenantState F} :
    (st.tryStartRun pol now).2.enqWindow = st.enqWindow := by
  cases st.tryStartRun_effect pol now with
  | refused _ left | started _ _ _ left | probe _ _ _ _ left =>
    exact congrArg TenantView.window left

/-! ## Admissions -/

/-- The time of a call that let a message in. -/
def admission (pol : Policy F) (past : (TenantState F × Time) × TenantCall F) : Option Time :=
  match past.2 with
  | .tryEnqueue now opened info =>
    if (past.1.1.tryEnqueue pol now opened info).1.isOk then some now else none
  | _ => none

/-- The times messages were let in, oldest first. -/
def admissions (pol : Policy F) : List ((TenantState F × Time) × TenantCall F) → List Time
  | [] => []
  | past :: earlier => admissions pol earlier ++ (admission pol past).toList

variable {history : List ((TenantState F × Time) × TenantCall F)} {s : TenantState F × Time}

/-- The window is kept, and no minute is over the limit. -/
structure RateKept (pol : Policy F) (admitted : List Time) (s : TenantState F × Time) : Prop where
  window : Keeps oneMinute s.2 admitted s.1.enqWindow
  bounded : SlidingWindow.Bounded oneMinute pol.rateLimitPerMinute.toInt.toNat admitted

private theorem RateKept.tryEnqueue (kept : RateKept pol admitted s)
    (positive : 0 < pol.rateLimitPerMinute)
    (info : AdmissionInfo F) (onward : s.2 ≤ now) (after : now ≤ opened) :
    RateKept pol (admitted ++ (admission pol (s, .tryEnqueue now opened info)).toList)
      ((s.1.tryEnqueue pol now opened info).2, opened) := by
  have here := kept.window.later onward
  have pruned : Keeps oneMinute now admitted (s.1.lastMinute now) := here.prune
  rcases s.1.tryEnqueue_window pol now opened info with
    ⟨done, room, window⟩ | ⟨refused, -, window⟩
  · have recorded : admission pol (s, .tryEnqueue now opened info) = some now := by
      simp [admission, done, Except.isOk, Except.toBool]
    have below := room positive
    rw [recorded, Option.toList_some]
    refine ⟨?_, pruned.bounded_add kept.bounded (by omega)⟩
    rw [window]
    exact pruned.add.later after
  · have unrecorded : admission pol (s, .tryEnqueue now opened info) = none := by
      cases answer : (s.1.tryEnqueue pol now opened info).1 with
      | ok => exact absurd answer refused
      | error e => simp [admission, answer, Except.isOk, Except.toBool]
    rw [unrecorded, Option.toList_none, List.append_nil]
    refine ⟨?_, kept.bounded⟩
    rcases window with same | same
    · rw [same]
      exact here.later after
    · rw [same]
      exact pruned.later after

omit [Float64 F] in
/-- The other calls leave the window alone. -/
theorem RateKept.frame (kept : RateKept pol admitted s) (same : t.1.enqWindow = s.1.enqWindow)
    (onward : s.2 ≤ t.2) :
    RateKept pol (admitted ++ []) t := by
  rw [List.append_nil]
  exact ⟨same ▸ kept.window.later onward, kept.bounded⟩

/-- The induction is over the calls. -/
theorem rateKept_of_path (positive : 0 < pol.rateLimitPerMinute)
    (path : (watched pol clocked).Path history s) : RateKept pol (admissions pol history) s := by
  induction path with
  | start begun =>
    obtain ⟨fresh, -⟩ := begun
    refine ⟨?_, fun _ => Nat.zero_le _⟩
    rw [fresh]
    exact .empty
  | @next history s t call before step ih =>
    obtain ⟨permitted, rfl⟩ := step
    cases call with
    | tryEnqueue now opened info => exact ih.tryEnqueue positive info permitted.1 permitted.2
    | tryStartRun now => exact ih.frame TenantState.tryStartRun_window permitted
    | completeRun opened done =>
      obtain ⟨_, -, left⟩ := s.1.completeRun_effect pol opened done
      exact ih.frame (congrArg TenantView.window left) permitted
    | cancelEnqueue key =>
      exact ih.frame (congrArg TenantView.window (s.1.cancelEnqueue_view key)) le_rfl
    | markDeadLetter key =>
      exact ih.frame (congrArg TenantView.window (s.1.markDeadLetter_view key)) le_rfl

/-- **The rate limit.** In every run with a clock that does not go back, no closed minute
has more admissions than the limit, and a message is refused for rate only if the minute
up to it has that many. -/
theorem rate_limit_per_minute (positive : 0 < pol.rateLimitPerMinute)
    (path : (watched pol clocked).Path history s) :
    (∀ first, (within (admissions pol history) first (first + oneMinute) : Int) ≤
        pol.rateLimitPerMinute.toInt) ∧
      ∀ now opened info, clocked.permits s.1 s.2 (.tryEnqueue now opened info) →
        (s.1.tryEnqueue pol now opened info).1 = .error .rateLimit →
        pol.rateLimitPerMinute.toInt ≤ within (admissions pol history) (now - oneMinute) now := by
  have kept := rateKept_of_path positive path
  constructor
  · intro first
    have bounded := kept.bounded first
    have limit : 0 < pol.rateLimitPerMinute.toInt := Int64.lt_iff_toInt_lt.mp positive
    omega
  · intro now opened info permitted refused
    have here := kept.window.later permitted.1
    have recent : (s.1.lastMinute now).length ≤ within (admissions pol history) (now - oneMinute) now :=
      here.prune.length_le_within here.recent
    rcases s.1.tryEnqueue_window pol now opened info with ⟨done, -, -⟩ | ⟨-, full, -⟩
    · rw [refused] at done
      cases done
    · have reached := full refused
      omega

/-! One message a minute: the second one, a minute after the first to the nanosecond, is
still refused. -/

def oneAMinute : Policy Rat := { firstFailure with rateLimitPerMinute := 1 }

theorem rate_limit_to_the_nanosecond : ∃ history s,
    (watched oneAMinute clocked).Path history s ∧
      (s.1.tryEnqueue oneAMinute (5 + oneMinute) (5 + oneMinute) ⟨"b", 0, 0⟩).1 =
        .error .rateLimit ∧
      (∀ first, (within (admissions oneAMinute history) first (first + oneMinute) : Int) ≤ 1) ∧
      1 ≤ within (admissions oneAMinute history) 5 (5 + oneMinute) := by
  have path : (watched oneAMinute clocked).Path [] (TenantState.fresh, 0) := .start ⟨rfl, trivial⟩
  have path := Watch.makes path (.tryEnqueue 5 5 ⟨"a", 0, 0⟩)
    (show (0 : Int) ≤ 5 ∧ (5 : Int) ≤ 5 by decide)
  have refused : ((TenantState.fresh.after oneAMinute (.tryEnqueue 5 5 ⟨"a", 0, 0⟩)).tryEnqueue
      oneAMinute (5 + oneMinute) (5 + oneMinute) ⟨"b", 0, 0⟩).1 = .error .rateLimit := by decide
  have positive : 0 < oneAMinute.rateLimitPerMinute := by decide
  have onward : (5 : Int) ≤ 5 + oneMinute ∧ 5 + oneMinute ≤ 5 + oneMinute := by decide
  obtain ⟨bounded, full⟩ := rate_limit_per_minute positive path
  refine ⟨_, _, path, refused, bounded, ?_⟩
  have counted := full (5 + oneMinute) (5 + oneMinute) ⟨"b", 0, 0⟩ onward refused
  rw [add_sub_cancel_right, show oneAMinute.rateLimitPerMinute.toInt = 1 by decide] at counted
  exact_mod_cast counted

end RateLimit

end AgentForge
