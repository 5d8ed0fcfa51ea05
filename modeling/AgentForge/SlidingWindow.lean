import Mathlib.Algebra.Order.Group.Defs
import Mathlib.Data.List.TakeWhile

/-! Limits on what happens in a span of time, kept by a sliding window. A limiter
remembers the times of the latest events, oldest first, and before each new one lets
go of those at the front that are more than a span old. The times are of any ordered
group. -/
namespace SlidingWindow

variable {T : Type} [AddCommGroup T] [LinearOrder T] [IsOrderedAddMonoid T] {span clock first : T}
  {events window : List T} {limit : Nat}

/-- How many of the events lie in a closed interval. -/
def within (events : List T) (first last : T) : Nat :=
  events.countP fun t => decide (first ≤ t) && decide (t ≤ last)

omit [AddCommGroup T] [IsOrderedAddMonoid T] in
private theorem within_append (before after : List T) (first last : T) :
    within (before ++ after) first last = within before first last + within after first last :=
  List.countP_append

/-- The window of the events so far: what is not in it any more is more than a span
before the clock. -/
structure Keeps (span clock : T) (events window : List T) : Prop where
  sorted : events.Pairwise (· ≤ ·)
  past : ∀ t ∈ events, t ≤ clock
  kept : ∃ dropped, events = dropped ++ window ∧ ∀ t ∈ dropped, t < clock - span

/-- No span has more than the limit. -/
def Bounded (span : T) (limit : Nat) (events : List T) : Prop :=
  ∀ first, within events first (first + span) ≤ limit

namespace Keeps

omit [IsOrderedAddMonoid T] in
theorem empty : Keeps span clock [] [] := ⟨.nil, by simp, [], rfl, by simp⟩

theorem later (keeps : Keeps span clock events window) (onward : clock ≤ now) :
    Keeps span now events window := by
  obtain ⟨dropped, split, old⟩ := keeps.kept
  refine ⟨keeps.sorted, fun t member => (keeps.past t member).trans onward, dropped, split, ?_⟩
  intro t member
  exact (old t member).trans_le (sub_le_sub_right onward span)

section Keeps

variable {now : T} {events window : List T} (keeps : Keeps span now events window)

include keeps

omit [IsOrderedAddMonoid T] in
theorem prune : Keeps span now events (window.dropWhile (· < now - span)) := by
  obtain ⟨dropped, split, old⟩ := keeps.kept
  refine ⟨keeps.sorted, keeps.past, dropped ++ window.takeWhile (· < now - span), ?_, ?_⟩
  · rw [List.append_assoc, List.takeWhile_append_dropWhile, split]
  · intro t member
    rcases List.mem_append.mp member with before | front
    · exact old t before
    · simpa using List.mem_takeWhile_imp front

omit [IsOrderedAddMonoid T] in
/-- What pruning leaves is recent: the window is in order. -/
theorem recent : ∀ t ∈ window.dropWhile (· < now - span), now - span ≤ t ∧ t ≤ now := by
  obtain ⟨dropped, split, -⟩ := keeps.kept
  have sorted := keeps.sorted
  have past := keeps.past
  rw [split] at sorted past
  have inOrder : window.Pairwise (· ≤ ·) := (List.pairwise_append.mp sorted).2.1
  intro t member
  refine ⟨?_, past t (List.mem_append_right _ ((List.dropWhile_suffix _).subset member))⟩
  cases left : window.dropWhile (· < now - span) with
  | nil => simp [left] at member
  | cons oldest rest =>
    have notBefore : now - span ≤ oldest := by
      have stopped := List.head_dropWhile_not (fun t => decide (t < now - span))
        (l := window) (by simp [left])
      simpa [left] using stopped
    have later : (oldest :: rest).Pairwise (· ≤ ·) :=
      left ▸ inOrder.sublist (List.dropWhile_suffix _).sublist
    rw [left] at member
    rcases List.mem_cons.mp member with rfl | behind
    · exact notBefore
    · exact notBefore.trans ((List.pairwise_cons.mp later).1 t behind)

omit [IsOrderedAddMonoid T] in
theorem add : Keeps span now (events ++ [now]) (window ++ [now]) := by
  obtain ⟨dropped, split, old⟩ := keeps.kept
  refine ⟨?_, ?_, dropped, by rw [split, List.append_assoc], old⟩
  · rw [List.pairwise_append]
    exact ⟨keeps.sorted, List.pairwise_singleton _ _, by simpa using keeps.past⟩
  · intro t member
    rcases List.mem_append.mp member with before | latest
    · exact keeps.past t before
    · exact (List.mem_singleton.mp latest).le

/-- Whatever lies in a span that has not ended before now is still in the window. -/
theorem within_le (reaches : now ≤ first + span) :
    within events first (first + span) ≤ window.length := by
  obtain ⟨dropped, split, old⟩ := keeps.kept
  have none_dropped : within dropped first (first + span) = 0 := by
    rw [within, List.countP_eq_zero]
    intro t member inside
    simp only [Bool.and_eq_true, decide_eq_true_eq] at inside
    exact absurd (inside.1.trans_lt (old t member)) (not_lt.mpr (sub_le_iff_le_add.mpr reaches))
  rw [split, within_append, none_dropped, Nat.zero_add]
  exact List.countP_le_length

/-- A window of recent events is of events in the span up to now. -/
theorem length_le_within (recent : ∀ t ∈ window, now - span ≤ t ∧ t ≤ now) :
    window.length ≤ within events (now - span) now := by
  obtain ⟨dropped, split, -⟩ := keeps.kept
  have all : within window (now - span) now = window.length := by
    rw [within, List.countP_eq_length]
    intro t member
    simpa using recent t member
  rw [split, within_append, all]
  exact Nat.le_add_left _ _

/-- An event let in while the window is below the limit keeps every span within it. -/
theorem bounded_add (bounded : Bounded span limit events)
    (room : window.length < limit) : Bounded span limit (events ++ [now]) := by
  intro first
  rw [within_append]
  by_cases inside : now ≤ first + span
  · have others := keeps.within_le inside
    have one : within [now] first (first + span) ≤ 1 := List.countP_le_length
    omega
  · have outside : within [now] first (first + span) = 0 := by
      simp [within, not_le.mp inside]
    rw [outside]
    exact bounded first

end Keeps

end Keeps

end SlidingWindow
