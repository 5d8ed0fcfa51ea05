import Mathlib.Data.Set.Basic
import Mathlib.Logic.Function.Basic

/-! Items that agents take hold of, finish or leave behind, and a reclaiming agent
that gives items back from a list it made earlier. What makes this delicate is that
the list is a snapshot: an item on it may be held again, or finished, by the time
its turn comes.

An item has a status. `free` and `held` are two of them, and every other one is
final. Nothing here is about a particular program. -/
namespace Reclaim

/-- The status of every item, the item each agent holds, and the items each agent
may still reclaim from its list. -/
structure State (Key Agent Status : Type) where
  status : Key → Option Status
  holds : Agent → Option Key
  due : Agent → Set Key

/-- What may happen. `other` is a step that takes no item and changes no status; an
agent may let go of an item or of entries of its list in any step. -/
inductive Action (Key Agent Status : Type) where
  | other
  | take (i : Agent) (k : Key)
  | finish (i : Agent) (k : Key) (outcome : Status)
  | list (i : Agent) (keys : Set Key)
  | reclaim (i : Agent) (k : Key)

section Protocol

variable {Key Agent Status : Type} [DecidableEq Key] (free held : Status)

/-- One action. Taking succeeds on a free item only; finishing and reclaiming look at
no status. -/
inductive Step (s s' : State Key Agent Status) : Action Key Agent Status → Prop where
  | other (status : s'.status = s.status)
      (holds : ∀ j k, s'.holds j = some k → s.holds j = some k)
      (due : ∀ j, s'.due j ⊆ s.due j) : Step s s' .other
  | take {i : Agent} {k : Key} (was : s.status k = some free)
      (status : s'.status = Function.update s.status k (some held))
      (holds : ∀ j k', s'.holds j = some k' → (j = i ∧ k' = k) ∨ s.holds j = some k')
      (due : ∀ j, s'.due j ⊆ s.due j) : Step s s' (.take i k)
  | finish {i : Agent} {k : Key} {outcome : Status} (holding : s.holds i = some k)
      (final : outcome ≠ free ∧ outcome ≠ held)
      (status : s'.status = Function.update s.status k (some outcome))
      (released : s'.holds i = none)
      (holds : ∀ j k', s'.holds j = some k' → s.holds j = some k')
      (due : ∀ j, s'.due j ⊆ s.due j) : Step s s' (.finish i k outcome)
  | list {i : Agent} {keys : Set Key}
      (listed : ∀ k ∈ keys, s.status k = some free ∨ s.status k = some held)
      (status : s'.status = s.status)
      (holds : ∀ j k, s'.holds j = some k → s.holds j = some k)
      (due : ∀ j, s'.due j ⊆ s.due j ∪ {k | j = i ∧ k ∈ keys}) : Step s s' (.list i keys)
  | reclaim {i : Agent} {k : Key} (listed : k ∈ s.due i)
      (status : s'.status = Function.update s.status k (some free))
      (holds : ∀ j k', s'.holds j = some k' → s.holds j = some k')
      (due : ∀ j, s'.due j ⊆ s.due j) : Step s s' (.reclaim i k)

/-- Nobody lists what somebody holds, and nobody takes what somebody has listed. -/
def Safe (s : State Key Agent Status) : Action Key Agent Status → Prop
  | .take _ k => ∀ j, k ∉ s.due j
  | .list _ keys => ∀ k ∈ keys, ∀ j, s.holds j ≠ some k
  | _ => True

/-- A held item has one holder, and an item on a list has none and is not final. -/
structure Inv (s : State Key Agent Status) : Prop where
  holding : ∀ i k, s.holds i = some k → s.status k = some held
  alone : ∀ i j k, s.holds i = some k → s.holds j = some k → i = j
  due : ∀ i, ∀ k ∈ s.due i,
    (s.status k = some free ∨ s.status k = some held) ∧ ∀ j, s.holds j ≠ some k

variable {free held} {s s' : State Key Agent Status} {action : Action Key Agent Status} {k : Key}

theorem Inv.step (apart : free ≠ held) (inv : Inv free held s) (safe : Safe s action)
    (step : Step free held s s' action) : Inv free held s' := by
  cases step with
  | other status holds due =>
    refine ⟨fun i k has => status ▸ inv.holding i k (holds i k has),
      fun i j k one two => inv.alone i j k (holds i k one) (holds j k two), fun i k listed => ?_⟩
    obtain ⟨live, unheld⟩ := inv.due i k (due i listed)
    exact ⟨status ▸ live, fun j has => unheld j (holds j k has)⟩
  | @take i k was status holds due =>
    have unheld : ∀ j, s.holds j ≠ some k := by
      intro j has
      rw [inv.holding j k has] at was
      exact apart (Option.some.inj was).symm
    refine ⟨fun j k' has => ?_, fun j j' k' one two => ?_, fun j k' listed => ?_⟩
    · rw [status]
      by_cases same : k' = k
      · rw [same, Function.update_self]
      · rw [Function.update_of_ne same]
        exact inv.holding j k' ((holds j k' has).resolve_left fun new => same new.2)
    · rcases holds j k' one with ⟨rfl, rfl⟩ | old <;> rcases holds j' k' two with ⟨rfl, same⟩ | old'
      · rfl
      · exact absurd old' (unheld j')
      · exact absurd (same ▸ old) (unheld j)
      · exact inv.alone j j' k' old old'
    · have other : k' ≠ k := fun same => safe j (same ▸ due j listed)
      obtain ⟨live, free'⟩ := inv.due j k' (due j listed)
      rw [status, Function.update_of_ne other]
      exact ⟨live, fun j' has => free' j' ((holds j' k' has).resolve_left fun new => other new.2)⟩
  | @finish i k outcome holding final status released holds due =>
    have mine : ∀ j k', s'.holds j = some k' → k' ≠ k := by
      rintro j k' has rfl
      obtain rfl := inv.alone i j k' holding (holds j k' has)
      rw [released] at has
      cases has
    refine ⟨fun j k' has => ?_, fun j j' k' one two => ?_, fun j k' listed => ?_⟩
    · rw [status, Function.update_of_ne (mine j k' has)]
      exact inv.holding j k' (holds j k' has)
    · exact inv.alone j j' k' (holds j k' one) (holds j' k' two)
    · obtain ⟨live, unheld⟩ := inv.due j k' (due j listed)
      have other : k' ≠ k := by
        rintro rfl
        exact unheld i holding
      rw [status, Function.update_of_ne other]
      exact ⟨live, fun j' has => unheld j' (holds j' k' has)⟩
  | @list i keys listed status holds due =>
    refine ⟨fun i k has => status ▸ inv.holding i k (holds i k has),
      fun i j k one two => inv.alone i j k (holds i k one) (holds j k two), fun j k member => ?_⟩
    rw [status]
    rcases due j member with old | ⟨-, new⟩
    · obtain ⟨live, unheld⟩ := inv.due j k old
      exact ⟨live, fun j' has => unheld j' (holds j' k has)⟩
    · exact ⟨listed k new, fun j' has => safe k new j' (holds j' k has)⟩
  | @reclaim i k listed status holds due =>
    refine ⟨fun j k' has => ?_, fun j j' k' one two => ?_, fun j k' member => ?_⟩
    · have other : k' ≠ k := by
        rintro rfl
        exact (inv.due i k' listed).2 j (holds j k' has)
      rw [status, Function.update_of_ne other]
      exact inv.holding j k' (holds j k' has)
    · exact inv.alone j j' k' (holds j k' one) (holds j' k' two)
    · obtain ⟨live, unheld⟩ := inv.due j k' (due j member)
      refine ⟨?_, fun j' has => unheld j' (holds j' k' has)⟩
      rw [status]
      by_cases same : k' = k
      · rw [same, Function.update_self]
        exact .inl rfl
      · rwa [Function.update_of_ne same]

/-- A final status is never overwritten. -/
theorem Inv.final_stays (inv : Inv free held s) (step : Step free held s s' action)
    (final : outcome ≠ free ∧ outcome ≠ held) (found : s.status k = some outcome) :
    s'.status k = some outcome := by
  have open_keeps : ∀ {k' : Key} {next : Option Status}, s'.status = Function.update s.status k' next →
      s.status k' = some free ∨ s.status k' = some held → s'.status k = some outcome := by
    intro k' next status live
    have other : k ≠ k' := by
      rintro rfl
      rw [found, Option.some.injEq, Option.some.injEq] at live
      exact live.elim final.1 final.2
    rw [status, Function.update_of_ne other, found]
  cases step with
  | other status | list _ status => rw [status, found]
  | take was status => exact open_keeps status (.inl was)
  | finish holding _ status => exact open_keeps status (.inr (inv.holding _ _ holding))
  | reclaim listed status => exact open_keeps status (inv.due _ _ listed).1

end Protocol

end Reclaim
