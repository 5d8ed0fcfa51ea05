import Mathlib.Data.Finset.Disjoint
import Mathlib.Data.Finset.Insert
import Mathlib.Data.Finset.Erase
import Mathlib.Algebra.Order.Group.Multiset

/-! Keys in two stages, waiting and working. Each stage has a register, a set, and
holders, a multiset. A key that is in neither register can be taken, passed from the
first stage to the second, and given up from either; the holders of a stage are then
always exactly its register, so no key has two holders. -/
namespace Custody

variable {κ : Type} {first second : Finset κ} {waiting working : Multiset κ}

/-- The holders of each stage are its register, and the registers are disjoint. -/
structure Exclusive (first second : Finset κ) (waiting working : Multiset κ) : Prop where
  waits : waiting = first.val
  works : working = second.val
  apart : Disjoint first second

theorem Exclusive.empty : Exclusive (∅ : Finset κ) ∅ 0 0 :=
  ⟨rfl, rfl, Finset.disjoint_empty_left _⟩

variable [DecidableEq κ]

theorem Exclusive.take (held : Exclusive first second waiting working)
    (notWaiting : key ∉ first) (notWorking : key ∉ second) :
    Exclusive (insert key first) second (key ::ₘ waiting) working where
  waits := by rw [Finset.insert_val_of_notMem notWaiting, held.waits]
  works := held.works
  apart := Finset.disjoint_insert_left.mpr ⟨notWorking, held.apart⟩

theorem Exclusive.giveUp (held : Exclusive first second (key ::ₘ waiting) working) :
    Exclusive (first.erase key) second waiting working where
  waits := by rw [Finset.erase_val, ← held.waits, Multiset.erase_cons_head]
  works := held.works
  apart := held.apart.mono_left (Finset.erase_subset key first)

theorem Exclusive.pass (held : Exclusive first second (key ::ₘ waiting) working) :
    Exclusive (first.erase key) (insert key second) waiting (key ::ₘ working) := by
  have there : key ∈ first := by
    rw [← Finset.mem_val, ← held.waits]
    exact Multiset.mem_cons_self key waiting
  have notWorking : key ∉ second := Finset.disjoint_left.mp held.apart there
  refine ⟨held.giveUp.waits, ?_, ?_⟩
  · rw [Finset.insert_val_of_notMem notWorking, held.works]
  · exact Finset.disjoint_insert_right.mpr ⟨Finset.notMem_erase key first, held.giveUp.apart⟩

theorem Exclusive.finish (held : Exclusive first second waiting (key ::ₘ working)) :
    Exclusive first (second.erase key) waiting working where
  waits := held.waits
  works := by rw [Finset.erase_val, ← held.works, Multiset.erase_cons_head]
  apart := held.apart.mono_right (Finset.erase_subset key second)

end Custody
