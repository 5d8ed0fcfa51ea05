import Mathlib.Algebra.Order.BigOperators.Group.List
import Mathlib.Algebra.Order.Ring.Int
import Mathlib.Data.List.AList
import Mathlib.Tactic.Common

/-! A 64-bit counter with a limit, for something that is held some number of times. It
is raised only below the limit and lowered only when positive; if it starts out right,
both guards are idle: it never wraps around and a lowering never is skipped. And the sum
of the amounts in a map, which a 64-bit counter may keep up to wrap-around. -/
namespace Tally

variable {n limit : Int64} {held : Nat}

theorem toInt_add_one (below : ¬ limit ≤ n) : (n + 1).toInt = n.toInt + 1 := by
  have less := Int64.le_iff_toInt_le.not.mp below
  have top := limit.toInt_lt
  have bottom := n.le_toInt
  rw [Int64.toInt_add, show (1 : Int64).toInt = 1 from rfl]
  exact Int.bmod_eq_of_le (by omega) (by omega)

theorem toInt_sub_one (positive : 0 < n) : (n - 1).toInt = n.toInt - 1 := by
  have less := Int64.lt_iff_toInt_lt.mp positive
  have top := n.toInt_lt
  rw [show (0 : Int64).toInt = 0 from rfl] at less
  rw [Int64.toInt_sub, show (1 : Int64).toInt = 1 from rfl]
  exact Int.bmod_eq_of_le (by omega) (by omega)

/-- Lowering a counter, unless it is zero. -/
def lowered (n : Int64) : Int64 := if 0 < n then n - 1 else n

/-- The counter says how often the thing is held, and keeps to its limit. -/
structure Counts (n limit : Int64) (held : Nat) : Prop where
  value : n.toInt = held
  within : n ≤ limit

theorem Counts.zero (positive : 0 < limit) : Counts 0 limit 0 where
  value := rfl
  within := by
    rw [Int64.le_iff_toInt_le]
    exact Int.le_of_lt (Int64.lt_iff_toInt_lt.mp positive)

theorem Counts.raise (counts : Counts n limit held) (below : ¬ limit ≤ n) :
    Counts (n + 1) limit (held + 1) where
  value := by
    rw [toInt_add_one below, counts.value]
    rfl
  within := by
    have less := Int64.le_iff_toInt_le.not.mp below
    rw [Int64.le_iff_toInt_le, toInt_add_one below]
    omega

theorem Counts.positive (counts : Counts n limit held) (some : 0 < held) : 0 < n := by
  rw [Int64.lt_iff_toInt_lt, counts.value]
  exact Int.natCast_pos.mpr some

theorem Counts.lower (counts : Counts n limit (held + 1)) : Counts (lowered n) limit held := by
  have positive := counts.positive held.succ_pos
  rw [lowered, if_pos positive]
  have value : (n - 1).toInt = held := by
    rw [toInt_sub_one positive, counts.value, Int.natCast_succ, Int.add_sub_cancel]
  refine ⟨value, ?_⟩
  have within := Int64.le_iff_toInt_le.mp counts.within
  rw [counts.value] at within
  rw [Int64.le_iff_toInt_le, value]
  omega

/-! ## Amounts in a map -/

section Amounts

variable {κ α : Type} [DecidableEq κ] (amount : α → Int) (map : AList fun _ : κ => α) (key : κ)

/-- The sum of all amounts. -/
def total (map : AList fun _ : κ => α) : Int := (map.entries.map fun entry => amount entry.2).sum

/-- The amount of one key. -/
def amountOf : Int := ((map.lookup key).map amount).getD 0

private theorem sum_eq_dlookup_add_kerase (entries : List (Sigma fun _ : κ => α)) :
    (entries.map fun entry => amount entry.2).sum =
      ((entries.dlookup key).map amount).getD 0 +
        ((entries.kerase key).map fun entry => amount entry.2).sum := by
  induction entries with
  | nil => simp
  | cons entry rest ih =>
    by_cases same : key = entry.1
    · obtain ⟨first, a⟩ := entry
      obtain rfl : key = first := same
      simp [List.dlookup_cons_eq]
    · rw [List.dlookup_cons_ne _ _ same, List.kerase_cons_ne same, List.map_cons, List.sum_cons, ih,
        List.map_cons, List.sum_cons]
      omega

/-- The sum is that of one key and that of the others. -/
theorem total_erase : total amount (map.erase key) = total amount map - amountOf amount map key := by
  have parts := sum_eq_dlookup_add_kerase amount key map.entries
  have split : total amount map = amountOf amount map key + total amount (map.erase key) := parts
  omega

theorem total_insert (a : α) :
    total amount (map.insert key a) = total amount map - amountOf amount map key + amount a := by
  have added : total amount (map.insert key a) = amount a + total amount (map.erase key) := by
    simp only [total, AList.entries_insert, List.map_cons, List.sum_cons]
    rfl
  rw [added, total_erase, add_comm]

variable {amount map}

theorem total_nonneg (positive : ∀ key a, map.lookup key = some a → 0 ≤ amount a) :
    0 ≤ total amount map := by
  refine List.sum_nonneg fun x member => ?_
  obtain ⟨entry, there, rfl⟩ := List.mem_map.mp member
  exact positive entry.1 entry.2 (AList.mem_lookup_iff.mpr there)

theorem amountOf_nonneg (positive : ∀ key a, map.lookup key = some a → 0 ≤ amount a) :
    0 ≤ amountOf amount map key := by
  unfold amountOf
  cases found : map.lookup key with
  | none => exact Int.le_refl 0
  | some a => exact positive key a found

end Amounts

end Tally
