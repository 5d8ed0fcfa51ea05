import Mathlib.Data.List.Basic
import Mathlib.Tactic.Common

/-! Pairs of words written as one, with a separator between them. The word is read back
in one way only if the separator stands nowhere else where the word could be cut into two
words that are not empty. -/
namespace Separator

variable {α : Type} {sep : α} {first second : List α}

/-- The pair as one word. -/
def joined (sep : α) (first second : List α) : List α := first ++ sep :: second

/-- No other place to cut: the separator stands in neither word, except at the very
beginning of the first or at the very end of the second. -/
def Clear (sep : α) (first second : List α) : Prop := sep ∉ first.tail ∧ sep ∉ second.dropLast

instance [DecidableEq α] : Decidable (Clear sep first second) :=
  inferInstanceAs (Decidable (_ ∧ _))

private theorem mem_tail (some : first ≠ []) : sep ∈ (first ++ sep :: rest).tail := by
  cases first with
  | nil => exact absurd rfl some
  | cons a first => simp

private theorem mem_dropLast (some : second ≠ []) : sep ∈ (front ++ sep :: second).dropLast := by
  rw [List.dropLast_append_of_ne_nil (List.cons_ne_nil _ _), List.dropLast_cons_of_ne_nil some]
  simp

/-- A clear pair is the only one written as its word. -/
theorem Clear.unique (clear : Clear sep first second) (some : first' ≠ []) (some' : second' ≠ [])
    (same : joined sep first' second' = joined sep first second) :
    first' = first ∧ second' = second := by
  rcases List.append_eq_append_iff.mp same with ⟨middle, whole, rest⟩ | ⟨middle, whole, rest⟩
  · cases middle with
    | nil =>
      simp only [List.append_nil, List.nil_append, List.cons.injEq, true_and] at whole rest
      exact ⟨whole.symm, rest⟩
    | cons cut middle =>
      obtain ⟨rfl, -⟩ := List.cons.inj rest
      exact absurd (whole ▸ mem_tail some) clear.1
  · cases middle with
    | nil =>
      simp only [List.append_nil, List.nil_append, List.cons.injEq, true_and] at whole rest
      exact ⟨whole, rest.symm⟩
    | cons cut middle =>
      obtain ⟨rfl, rfl⟩ := List.cons.inj rest
      exact absurd (mem_dropLast some') clear.2

/-- A pair that is not clear is written as another one is. -/
theorem exists_other (unclear : ¬ Clear sep first second) (some : first ≠ []) (some' : second ≠ []) :
    ∃ first' second', first' ≠ [] ∧ second' ≠ [] ∧ first' ≠ first ∧
      joined sep first' second' = joined sep first second := by
  rw [Clear, not_and_or, not_not, not_not] at unclear
  rcases unclear with early | late
  · obtain ⟨a, rest, rfl⟩ := List.exists_cons_of_ne_nil some
    obtain ⟨front, back, rfl⟩ := List.append_of_mem early
    exact ⟨a :: front, back ++ sep :: second, by simp, by simp, by simp, by simp [joined]⟩
  · obtain ⟨front, back, cut⟩ := List.append_of_mem late
    have whole := List.dropLast_append_getLast some'
    rw [cut] at whole
    refine ⟨first ++ sep :: front, back ++ [second.getLast some'], by simp, by simp, by simp, ?_⟩
    calc joined sep (first ++ sep :: front) (back ++ [second.getLast some'])
        = joined sep first (front ++ sep :: back ++ [second.getLast some']) := by simp [joined]
      _ = joined sep first second := by rw [whole]

/-- A pair is the only one written as its word exactly if it is clear. -/
theorem unique_iff (some : first ≠ []) (some' : second ≠ []) :
    (∀ first' second', first' ≠ [] → second' ≠ [] →
      joined sep first' second' = joined sep first second → first' = first ∧ second' = second) ↔
      Clear sep first second := by
  constructor
  · intro unique
    by_contra unclear
    obtain ⟨first', second', nonempty, nonempty', other, same⟩ := exists_other unclear some some'
    exact other (unique first' second' nonempty nonempty' same).1
  · intro clear first' second' nonempty nonempty' same
    exact clear.unique nonempty nonempty' same

end Separator
