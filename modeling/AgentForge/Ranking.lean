import Mathlib.Data.List.Sort
import Mathlib.Tactic.Common

/-! Listings that are sorted and cut off. An element is in the listing exactly if fewer
elements than the limit come before it, which says who is listed without saying how the
list is sorted. -/
namespace Ranking

variable {α : Type} {r : α → α → Prop} [DecidableRel r] {l : List α} {x : α}

/-- How many elements come before this one. -/
def rank (r : α → α → Prop) [DecidableRel r] (l : List α) (x : α) : Nat :=
  l.countP fun y => ¬ r x y

/-- The order tells the elements of the list apart. -/
def Separates (r : α → α → Prop) (l : List α) : Prop :=
  ∀ x ∈ l, ∀ y ∈ l, r x y → r y x → x = y

omit [DecidableRel r] in
private theorem Separates.perm (separates : Separates r l) (perm : l.Perm l') :
    Separates r l' := fun x inside y inside' =>
  separates x (perm.mem_iff.mpr inside) y (perm.mem_iff.mpr inside')

/-- In a sorted list the rank of an element is the number of those in front of it. -/
theorem rank_sorted (total : Std.Total r) (separates : Separates r (front ++ x :: back))
    (distinct : (front ++ x :: back).Nodup) (sorted : (front ++ x :: back).Pairwise r) :
    rank r (front ++ x :: back) x = front.length := by
  obtain ⟨-, fromHere, ahead⟩ := List.pairwise_append.mp sorted
  have there : x ∈ front ++ x :: back := by simp
  have counted : front.countP (fun y => ¬ r x y) = front.length := by
    refine List.countP_eq_length.mpr fun y member => ?_
    have apart : x ≠ y := by
      rintro rfl
      exact List.disjoint_of_nodup_append distinct member (List.mem_cons_self ..)
    simpa using fun before => apart (separates x there y (List.mem_append_left _ member) before
      (ahead y member x (List.mem_cons_self ..)))
  have uncounted : (x :: back).countP (fun y => ¬ r x y) = 0 := by
    refine List.countP_eq_zero.mpr fun y member => ?_
    rcases List.mem_cons.mp member with rfl | member
    · simpa using (total.total y y).elim id id
    · simpa using (List.pairwise_cons.mp fromHere).1 y member
  rw [rank, List.countP_append, counted, uncounted, Nat.add_zero]

/-- An element is among the first few exactly if so many do not come before it. -/
theorem mem_take_insertionSort (total : Std.Total r) (trans : IsTrans α r)
    (separates : Separates r l) (distinct : l.Nodup) :
    x ∈ (l.insertionSort r).take n ↔ x ∈ l ∧ rank r l x < n := by
  have perm := List.perm_insertionSort r l
  by_cases there : x ∈ l
  · obtain ⟨front, back, split⟩ := List.append_of_mem (perm.mem_iff.mpr there)
    have sorted := List.pairwise_insertionSort r l
    have rankEq : rank r l x = front.length := by
      have same : rank r l x = rank r (l.insertionSort r) x := (perm.countP_eq _).symm
      rw [split] at same sorted perm
      rw [same]
      exact rank_sorted total (separates.perm perm.symm) (perm.nodup_iff.mpr distinct) sorted
    have absent : x ∉ front := by
      rw [split] at perm
      intro member
      exact List.disjoint_of_nodup_append (perm.nodup_iff.mpr distinct) member
        (List.mem_cons_self ..)
    rw [split, rankEq, List.take_append, List.mem_append]
    constructor
    · rintro (inFront | inRest)
      · exact absurd (List.mem_of_mem_take inFront) absent
      · refine ⟨there, ?_⟩
        by_contra beyond
        rw [Nat.sub_eq_zero_of_le (Nat.le_of_not_lt beyond)] at inRest
        simp at inRest
    · rintro ⟨-, inside⟩
      obtain ⟨m, same⟩ := Nat.exists_eq_add_of_lt inside
      refine .inr ?_
      rw [same, Nat.add_assoc, Nat.add_sub_cancel_left]
      exact List.mem_cons_self ..
  · exact iff_of_false (fun listed => there (perm.mem_iff.mp (List.mem_of_mem_take listed)))
      fun listed => there listed.1

/-! ## By one key and then by another -/

section Keys

variable {ι κ : Type} [LinearOrder ι] [LE κ] [Std.IsLinearOrder κ] (major : α → ι) (minor : α → κ)

def byKeys (a b : α) : Prop := major a < major b ∨ (major a = major b ∧ minor a ≤ minor b)

theorem byKeys_total : Std.Total (byKeys major minor) := by
  refine ⟨fun a b => ?_⟩
  rcases lt_trichotomy (major a) (major b) with before | same | after
  · exact .inl (.inl before)
  · rcases Std.le_total (a := minor a) (b := minor b) with first | first
    · exact .inl (.inr ⟨same, first⟩)
    · exact .inr (.inr ⟨same.symm, first⟩)
  · exact .inr (.inl after)

theorem byKeys_trans : IsTrans α (byKeys major minor) := by
  refine ⟨fun a b c first second => ?_⟩
  rcases first with first | ⟨same, first⟩
  · rcases second with second | ⟨same', -⟩
    · exact .inl (first.trans second)
    · exact .inl (same' ▸ first)
  · rcases second with second | ⟨same', second⟩
    · exact .inl (same ▸ second)
    · exact .inr ⟨same.trans same', Std.le_trans first second⟩

theorem byKeys_minor (first : byKeys major minor a b) (second : byKeys major minor b a) :
    minor a = minor b := by
  rcases first with first | ⟨same, first⟩
  · rcases second with second | ⟨same, -⟩
    · exact absurd second first.asymm
    · exact absurd same first.ne'
  · rcases second with second | ⟨-, second⟩
    · exact absurd same second.ne'
    · exact Std.le_antisymm first second

end Keys

end Ranking
