import Mathlib.Data.List.TakeWhile
import Mathlib.Data.List.Nodup
import Mathlib.Tactic.Common

/-! A ring served in turn: a list and a cursor into it. The one under the cursor is
visited and then passed by or taken out, and newcomers join at the end of the list.

`turns` is the list read from the cursor on, in the order the members are due. Whoever
stands before `b` there is due before `b`; `Waits` says that nobody served since `b`'s
last turn is, which is what bounds how often `b` is overtaken. A newcomer keeps it
unless it was served since and the cursor has passed `b`: only then does the end of the
list come before `b`. -/
namespace RoundRobin

variable {α : Type} {order served : List α} {next : Nat} {x b : α}

/-- The members in the order in which they are due. -/
def turns (order : List α) (next : Nat) : List α := order.drop next ++ order.take next

theorem turns_perm (order : List α) (next : Nat) : (turns order next).Perm order := by
  have swapped : (turns order next).Perm (order.take next ++ order.drop next) :=
    List.perm_append_comm
  rwa [List.take_append_drop] at swapped

private theorem nodup_rotated (distinct : (x :: rest).Nodup) : (rest ++ [x]).Nodup :=
  (List.perm_append_singleton x rest).nodup_iff.mpr distinct

section Due

variable {rest : List α} (inside : next < order.length) (due : turns order next = x :: rest)

include inside due

private theorem drop_of_turns :
    order.drop next = x :: order.drop (next + 1) ∧
      rest = order.drop (next + 1) ++ order.take next := by
  rw [turns, List.drop_eq_getElem_cons inside, List.cons_append, List.cons.injEq] at due
  obtain ⟨rfl, rfl⟩ := due
  exact ⟨List.drop_eq_getElem_cons inside, rfl⟩

/-- The first to come is the one under the cursor. -/
theorem getElem?_of_turns : order[next]? = some x := by
  have head := congrArg List.head? (drop_of_turns inside due).1
  rwa [List.head?_drop] at head

/-- Passing by the first puts it last. -/
theorem turns_advance : turns order ((next + 1) % order.length) = rest ++ [x] := by
  obtain ⟨head, rfl⟩ := drop_of_turns inside due
  have taken : order.take (next + 1) = order.take next ++ [x] := by
    rw [List.take_add_one, getElem?_of_turns inside due]
    rfl
  by_cases last : next + 1 = order.length
  · have none : order.drop (next + 1) = [] := List.drop_eq_nil_of_le (by omega)
    rw [last, Nat.mod_self, ← last, none, List.nil_append, ← taken, last, List.take_length]
    simp [turns]
  · rw [Nat.mod_eq_of_lt (by omega), turns, taken, List.append_assoc]

/-- Taking out the first leaves the others. -/
theorem turns_remove :
    turns (order.eraseIdx next) (if (order.eraseIdx next).length ≤ next then 0 else next) = rest := by
  obtain ⟨-, rfl⟩ := drop_of_turns inside due
  have short : (order.take next).length = next := by
    rw [List.length_take]
    omega
  rw [List.eraseIdx_eq_take_drop_succ]
  split_ifs with last
  · have none : order.drop (next + 1) = [] := by
      apply List.drop_eq_nil_of_le
      rw [List.length_append, short, List.length_drop] at last
      omega
    simp [turns, none]
  · rw [turns, List.drop_append_of_le_length short.ge, List.take_append_of_le_length short.ge,
      List.drop_of_length_le short.le, List.take_of_length_le short.le, List.nil_append]

end Due

/-- A newcomer is due after the end of the list. -/
theorem turns_append (inside : next ≤ order.length) :
    turns (order ++ [y]) next = order.drop next ++ y :: order.take next := by
  rw [turns, List.drop_append_of_le_length inside, List.take_append_of_le_length inside,
    List.append_assoc]
  rfl

/-! ## Overtaking -/

variable [DecidableEq α]

/-- A member the cursor has not passed is due before the end of the list. -/
theorem mem_drop_of_le_idxOf (there : b ∈ order) (ahead : next ≤ order.idxOf b) :
    b ∈ order.drop next := by
  have inside := List.idxOf_lt_length_of_mem there
  refine List.mem_iff_getElem?.mpr ⟨order.idxOf b - next, ?_⟩
  rw [List.getElem?_drop, Nat.add_sub_cancel' ahead, List.getElem?_eq_getElem inside,
    List.getElem_idxOf]

/-- Those due before `b`. -/
def ahead (b : α) (due : List α) : List α := due.takeWhile (· ≠ b)

theorem ahead_cons (other : x ≠ b) : ahead b (x :: rest) = x :: ahead b rest := by
  simp [ahead, other]

private theorem ahead_append (there : b ∈ front) : ahead b (front ++ back) = ahead b front := by
  induction front with
  | nil => simp at there
  | cons first front ih =>
    by_cases same : first = b
    · simp [ahead, same]
    · have later : b ∈ front := (List.mem_cons.mp there).resolve_left fun h => same h.symm
      rw [List.cons_append, ahead_cons same, ahead_cons same, ih later]

theorem ahead_append_of_notMem (absent : b ∉ front) :
    ahead b (front ++ back) = front ++ ahead b back := by
  induction front with
  | nil => rfl
  | cons first front ih =>
    have other : first ≠ b := fun same => absent (same ▸ List.mem_cons_self ..)
    rw [List.cons_append, ahead_cons other, ih fun there => absent (List.mem_cons_of_mem _ there),
      List.cons_append]

private theorem ahead_subset (b : α) (due : List α) : ahead b due ⊆ due :=
  (List.takeWhile_sublist _).subset

/-- `b` is due, and nobody was served twice since its last turn or is due again before
it. -/
structure Waits (b : α) (served due : List α) : Prop where
  distinct : due.Nodup
  present : b ∈ due
  once : served.Nodup
  behind : ∀ x ∈ served, x ∉ ahead b due

theorem Waits.start (distinct : rest.Nodup) (due : b ∈ rest) : Waits b [] rest :=
  ⟨distinct, due, List.nodup_nil, by simp⟩

section Others

variable {rest : List α} (waits : Waits b served (x :: rest)) (other : x ≠ b)

include waits other

private theorem Waits.later : b ∈ rest :=
  (List.mem_cons.mp waits.present).resolve_left fun h => other h.symm

private theorem Waits.behind_rest : ∀ y ∈ x :: served, y ∉ ahead b rest := by
  intro y member
  rcases List.mem_cons.mp member with rfl | member
  · exact fun there => (List.nodup_cons.mp waits.distinct).1 (ahead_subset b rest there)
  · have behind := waits.behind y member
    rw [ahead_cons other] at behind
    exact fun there => behind (List.mem_cons_of_mem _ there)

private theorem Waits.once_more : (x :: served).Nodup := by
  refine List.nodup_cons.mpr ⟨fun again => waits.behind x again ?_, waits.once⟩
  rw [ahead_cons other]
  exact List.mem_cons_self ..

/-- Passing by another. -/
theorem Waits.skip : Waits b served (rest ++ [x]) where
  distinct := nodup_rotated waits.distinct
  present := List.mem_append_left _ (waits.later other)
  once := waits.once
  behind y member := by
    rw [ahead_append (waits.later other)]
    exact waits.behind_rest other y (List.mem_cons_of_mem _ member)

/-- Serving another, which stays in the ring. -/
theorem Waits.serve : Waits b (x :: served) (rest ++ [x]) where
  distinct := nodup_rotated waits.distinct
  present := List.mem_append_left _ (waits.later other)
  once := waits.once_more other
  behind y member := by
    rw [ahead_append (waits.later other)]
    exact waits.behind_rest other y member

/-- Serving another, which leaves the ring. -/
theorem Waits.serve_last : Waits b (x :: served) rest where
  distinct := (List.nodup_cons.mp waits.distinct).2
  present := waits.later other
  once := waits.once_more other
  behind := waits.behind_rest other

end Others

/-- A newcomer joins between the end of the list and its beginning. -/
theorem Waits.join (waits : Waits b served (front ++ back)) (new : y ∉ front ++ back)
    (fair : y ∈ served → b ∈ front) : Waits b served (front ++ y :: back) where
  distinct := by
    rw [List.nodup_middle]
    exact List.nodup_cons.mpr ⟨new, waits.distinct⟩
  present := by
    rcases List.mem_append.mp waits.present with there | there
    · exact List.mem_append_left _ there
    · exact List.mem_append_right _ (List.mem_cons_of_mem _ there)
  once := waits.once
  behind x member := by
    have behind := waits.behind x member
    by_cases there : b ∈ front
    · rw [ahead_append there] at behind ⊢
      exact behind
    · have other : y ≠ b := by
        rintro rfl
        exact new waits.present
      rw [ahead_append_of_notMem there] at behind ⊢
      rw [ahead_cons other]
      intro member'
      rcases List.mem_append.mp member' with inFront | inBack
      · exact behind (List.mem_append_left _ inFront)
      · rcases List.mem_cons.mp inBack with rfl | inBack
        · exact there (fair member)
        · exact behind (List.mem_append_right _ inBack)

end RoundRobin
