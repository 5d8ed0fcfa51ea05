import Mathlib.Data.List.Sort
import Mathlib.Tactic.Common

/-! Reading a collection page by page. The items have keys of a linear order, each its own,
and are kept in ascending order; a page is made of the first items past a cursor, and the
next one is asked for with the key of its last item. Then what was read is always the part
of the collection up to the cursor, and reading on comes to an end with all of it, also if
the collection has grown past the cursor in the meantime. -/
namespace AgentForge.CursorPages

variable {α ι : Type} [LinearOrder ι] {key : α → ι}

variable (key) in
/-- Items in the order of their keys, each key once. -/
def Ascending (items : List α) : Prop := items.Pairwise fun a b => key a < key b

variable (key) in
def upTo (cursor : ι) (items : List α) : List α := items.filter fun item => key item ≤ cursor

variable (key) in
def past (cursor : ι) (items : List α) : List α := items.filter fun item => cursor < key item

variable {page : List α} {cursor : ι} {item last : α}

private theorem mem_upTo : item ∈ upTo key cursor items ↔ item ∈ items ∧ key item ≤ cursor := by
  simp [upTo]

theorem mem_past : item ∈ past key cursor items ↔ item ∈ items ∧ cursor < key item := by
  simp [past]

section Ascends

variable {items : List α} (ascending : Ascending key items)

include ascending

private theorem Ascending.nodup : items.Nodup :=
  ascending.imp fun below => by
    rintro rfl
    exact below.false

/-- The order of ascending items is determined by what they are. -/
theorem Ascending.eq_of_mem_iff (ascending' : Ascending key more)
    (same : ∀ item, item ∈ items ↔ item ∈ more) : items = more := by
  have perm := (List.perm_ext_iff_of_nodup ascending.nodup ascending'.nodup).mpr same
  refine perm.eq_of_pairwise (fun a b _ _ below above => ?_) ascending ascending'
  exact absurd above below.asymm

theorem Ascending.upTo_append_past (cursor : ι) :
    upTo key cursor items ++ past key cursor items = items := by
  have joined : Ascending key (upTo key cursor items ++ past key cursor items) := by
    refine List.pairwise_append.mpr ⟨ascending.filter _, ascending.filter _, ?_⟩
    intro a before b after
    exact (mem_upTo.mp before).2.trans_lt (mem_past.mp after).2
  refine joined.eq_of_mem_iff ascending fun item => ?_
  rw [List.mem_append, mem_upTo, mem_past, ← and_or_left, and_iff_left (le_or_gt _ _)]

/-- What has grown past the cursor leaves what was read alone. -/
theorem Ascending.upTo_eq (ascending' : Ascending key more)
    (grown : ∀ item, key item ≤ cursor → (item ∈ more ↔ item ∈ items)) :
    upTo key cursor more = upTo key cursor items := by
  have left : Ascending key (upTo key cursor more) := ascending'.filter _
  refine left.eq_of_mem_iff (ascending.filter _) fun item => ?_
  rw [mem_upTo, mem_upTo]
  exact and_congr_left (grown item)

end Ascends

private theorem upTo_past_append (notAfter : ∀ item ∈ before, key item ≤ cursor)
    (later : ∀ item ∈ after, cursor < key item) :
    upTo key cursor (before ++ after) = before ∧ past key cursor (before ++ after) = after := by
  have kept : upTo key cursor before = before ∧ past key cursor before = [] := by
    simpa [upTo, past] using notAfter
  have left : upTo key cursor after = [] ∧ past key cursor after = after := by
    simpa [upTo, past] using later
  rw [upTo, past, List.filter_append, List.filter_append]
  constructor
  · rw [← upTo, ← upTo, kept.1, left.1, List.append_nil]
  · rw [← past, ← past, kept.2, left.2, List.nil_append]

/-- A page that ends with an item moves the cursor to it. -/
theorem Ascending.turn (ascending : Ascending key items)
    (first : past key cursor items = page ++ rest) (ends : page.getLast? = some last) :
    upTo key (key last) items = upTo key cursor items ++ page ∧
      past key (key last) items = rest := by
  have whole := ascending.upTo_append_past cursor
  rw [first, ← List.append_assoc] at whole
  obtain ⟨front, rfl⟩ := List.getLast?_eq_some_iff.mp ends
  have split : Ascending key ((upTo key cursor items ++ (front ++ [last])) ++ rest) :=
    whole.symm ▸ ascending
  obtain ⟨left, -, below⟩ := List.pairwise_append.mp split
  have notAfter : ∀ item ∈ upTo key cursor items ++ (front ++ [last]), key item ≤ key last := by
    intro item here
    rw [← List.append_assoc] at here left
    rcases List.mem_append.mp here with before | same
    · exact ((List.pairwise_append.mp left).2.2 item before last (List.mem_singleton_self last)).le
    · rw [List.mem_singleton.mp same]
  have after : ∀ item ∈ rest, key last < key item := below last (by simp)
  have parts := upTo_past_append notAfter after
  rwa [whole] at parts

variable (key) in
/-- Page after page until one is empty. -/
def readOn (page : ι → List α) : Nat → ι → Option (List α)
  | 0, _ => none
  | fuel + 1, cursor =>
    match (page cursor).getLast? with
    | none => some []
    | some last => (readOn page fuel (key last)).map (page cursor ++ ·)

/-- Reading on comes to an end, and gives every item past the cursor. -/
theorem Ascending.readOn_eq (ascending : Ascending key items) (positive : 0 < limit)
    (first : ∀ cursor, start ≤ cursor → pages cursor = (past key cursor items).take limit)
    (onward : start ≤ cursor) (enough : (past key cursor items).length < fuel) :
    readOn key pages fuel cursor = some (past key cursor items) := by
  induction fuel generalizing cursor with
  | zero => exact absurd enough (Nat.not_lt_zero _)
  | succ fuel ih =>
    unfold readOn
    have split : past key cursor items = pages cursor ++ (past key cursor items).drop limit := by
      rw [first cursor onward, List.take_append_drop]
    cases ends : (pages cursor).getLast? with
    | none =>
      have empty := List.getLast?_eq_none_iff.mp ends
      rw [first cursor onward, List.take_eq_nil_iff] at empty
      rcases empty with zero | none
      · exact absurd zero positive.ne'
      · rw [none]
    | some last =>
      have next := ascending.turn split ends
      have member : last ∈ pages cursor := List.mem_of_getLast? ends
      have later : cursor < key last := by
        rw [first cursor onward] at member
        exact (mem_past.mp (List.mem_of_mem_take member)).2
      have shorter : (past key (key last) items).length < fuel := by
        rw [next.2, List.length_drop]
        have some : 0 < (past key cursor items).length := by
          rw [split]
          exact List.length_pos_of_mem (List.mem_append_left _ member)
        omega
      simp only [ih (onward.trans later.le) shorter, Option.map_some]
      rw [next.2, ← split]

end AgentForge.CursorPages
