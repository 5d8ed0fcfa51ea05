import Mathlib.Algebra.Order.Group.Multiset
import Mathlib.Data.List.AList

/-! Maps from keys to lists, such as one waiting line per customer: everything that
waits in some line, and lines that hold only what belongs to their key. -/
namespace KeyedLists

variable {κ α : Type} [DecidableEq κ] {lines : AList fun _ : κ => List α} {key : κ} {line : List α}
  {a : α}

/-- Everything in some line. -/
def contents (lines : AList fun _ : κ => List α) : Multiset α :=
  ↑(lines.entries.flatMap Sigma.snd)

private theorem flatMap_eq_dlookup_add_kerase (entries : List (Sigma fun _ : κ => List α))
    (key : κ) :
    (↑(entries.flatMap Sigma.snd) : Multiset α) =
      ↑((entries.dlookup key).getD []) + ↑((entries.kerase key).flatMap Sigma.snd) := by
  induction entries with
  | nil => simp
  | cons entry rest ih =>
    by_cases same : key = entry.1
    · obtain ⟨first, line⟩ := entry
      obtain rfl : key = first := same
      simp [List.dlookup_cons_eq, ← Multiset.coe_add]
    · rw [List.dlookup_cons_ne _ _ same, List.kerase_cons_ne same, List.flatMap_cons,
        List.flatMap_cons, ← Multiset.coe_add, ih, ← Multiset.coe_add, add_left_comm]

/-- What waits, waits in one line or in another. -/
theorem contents_eq_lookup_add_erase (lines : AList fun _ : κ => List α) (key : κ) :
    contents lines = ↑((lines.lookup key).getD []) + contents (lines.erase key) :=
  flatMap_eq_dlookup_add_kerase lines.entries key

theorem contents_erase_of_empty (empty : (lines.lookup key).getD [] = []) :
    contents (lines.erase key) = contents lines := by
  rw [contents_eq_lookup_add_erase lines key, empty]
  simp

private theorem contents_insert (lines : AList fun _ : κ => List α) (key : κ) (line : List α) :
    contents (lines.insert key line) = ↑line + contents (lines.erase key) := by
  simp only [contents, AList.entries_insert, List.flatMap_cons, ← Multiset.coe_add]
  rfl

/-- A new line with one in it, or one more at the end of a line. -/
theorem contents_insert_append (found : (lines.lookup key).getD [] = waiting) :
    contents (lines.insert key (waiting ++ [a])) = a ::ₘ contents lines := by
  rw [contents_insert, contents_eq_lookup_add_erase lines key, found, ← Multiset.coe_add,
    ← Multiset.singleton_add, Multiset.coe_singleton, add_comm (waiting : Multiset α), add_assoc]

/-- Taking the first of a line out leaves the rest of it. -/
theorem contents_eq_cons_insert (found : lines.lookup key = some (a :: waiting)) :
    contents lines = a ::ₘ contents (lines.insert key waiting) := by
  rw [contents_insert, contents_eq_lookup_add_erase lines key, found, Option.getD_some,
    ← Multiset.cons_coe, Multiset.cons_add]

theorem contents_eq_cons_erase (found : lines.lookup key = some [a]) :
    contents lines = a ::ₘ contents (lines.erase key) := by
  rw [contents_eq_lookup_add_erase lines key, found, Option.getD_some, Multiset.coe_singleton,
    Multiset.singleton_add]

theorem mem_contents (found : lines.lookup key = some line) (member : a ∈ line) :
    a ∈ contents lines := by
  rw [contents_eq_lookup_add_erase lines key, found]
  exact Multiset.mem_add.mpr (.inl (by simpa using member))

/-! ## Lines of their own -/

/-- Each line holds only what belongs to its key. -/
def Sorted (tag : α → κ) (lines : AList fun _ : κ => List α) : Prop :=
  ∀ key line, lines.lookup key = some line → ∀ a ∈ line, tag a = key

theorem Sorted.empty : Sorted tag (∅ : AList fun _ : κ => List α) := by
  intro key line found
  cases found

theorem Sorted.erase (sorted : Sorted tag lines) : Sorted tag (lines.erase key) := by
  intro key' line found
  by_cases same : key' = key
  · subst same
    rw [AList.lookup_erase] at found
    cases found
  · rw [AList.lookup_erase_ne same] at found
    exact sorted key' line found

theorem Sorted.insert (sorted : Sorted tag lines) (own : ∀ a ∈ line, tag a = key) :
    Sorted tag (lines.insert key line) := by
  intro key' line' found
  by_cases same : key' = key
  · subst same
    rw [AList.lookup_insert, Option.some.injEq] at found
    exact found ▸ own
  · rw [AList.lookup_insert_ne same] at found
    exact sorted key' line' found

end KeyedLists
