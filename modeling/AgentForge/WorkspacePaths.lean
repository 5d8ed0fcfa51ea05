import AgentForge.SlashPaths

/-! The paths a workspace accepts. `safePath` and the extraction of an archive test the text of
a path before anything is looked up. What they let through is where the elements of the path
lead from the root one by one, as long as that is not above the root. -/
namespace AgentForge

open SlashPath

/-- `ErrPathTraversal`, with what is added to its text. -/
inductive PathError where
  | pathTraversal (detail : String)

/-- `strings.HasPrefix`. -/
def hasPrefix (s front : String) : Bool := decide (front.toList <+: s.toList)

/-- `safePath` before its walk for symlinks. -/
def safePath (root path : String) : Except PathError String :=
  let cleaned := clean path
  if isAbs cleaned then .error (.pathTraversal "")
  else
    let abs := join root cleaned
    if ¬ hasPrefix abs (root ++ "/") ∧ abs ≠ root then .error (.pathTraversal "")
    else .ok abs

/-- The tests of `extractTarGzIntoRoot` on the name of an entry, and its target. -/
def archiveTarget (root name : String) : Except PathError String :=
  let cleanName := clean name
  if isAbs cleanName then .error (.pathTraversal name)
  else if ".." ∈ elements cleanName then .error (.pathTraversal name)
  else
    let target := join root cleanName
    if ¬ hasPrefix target (root ++ "/") ∧ target ≠ root then
      .error (.pathTraversal ("resolved " ++ target))
    else .ok target

/-- An absolute path in clean form, other than "/". -/
structure ProperRoot (root : String) : Prop where
  isAbs : isAbs root = true
  clean : clean root = root
  proper : root ≠ "/"

section

private theorem ProperRoot.written (rooted : ProperRoot root) :
    absolute (locate root) = root ∧ locate root ≠ [] := by
  have written : absolute (locate root) = root := by
    rw [← clean_of_isAbs rooted.isAbs, rooted.clean]
  refine ⟨written, fun none => rooted.proper ?_⟩
  rw [← written, none]
  rfl

private theorem plain_root (root : String) : ∀ part ∈ locate root, Plain part :=
  fun _ => plain_locate

/-- The last test of both: the place is the root or below it. -/
theorem ProperRoot.within_iff (rooted : ProperRoot root) (plain : ∀ part ∈ place, Plain part) :
    ¬ (¬ hasPrefix (absolute place) (root ++ "/") ∧ absolute place ≠ root) ↔
      locate root <+: place := by
  obtain ⟨written, some⟩ := rooted.written
  have below := below_iff some (plain_root root) plain
  rw [written] at below
  rw [not_and_or, not_not, not_not, hasPrefix, decide_eq_true_iff, below]
  constructor
  · rintro (⟨rest, -, rfl⟩ | same)
    · exact List.prefix_append ..
    · rw [← same, locate_absolute plain]
  · rintro ⟨rest, rfl⟩
    by_cases here : rest = []
    · right
      rw [here, List.append_nil, written]
    · exact .inl ⟨rest, here, rfl⟩

/-- What `safePath` does with a path. -/
theorem safePath_eq_ok {abs : String} (rooted : ProperRoot root) :
    safePath root path = .ok abs ↔ isAbs path = false ∧
      locate root <+: climb (locate root) path ∧ abs = absolute (climb (locate root) path) := by
  have within := rooted.within_iff (plain_climb (plain_root root) path)
  have joined : isAbs path = false →
      join root (clean path) = absolute (climb (locate root) path) := by
    intro free
    rw [← climb_clean free, ← join_absolute (plain_root root), rooted.written.1]
  rw [safePath, isAbs_clean]
  cases free : isAbs path with
  | true => simp
  | false =>
    dsimp only
    rw [if_neg Bool.false_ne_true, joined free]
    split
    · rename_i outside
      simp [mt within.mpr (not_not.mpr outside)]
    · rename_i inside
      simp [within.mp inside, eq_comm]

/-- What the extraction does with a name: it leads down from the root by plain elements. -/
theorem archiveTarget_eq_ok (rooted : ProperRoot root)
    (accepted : archiveTarget root name = .ok target) :
    isAbs name = false ∧ ∃ rest, (∀ part ∈ rest, Plain part) ∧
      target = absolute (locate root ++ rest) ∧ ∀ from', climb from' name = from' ++ rest := by
  rw [archiveTarget] at accepted
  dsimp only at accepted
  split_ifs at accepted with rootedName up outside
  obtain ⟨cleaned, plain⟩ := clean_inside (eq_false_of_ne_true rootedName) up
  have free : isAbs name = false := by rw [← isAbs_clean, eq_false_of_ne_true rootedName]
  have leads : ∀ from', climb from' name = from' ++ resolve false (elements name) := by
    intro from'
    rw [← climb_clean free, cleaned, climb_relative plain]
  refine ⟨free, _, plain, ?_, leads⟩
  rw [← Except.ok.inj accepted, ← leads, ← climb_clean free, ← join_absolute (plain_root root),
    rooted.written.1]

end

/-- **Paths stay inside.** `safePath` accepts a path just if it is not absolute and its elements
lead, one by one from the root, to the root or beneath it. What it gives back is the root, or the
root and a path of plain elements. A name that the extraction into any root accepts is accepted
by `safePath` too, and is the same place under its own root. -/
theorem path_containment {root : String} (rooted : ProperRoot root) :
    (∀ path, (∃ abs, safePath root path = .ok abs) ↔
      isAbs path = false ∧ locate root <+: (elements path).foldl descend (locate root)) ∧
    (∀ path abs, safePath root path = .ok abs → abs = root ∨ ∃ parts, parts ≠ [] ∧
      (∀ part ∈ parts, Plain part) ∧ abs = root ++ "/" ++ "/".intercalate parts) ∧
    ∀ staging name target, ProperRoot staging → archiveTarget staging name = .ok target →
      ∃ rest, (∀ part ∈ rest, Plain part) ∧ target = absolute (locate staging ++ rest) ∧
        safePath root name = .ok (absolute (locate root ++ rest)) := by
  refine ⟨fun path => ?_, fun path abs accepted => ?_, fun staging name target staged accepted => ?_⟩
  · simp only [safePath_eq_ok rooted]
    exact ⟨fun ⟨_, free, inside, _⟩ => ⟨free, inside⟩, fun ⟨free, inside⟩ => ⟨_, free, inside, rfl⟩⟩
  · obtain ⟨-, ⟨rest, inside⟩, rfl⟩ := (safePath_eq_ok rooted).mp accepted
    obtain ⟨written, some⟩ := rooted.written
    have plain := plain_climb (plain_root root) path
    rw [← inside] at plain ⊢
    by_cases here : rest = []
    · left
      rw [here, List.append_nil, written]
    · refine .inr ⟨rest, here, fun part member => plain part (List.mem_append_right _ member), ?_⟩
      rw [absolute_append some here, written]
  · obtain ⟨free, rest, plain, written, leads⟩ := archiveTarget_eq_ok staged accepted
    refine ⟨rest, plain, written, (safePath_eq_ok rooted).mpr ⟨free, ?_, ?_⟩⟩
    · rw [leads]
      exact List.prefix_append ..
    · rw [leads]

/-- A path that goes up and down again is accepted, one that leaves the root is not. -/
theorem path_containment_examples :
    (∃ abs, safePath "/w" "a/../b" = .ok abs) ∧ ¬ ∃ abs, safePath "/w" "a/../../b" = .ok abs := by
  have rooted : ProperRoot "/w" := ⟨by decide, by decide, by decide⟩
  obtain ⟨accepts, -, -⟩ := path_containment rooted
  rw [accepts, accepts]
  decide

end AgentForge
