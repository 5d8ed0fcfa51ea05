import AgentForge.GoText
import Mathlib.Data.List.Infix

/-! Go's `path/filepath` on slash-separated paths. A path is read element by element: an
empty element and "." stay, ".." goes up, anything else goes down. A rooted path therefore
names a list of plain elements, its place below "/", and is written back from it in one way
only. -/
namespace SlashPath

/-- `strings.Split(path, "/")`. -/
def elements (path : String) : List String := GoText.split path "/"

/-- `filepath.IsAbs`. -/
def isAbs (path : String) : Bool := decide ("/".toList <+: path.toList)

/-- An element that names an entry of a directory. -/
def Plain (part : String) : Prop :=
  part ≠ "" ∧ '/' ∉ part.toList ∧ part ≠ "." ∧ part ≠ ".."

instance (part : String) : Decidable (Plain part) := inferInstanceAs (Decidable (_ ∧ _))

/-- One element read, with those kept so far latest first. ".." drops the last of them; with
nothing left to drop it stays at the root, and is kept where there is none. -/
def push (rooted : Bool) (kept : List String) (part : String) : List String :=
  if part = "" ∨ part = "." then kept
  else if part = ".." then
    match kept with
    | [] => if rooted then [] else [".."]
    | last :: rest => if last = ".." then ".." :: kept else rest
  else part :: kept

/-- The elements that are left when all have been read. -/
def resolve (rooted : Bool) (parts : List String) : List String :=
  (parts.foldl (push rooted) []).reverse

/-- The rooted path of the elements. -/
def absolute (parts : List String) : String := "/" ++ "/".intercalate parts

/-- The path of the elements from wherever it is read. -/
def relative (parts : List String) : String :=
  if parts = [] then "." else "/".intercalate parts

/-- `filepath.Clean`. -/
def clean (path : String) : String :=
  if isAbs path then absolute (resolve true (elements path))
  else relative (resolve false (elements path))

/-- `filepath.Join` of two elements. -/
def join (first second : String) : String :=
  if first ≠ "" then clean (first ++ "/" ++ second)
  else if second ≠ "" then clean second else ""

/-- The place below "/" that a rooted path names. -/
def locate (path : String) : List String := resolve true (elements path)

/-- Where an element leads from a place: an empty one and "." stay, ".." goes up, though not
above "/", and any other goes down. -/
def descend (place : List String) (part : String) : List String :=
  if part = "" ∨ part = "." then place else if part = ".." then place.dropLast
  else place ++ [part]

/-- Where a path leads from a place, element by element. -/
def climb (root : List String) (path : String) : List String :=
  (elements path).foldl descend root

/-! ## Elements -/

private theorem splitFrom_single (c : Char) (part rest : List Char) :
    GoText.splitFrom [c] part rest 0 = rest.splitOnPPrepend (· == c) part := by
  induction rest generalizing part with
  | nil => rfl
  | cons d rest ih =>
    rw [GoText.splitFrom, List.splitOnPPrepend_cons_eq_if]
    by_cases same : c = d
    · rw [if_pos (List.cons_prefix_cons.mpr ⟨same, List.nil_prefix⟩),
        if_pos (by simpa using same.symm)]
      exact congrArg _ (ih [])
    · rw [if_neg fun begins => same (List.cons_prefix_cons.mp begins).1,
        if_neg (by simpa using Ne.symm same)]
      exact ih (d :: part)

private theorem elements_eq (path : String) :
    elements path = (path.toList.splitOn '/').map String.ofList :=
  congrArg _ (splitFrom_single '/' [] path.toList)

private theorem elements_ne_nil (path : String) : elements path ≠ [] := by
  rw [elements_eq]
  simp

private theorem elements_slash (first second : String) :
    elements (first ++ "/" ++ second) = elements first ++ elements second := by
  have cut : (first ++ "/" ++ second).toList = first.toList ++ '/' :: second.toList := by simp
  rw [elements_eq, cut, List.splitOn_append_cons_self, List.map_append, ← elements_eq,
    ← elements_eq]

private theorem elements_of_noSlash (clear : '/' ∉ part.toList) : elements part = [part] := by
  rw [elements_eq, List.splitOn_eq_singleton clear, List.map_singleton, String.ofList_toList]

private theorem elements_intercalate (some : parts ≠ [])
    (clear : ∀ part ∈ parts, '/' ∉ part.toList) :
    elements ("/".intercalate parts) = parts := by
  have split : (("/".intercalate parts).toList.splitOn '/') = parts.map String.toList := by
    rw [String.toList_intercalate]
    refine List.splitOn_intercalate '/' (fun l member => ?_) (by simpa using some)
    obtain ⟨part, inside, rfl⟩ := List.mem_map.mp member
    exact clear part inside
  rw [elements_eq, split, List.map_map]
  exact (List.map_congr_left fun part _ => String.ofList_toList).trans (List.map_id _)

private theorem noSlash_of_mem_elements (member : part ∈ elements path) : '/' ∉ part.toList := by
  have clear : ∀ (part rest : List Char), '/' ∉ part →
      ∀ piece ∈ rest.splitOnPPrepend (· == '/') part, '/' ∉ piece := by
    intro part rest
    induction rest generalizing part with
    | nil => simp
    | cons c rest ih =>
      intro clear piece inside
      rw [List.splitOnPPrepend_cons_eq_if] at inside
      split at inside
      · rcases List.mem_cons.mp inside with rfl | later
        · simpa using clear
        · exact ih [] (List.not_mem_nil) piece later
      · rename_i other
        refine ih (c :: part) ?_ piece inside
        rw [List.mem_cons, not_or]
        exact ⟨fun same => other (beq_iff_eq.mpr same.symm), clear⟩
  rw [elements_eq] at member
  obtain ⟨piece, inside, rfl⟩ := List.mem_map.mp member
  rw [String.toList_ofList]
  exact clear [] _ List.not_mem_nil piece inside

/-! ## Reading the elements -/

private theorem push_plain (plain : Plain part) : push rooted kept part = part :: kept := by
  rw [push.eq_def, if_neg (not_or.mpr ⟨plain.1, plain.2.2.1⟩), if_neg plain.2.2.2]

private theorem foldl_push_plain (rooted : Bool) {parts : List String} (kept : List String)
    (plain : ∀ part ∈ parts, Plain part) :
    parts.foldl (push rooted) kept = parts.reverse ++ kept := by
  induction parts generalizing kept with
  | nil => rfl
  | cons part parts ih =>
    rw [List.foldl_cons, push_plain (plain part (List.mem_cons_self ..)),
      ih _ fun other later => plain other (List.mem_cons_of_mem _ later)]
    simp

/-- Reading keeps plain elements, and ".." only where there is no root. -/
theorem plain_push (plain : ∀ other ∈ kept, Plain other ∨ (rooted = false ∧ other = ".."))
    (clear : '/' ∉ part.toList) :
    ∀ other ∈ push rooted kept part, Plain other ∨ (rooted = false ∧ other = "..") := by
  intro other member
  rw [push.eq_def] at member
  split at member
  · exact plain other member
  · rename_i named
    rw [not_or] at named
    split at member
    · cases kept with
      | nil =>
        dsimp only at member
        split at member
        · exact absurd member List.not_mem_nil
        · rename_i free
          exact .inr ⟨Bool.not_eq_true _ ▸ free, List.mem_singleton.mp member⟩
      | cons last rest =>
        dsimp only at member
        split at member
        · rename_i up
          rcases List.mem_cons.mp member with rfl | member
          · rcases plain last (List.mem_cons_self ..) with isPlain | ⟨free, -⟩
            · exact absurd up isPlain.2.2.2
            · exact .inr ⟨free, rfl⟩
          · exact plain other member
        · exact plain other (List.mem_cons_of_mem _ member)
    · rename_i down
      rcases List.mem_cons.mp member with rfl | member
      · exact .inl ⟨named.1, clear, named.2, down⟩
      · exact plain other member

private theorem plain_foldl_push {parts kept : List String}
    (plain : ∀ other ∈ kept, Plain other ∨ (rooted = false ∧ other = ".."))
    (clear : ∀ part ∈ parts, '/' ∉ part.toList) :
    ∀ other ∈ parts.foldl (push rooted) kept, Plain other ∨ (rooted = false ∧ other = "..") := by
  induction parts generalizing kept with
  | nil => exact plain
  | cons part parts ih =>
    exact ih (plain_push plain (clear part (List.mem_cons_self ..)))
      fun other later => clear other (List.mem_cons_of_mem _ later)

private theorem plain_resolve {path part : String}
    (member : part ∈ resolve rooted (elements path)) :
    Plain part ∨ (rooted = false ∧ part = "..") :=
  plain_foldl_push (fun _ none => absurd none List.not_mem_nil)
    (fun _ => noSlash_of_mem_elements) part (List.mem_reverse.mp member)

private theorem noSlash_resolve {path part : String}
    (member : part ∈ resolve rooted (elements path)) : '/' ∉ part.toList := by
  rcases plain_resolve member with isPlain | ⟨-, rfl⟩
  · exact isPlain.2.1
  · decide

theorem plain_locate (member : part ∈ locate path) : Plain part :=
  (plain_resolve member).resolve_right fun free => Bool.noConfusion free.1

/-! ## Rooted paths -/

section Rooted

private theorem toList_absolute (parts : List String) :
    (absolute parts).toList = '/' :: ("/".intercalate parts).toList := by
  simp [absolute]

@[simp] theorem isAbs_absolute (parts : List String) : isAbs (absolute parts) = true := by
  rw [isAbs, toList_absolute, decide_eq_true_iff]
  exact (List.cons_prefix_cons).mpr ⟨rfl, List.nil_prefix⟩

private theorem absolute_ne_empty (parts : List String) : absolute parts ≠ "" := by
  intro none
  have chars := congrArg String.toList none
  rw [toList_absolute] at chars
  exact List.cons_ne_nil _ _ chars

private theorem elements_absolute (plain : ∀ part ∈ place, Plain part) :
    elements (absolute place) = "" :: if place = [] then [""] else place := by
  have front : absolute place = "" ++ "/" ++ "/".intercalate place := by simp [absolute]
  rw [front, elements_slash, elements_of_noSlash (by simp)]
  split
  · rename_i none
    rw [none]
    rfl
  · rename_i some
    rw [elements_intercalate some fun part inside => (plain part inside).2.1]
    rfl

/-- Reading a rooted path leaves its place, on top of which reading may go on. -/
theorem foldl_push_absolute (plain : ∀ part ∈ place, Plain part) :
    (elements (absolute place)).foldl (push true) [] = place.reverse := by
  rw [elements_absolute plain]
  split
  · rename_i none
    rw [none]
    rfl
  · rw [List.foldl_cons, show push true [] "" = [] from rfl, foldl_push_plain true [] plain,
      List.append_nil]

@[simp] theorem locate_absolute (plain : ∀ part ∈ place, Plain part) :
    locate (absolute place) = place := by
  rw [locate, resolve, foldl_push_absolute plain, List.reverse_reverse]

theorem clean_of_isAbs (rooted : isAbs path = true) :
    clean path = absolute (locate path) := if_pos rooted

/-- Below "/" elements are read as places are walked. -/
theorem foldl_push_true {kept parts : List String} (plain : ∀ other ∈ kept, Plain other)
    (clear : ∀ part ∈ parts, '/' ∉ part.toList) :
    (parts.foldl (push true) kept).reverse = parts.foldl descend kept.reverse := by
  induction parts generalizing kept with
  | nil => rfl
  | cons part parts ih =>
    have next : ∀ other ∈ push true kept part, Plain other := fun other member =>
      (plain_push (fun other inside => .inl (plain other inside))
        (clear part (List.mem_cons_self ..)) other member).resolve_right (by simp)
    have step : (push true kept part).reverse = descend kept.reverse part := by
      unfold push descend
      cases kept with
      | nil => split_ifs <;> simp_all
      | cons last rest =>
        have down := (plain last (List.mem_cons_self ..)).2.2.2
        simp only [down, if_false]
        split_ifs <;> simp
    rw [List.foldl_cons, List.foldl_cons, ← step]
    exact ih next fun other later => clear other (List.mem_cons_of_mem _ later)

theorem plain_climb (plain : ∀ part ∈ root, Plain part) (path : String) :
    ∀ part ∈ climb root path, Plain part := by
  have kept : ∀ other ∈ root.reverse, Plain other := by simpa using plain
  have read : ((elements path).foldl (push true) root.reverse).reverse = _ :=
    foldl_push_true kept fun _ => noSlash_of_mem_elements
  rw [List.reverse_reverse] at read
  intro part member
  rw [climb, ← read, List.mem_reverse] at member
  exact (plain_foldl_push (fun other inside => .inl (kept other inside))
    (fun _ => noSlash_of_mem_elements) part member).resolve_right (by simp)

theorem join_absolute (plain : ∀ part ∈ root, Plain part) (path : String) :
    join (absolute root) path = absolute (climb root path) := by
  have rooted : isAbs (absolute root ++ "/" ++ path) = true := by
    rw [isAbs, decide_eq_true_iff, String.toList_append, String.toList_append, toList_absolute]
    exact (List.cons_prefix_cons).mpr ⟨rfl, List.nil_prefix⟩
  have kept : ∀ other ∈ root.reverse, Plain other := by simpa using plain
  rw [join, if_pos (absolute_ne_empty root), clean_of_isAbs rooted, locate, resolve,
    elements_slash, List.foldl_append, foldl_push_absolute plain,
    foldl_push_true kept fun _ => noSlash_of_mem_elements, List.reverse_reverse, climb]

private theorem intercalate_append (some : front ≠ []) (some' : back ≠ []) :
    "/".intercalate (front ++ back) = "/".intercalate front ++ "/" ++ "/".intercalate back := by
  induction front with
  | nil => exact absurd rfl some
  | cons part front ih =>
    cases front with
    | nil =>
      obtain ⟨first, rest, rfl⟩ := List.exists_cons_of_ne_nil some'
      simp [String.intercalate_cons_cons]
    | cons next front =>
      rw [List.cons_append, List.cons_append, String.intercalate_cons_cons, ← List.cons_append,
        ih (List.cons_ne_nil _ _), String.intercalate_cons_cons]
      simp only [String.append_assoc]

theorem absolute_append (some : front ≠ []) (some' : back ≠ []) :
    absolute (front ++ back) = absolute front ++ "/" ++ "/".intercalate back := by
  rw [absolute, intercalate_append some some', absolute]
  simp only [String.append_assoc]

/-- A path continues the root's and a slash exactly if its place is properly below. -/
theorem below_iff (some : root ≠ []) (plain : ∀ part ∈ root, Plain part)
    (plain' : ∀ part ∈ place, Plain part) :
    (absolute root ++ "/").toList <+: (absolute place).toList ↔
      ∃ rest, rest ≠ [] ∧ place = root ++ rest := by
  constructor
  · rintro ⟨tail, whole⟩
    have written : absolute place = absolute root ++ "/" ++ String.ofList tail := by
      rw [← String.toList_inj, String.toList_append, String.toList_ofList, whole]
    have read := congrArg elements written
    rw [elements_slash, elements_absolute plain, elements_absolute plain', if_neg some] at read
    rw [List.cons_append] at read
    obtain ⟨-, read⟩ := List.cons.inj read
    have left := elements_ne_nil (String.ofList tail)
    split at read
    · exfalso
      have lengths := congrArg List.length read
      have one := List.length_pos_iff.mpr some
      have other := List.length_pos_iff.mpr left
      rw [List.length_append, List.length_singleton] at lengths
      omega
    · exact ⟨_, left, read⟩
  · rintro ⟨rest, left, rfl⟩
    rw [absolute_append some left, String.toList_append (s := absolute root ++ "/")]
    exact List.prefix_append ..

end Rooted

/-! ## Paths that are not rooted -/

section Free

variable {place root : List String}

private theorem elements_relative (clear : ∀ part ∈ place, '/' ∉ part.toList) :
    elements (relative place) = if place = [] then ["."] else place := by
  rw [relative]
  split
  · exact elements_of_noSlash (by decide)
  · rename_i some
    exact elements_intercalate some clear

private theorem isAbs_relative (plain : ∀ part ∈ place, Plain part ∨ part = "..") :
    isAbs (relative place) = false := by
  have clear : ∀ part ∈ place, '/' ∉ part.toList := by
    intro part inside
    rcases plain part inside with isPlain | rfl
    · exact isPlain.2.1
    · decide
  rw [isAbs, decide_eq_false_iff_not]
  rintro ⟨tail, whole⟩
  have written : relative place = "" ++ "/" ++ String.ofList tail := by
    rw [← String.toList_inj, ← whole]
    simp
  have read := congrArg elements written
  have empty : elements "" = [""] := rfl
  rw [elements_slash, empty, elements_relative clear] at read
  split at read
  · exact absurd (List.cons.inj read).1 (by decide)
  · rcases plain "" (read ▸ List.mem_cons_self ..) with isPlain | up
    · exact isPlain.1 rfl
    · exact absurd up (by decide)

private theorem foldl_descend_plain (plain : ∀ part ∈ place, Plain part) :
    place.foldl descend root = root ++ place := by
  induction place generalizing root with
  | nil => simp
  | cons part place ih =>
    obtain ⟨some, -, dot, up⟩ := plain part (List.mem_cons_self ..)
    rw [List.foldl_cons, ih fun other later => plain other (List.mem_cons_of_mem _ later)]
    simp [descend, some, dot, up]

/-- Plain elements lead down. -/
theorem climb_relative (plain : ∀ part ∈ place, Plain part) :
    climb root (relative place) = root ++ place := by
  rw [climb, elements_relative fun part inside => (plain part inside).2.1]
  split
  · rename_i none
    simp [none, descend]
  · exact foldl_descend_plain plain

/-- A cleaned path that is not rooted and goes nowhere up is one of plain elements. -/
theorem clean_inside (free : isAbs (clean path) = false) (inside : ".." ∉ elements (clean path)) :
    clean path = relative (resolve false (elements path)) ∧
      ∀ part ∈ resolve false (elements path), Plain part := by
  cases rooted : isAbs path with
  | true =>
    rw [clean_of_isAbs rooted, isAbs_absolute] at free
    exact Bool.noConfusion free
  | false =>
    have cleaned : clean path = relative (resolve false (elements path)) :=
      if_neg (by rw [rooted]; exact Bool.false_ne_true)
    refine ⟨cleaned, fun part member => (plain_resolve member).resolve_right ?_⟩
    rintro ⟨-, rfl⟩
    rw [cleaned, elements_relative fun _ => noSlash_resolve,
      if_neg (List.ne_nil_of_mem member)] at inside
    exact inside member

/-- A path that is not rooted leads where its elements lead, once they have been reduced. -/
theorem foldl_descend_push {kept parts : List String}
    (kinds : ∀ other ∈ kept, Plain other ∨ other = "..")
    (clear : ∀ part ∈ parts, '/' ∉ part.toList) :
    (parts.foldl (push false) kept).reverse.foldl descend root =
      parts.foldl descend (kept.reverse.foldl descend root) := by
  induction parts generalizing kept with
  | nil => rfl
  | cons part parts ih =>
    have next : ∀ other ∈ push false kept part, Plain other ∨ other = ".." := fun other member =>
      (plain_push (fun other inside => (kinds other inside).imp_right (⟨rfl, ·⟩))
        (clear part (List.mem_cons_self ..)) other member).imp_right (·.2)
    have step : (push false kept part).reverse.foldl descend root =
        descend (kept.reverse.foldl descend root) part := by
      by_cases stays : part = "" ∨ part = "."
      · simp [push.eq_def, descend, stays]
      by_cases up : part = ".."
      · cases kept with
        | nil => simp [push.eq_def, up]
        | cons last rest =>
          rcases kinds last (List.mem_cons_self ..) with ⟨some, -, dot, down⟩ | rfl
          · simp [push.eq_def, descend, up, some, dot, down]
          · simp [push.eq_def, up]
      · simp [push.eq_def, stays, up]
    rw [List.foldl_cons, List.foldl_cons, ← step]
    exact ih next fun other later => clear other (List.mem_cons_of_mem _ later)

theorem isAbs_clean (path : String) : isAbs (clean path) = isAbs path := by
  cases rooted : isAbs path with
  | true => rw [clean_of_isAbs rooted, isAbs_absolute]
  | false =>
    rw [clean, rooted, if_neg Bool.false_ne_true]
    exact isAbs_relative fun part member => (plain_resolve member).imp_right (·.2)

/-- Cleaning a path does not change where it leads. -/
theorem climb_clean {path : String} (free : isAbs path = false) :
    climb root (clean path) = climb root path := by
  have walked : (resolve false (elements path)).foldl descend root = climb root path :=
    foldl_descend_push nofun fun _ => noSlash_of_mem_elements
  rw [clean, free, if_neg Bool.false_ne_true, climb,
    elements_relative fun _ => noSlash_resolve, ← walked]
  split
  · rename_i none
    simp [none, descend]
  · rfl

end Free

end SlashPath
