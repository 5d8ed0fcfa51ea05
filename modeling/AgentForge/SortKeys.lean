import AgentForge.DigitOrder
import AgentForge.DynamoLifecycle

/-! The sort keys of the tables. DynamoDB orders the items of a partition by the bytes of their
sort keys, so that a number or a time in a key is in its place only if its text is. -/
namespace AgentForge

def eventSK (seq : Int) : String :=
  "EVT#" ++ GoText.padded 20 (if seq < 0 then 0 else seq)

private theorem padded_key_le_iff (text : String) {i j : Int} (positive : 0 < width) (low : 0 ≤ i)
    (high : i < 10 ^ width) (low' : 0 ≤ j) (high' : j < 10 ^ width) :
    text ++ GoText.padded width i ≤ text ++ GoText.padded width j ↔ i ≤ j := by
  lift i to Nat using low
  lift j to Nat using low'
  have ordered := GoText.padded_lt_iff positive (by exact_mod_cast high') (by exact_mod_cast high)
  rw [String.le_iff_toList_le, String.toList_append, String.toList_append, ← not_lt, ← not_lt,
    Int.ofNat_lt, ← ordered, GoText.append_lt_append_iff]

private theorem stepSK_le_iff {i j : Int} (low : 0 ≤ i) (high : i < 10 ^ 8) (low' : 0 ≤ j)
    (high' : j < 10 ^ 8) : stepSK i ≤ stepSK j ↔ i ≤ j :=
  padded_key_le_iff _ (by decide) low high low' high'

private theorem eventSK_le_iff {s t : Int} (low : 0 ≤ s) (high : s < 2 ^ 63) (low' : 0 ≤ t)
    (high' : t < 2 ^ 63) : eventSK s ≤ eventSK t ↔ s ≤ t := by
  unfold eventSK
  rw [if_neg low.not_gt, if_neg low'.not_gt]
  exact padded_key_le_iff _ (by decide) low (by omega) low' (by omega)

/-- Every event key comes before every step key. -/
theorem eventSK_lt_stepSK (seq i : Int) : eventSK seq < stepSK i := by
  rw [String.lt_iff_toList_lt, eventSK, stepSK, String.toList_append, String.toList_append]
  exact List.cons_lt_cons_iff.mpr (.inl (by decide))

/-- **Padded sort keys preserve order.** Step keys of up to eight digits and event keys of all
numbers of 64 bits are ordered as their numbers are, and the range `ListSteps` reads has the step
keys from the given index on and no event key. -/
theorem padded_sort_keys_ordered :
    (∀ i j : Int, 0 ≤ i → i < 10 ^ 8 → 0 ≤ j → j < 10 ^ 8 → (stepSK i ≤ stepSK j ↔ i ≤ j)) ∧
    (∀ s t : Int, 0 ≤ s → s < 2 ^ 63 → 0 ≤ t → t < 2 ^ 63 → (eventSK s ≤ eventSK t ↔ s ≤ t)) ∧
    ∀ start : Int, 0 ≤ start → start < 10 ^ 8 →
      (∀ i : Int, 0 ≤ i → i < 10 ^ 8 →
        (stepSK start ≤ stepSK i ∧ stepSK i ≤ stepSK 99999999 ↔ start ≤ i)) ∧
      ∀ seq : Int, ¬ (stepSK start ≤ eventSK seq ∧ eventSK seq ≤ stepSK 99999999) := by
  refine ⟨fun i j => stepSK_le_iff, fun s t => eventSK_le_iff, fun start low high => ⟨?_, ?_⟩⟩
  · intro i low' high'
    rw [stepSK_le_iff low high low' high', stepSK_le_iff low' high' (by decide) (by decide)]
    omega
  · rintro seq ⟨after, -⟩
    exact absurd (eventSK_lt_stepSK seq start) (not_lt.mpr after)

theorem padded_sort_keys_ordered_ten : stepSK 9 ≤ stepSK 10 :=
  (padded_sort_keys_ordered.1 9 10 (by decide) (by decide) (by decide) (by decide)).mpr (by decide)

/-! ## Times -/

/-- A time in UTC, with a year of four digits. -/
structure UTCTime where
  year : Fin 10000
  month : Fin 13
  day : Fin 32
  hour : Fin 24
  minute : Fin 60
  second : Fin 60
  nanosecond : Fin 1000000000

namespace UTCTime

/-- The time down to its second. -/
def civil (t : UTCTime) : List Nat := [t.year, t.month, t.day, t.hour, t.minute, t.second]

def Before (t t' : UTCTime) : Prop :=
  t.civil < t'.civil ∨ t.civil = t'.civil ∧ t.nanosecond < t'.nanosecond

/-- What stands before each number of `2006-01-02T15:04:05`, and the width of the number. -/
def layout : List (List Char × Nat) :=
  [([], 4), (['-'], 2), (['-'], 2), (['T'], 2), ([':'], 2), ([':'], 2)]

def stamp : List (List Char × Nat) → List Nat → List Char
  | (separator, width) :: layout, n :: rest =>
    separator ++ ((GoText.padded width n).toList ++ stamp layout rest)
  | _, _ => []

/-- The zeros at the end are dropped. -/
def trimZeros : List Char → List Char
  | [] => []
  | c :: rest => if c = '0' ∧ trimZeros rest = [] then [] else c :: trimZeros rest

/-- The digits of the fraction of the second. -/
def fraction (t : UTCTime) : List Char := trimZeros (GoText.padded 9 t.nanosecond).toList

/-- The layout `RFC3339Nano`: the fraction is left out where it is zero. -/
def rfc3339Nano (t : UTCTime) : String :=
  String.ofList (stamp layout t.civil ++
    ((if t.fraction = [] then [] else '.' :: t.fraction) ++ ['Z']))

/-- The numbers fit the layout. -/
abbrev Fits : List (List Char × Nat) → List Nat → Prop :=
  List.Forall₂ fun part n => 0 < part.2 ∧ n < 10 ^ part.2

private theorem fits_civil (t : UTCTime) : Fits layout t.civil := by
  have small : ∀ {bound : Nat} (n : Fin bound), bound ≤ 100 → 0 < 2 ∧ n.val < 10 ^ 2 := by
    intro bound n low
    exact ⟨by decide, n.isLt.trans_le low⟩
  exact .cons ⟨by decide, t.year.isLt⟩ (.cons (small _ (by decide)) (.cons (small _ (by decide))
    (.cons (small _ (by decide)) (.cons (small _ (by decide)) (.cons (small _ (by decide)) .nil)))))

/-- Numbers that come first are written first, whatever follows them. -/
theorem stamp_lt (fits : Fits parts ns) (fits' : Fits parts ns') (before : ns < ns')
    (x y : List Char) : stamp parts ns ++ x < stamp parts ns' ++ y := by
  induction fits generalizing ns' with
  | nil =>
    cases fits'
    simp at before
  | @cons part n parts ns ok fits ih =>
    obtain ⟨n', ns', ok', others, rfl⟩ := List.forall₂_cons_left_iff.mp fits'
    simp only [stamp, List.append_assoc, GoText.append_lt_append_iff]
    rcases List.cons_lt_cons_iff.mp before with first | ⟨rfl, rest⟩
    · refine GoText.lt_append_of_lt ((GoText.padded_lt_iff ok.1 ok.2 ok'.2).mpr first) ?_ _ _
      rw [GoText.length_padded ok.1 ok.2, GoText.length_padded ok.1 ok'.2]
    · rw [GoText.append_lt_append_iff]
      exact ih others rest

section Fractions

variable {p q : List Char}

private theorem trimZeros_ne_nil (same : p.length = q.length) (digits : ∀ c ∈ p, c.isDigit)
    (before : p < q) : trimZeros q ≠ [] := by
  induction p generalizing q with
  | nil => cases q <;> simp_all
  | cons c p ih =>
    cases q with
    | nil => simp at same
    | cons d q =>
      rw [trimZeros]
      rcases List.cons_lt_cons_iff.mp before with first | ⟨rfl, rest⟩
      · have digit := GoText.isDigit_iff.mp (digits c (List.mem_cons_self ..))
        have nonzero : d ≠ '0' := by
          rintro rfl
          exact absurd digit.1 (not_le.mpr first)
        simp [nonzero]
      · have some := ih (by simpa using same) (fun c' member => digits c' (.tail _ member)) rest
        simp [some]

/-- With a letter behind them that comes after the digits, the shorter of two fractions comes
last if it is the beginning of the other. -/
theorem trimZeros_lt_iff (same : p.length = q.length) (digitsP : ∀ c ∈ p, c.isDigit)
    (digitsQ : ∀ c ∈ q, c.isDigit) (before : p < q) (x y : List Char) :
    trimZeros p ++ 'Z' :: x < trimZeros q ++ 'Z' :: y ↔ ¬ trimZeros p <+: trimZeros q := by
  induction p generalizing q with
  | nil => cases q <;> simp_all
  | cons c p ih =>
    cases q with
    | nil => simp at same
    | cons d q =>
      have later : ¬ 'Z' < d := by
        have digit := GoText.isDigit_iff.mp (digitsQ d (List.mem_cons_self ..))
        exact not_lt.mpr (show d.toNat ≤ 90 by omega)
      have other : 'Z' ≠ d := by
        rintro rfl
        exact absurd (digitsQ 'Z' (List.mem_cons_self ..)) (by decide)
      have whole := trimZeros_ne_nil same digitsP before
      have head : trimZeros (d :: q) = d :: trimZeros q := by
        rw [trimZeros] at whole ⊢
        exact if_neg fun gone => whole (if_pos gone)
      rw [head, trimZeros]
      split
      · simp [List.cons_lt_cons_iff, later, other]
      rcases List.cons_lt_cons_iff.mp before with first | ⟨rfl, rest⟩
      · simp [List.cons_lt_cons_iff, first, first.ne]
      · have rest := ih (by simpa using same) (fun c' member => digitsP c' (.tail _ member))
          (fun c' member => digitsQ c' (.tail _ member)) rest
        simp [rest]

end Fractions

/-- Two times of one second. -/
theorem fraction_lt_iff {t t' : UTCTime} (before : t.nanosecond < t'.nanosecond) (x y : List Char) :
    (if t.fraction = [] then [] else '.' :: t.fraction) ++ 'Z' :: x <
        (if t'.fraction = [] then [] else '.' :: t'.fraction) ++ 'Z' :: y ↔
      ¬ t.fraction <+: t'.fraction := by
  have lengths : ∀ t : UTCTime, (GoText.padded 9 t.nanosecond).toList.length = 9 := fun t =>
    GoText.length_padded (by decide) t.nanosecond.isLt
  have same := (lengths t).trans (lengths t').symm
  have digits : (GoText.padded 9 t.nanosecond).toList < (GoText.padded 9 t'.nanosecond).toList :=
    (GoText.padded_lt_iff (by decide) t.nanosecond.isLt t'.nanosecond.isLt).mpr before
  have some : t'.fraction ≠ [] := trimZeros_ne_nil same (GoText.isDigit_padded _ _) digits
  rw [if_neg some]
  split
  · rename_i none
    simp [none, List.cons_lt_cons_iff]
  · simp only [List.cons_append, List.cons_lt_cons_iff, lt_irrefl, true_and, false_or]
    exact trimZeros_lt_iff same (GoText.isDigit_padded _ _) (GoText.isDigit_padded _ _) digits x y

end UTCTime

/-- **Task sort keys follow creation time unless a fraction goes on.** Where `utc` is the
calendar and the store writes two times in the layout `RFC3339Nano`, neither of them zero, the
key of the earlier is the smaller one, whatever the ids, just if the two are not of one
second with the fraction of the earlier the beginning of the fraction of the later. -/
theorem task_sort_key_lt_iff {V F : Type} (d : DynamoStore V F) (utc : Time → UTCTime)
    (now t t' : Time) (writes : d.formatTime t = (utc t).rfc3339Nano)
    (writes' : d.formatTime t' = (utc t').rfc3339Nano) (set : t ≠ 0) (set' : t' ≠ 0)
    (before : (utc t).Before (utc t')) (taskID taskID' : String) :
    d.taskTenantSortKey now t taskID < d.taskTenantSortKey now t' taskID' ↔
      ¬ ((utc t).civil = (utc t').civil ∧ (utc t).fraction <+: (utc t').fraction) := by
  simp only [DynamoStore.taskTenantSortKey, if_neg set, if_neg set', writes, writes', UTCTime.rfc3339Nano,
    String.lt_iff_toList_lt, String.toList_append, String.toList_ofList, List.append_assoc,
    List.singleton_append]
  rcases before with before | ⟨same, before⟩
  · simpa [before.ne] using UTCTime.stamp_lt (utc t).fits_civil (utc t').fits_civil before _ _
  · rw [same, GoText.append_lt_append_iff]
    simpa using UTCTime.fraction_lt_iff before _ _

/-- A store that writes the times of the minute after the zero time, the first of the year 1. -/
def minuteStore : DynamoStore Tagged Rat where
  tasksTable := "tasks"
  runsTable := "runs"
  stepsTable := "steps"
  av := taggedMarshalling
  formatTime t := (inMinute t).rfc3339Nano
where
  inMinute (t : Time) : UTCTime :=
    ⟨1, 1, 1, 0, 0, Fin.ofNat _ (t / 1000000000).toNat, Fin.ofNat _ (t % 1000000000).toNat⟩

theorem task_sort_key_lt_next_second :
    minuteStore.taskTenantSortKey 0 1500000000 "b" < minuteStore.taskTenantSortKey 0 2000000000 "a" :=
  (task_sort_key_lt_iff minuteStore minuteStore.inMinute 0 1500000000 2000000000 rfl rfl
    (by decide) (by decide) (.inl (by decide)) "b" "a").mpr (by decide)

/-- The second itself comes after its first tenth. -/
theorem whole_second_listed_late :
    (minuteStore.inMinute 5000000000).Before (minuteStore.inMinute 5100000000) ∧
      minuteStore.taskTenantSortKey 0 5100000000 "b" <
        minuteStore.taskTenantSortKey 0 5000000000 "a" := by
  refine ⟨.inr ⟨rfl, by decide⟩, ?_⟩
  decide +kernel

end AgentForge
