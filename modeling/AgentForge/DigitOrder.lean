import AgentForge.GoText
import Mathlib.Data.String.Basic

/-! The order of numbers written with a fixed number of digits. Text is compared letter by
letter, which is the order of its UTF-8 bytes; on digit strings of one length this is the order
of the numbers they write. -/
namespace GoText

variable {a b : List Char}

theorem append_lt_append_iff (front : List Char) : front ++ a < front ++ b ↔ a < b := by
  induction front with
  | nil => rfl
  | cons c front ih => simp [ih]

theorem lt_append_of_lt (before : a < b) (same : a.length = b.length) (x y : List Char) :
    a ++ x < b ++ y := by
  induction a generalizing b with
  | nil => cases b <;> simp_all
  | cons c a ih =>
    cases b with
    | nil => simp at same
    | cons d b =>
      rcases List.cons_lt_cons_iff.mp before with first | ⟨rfl, rest⟩
      · exact List.cons_lt_cons_iff.mpr (.inl first)
      · exact List.cons_lt_cons_iff.mpr (.inr ⟨rfl, ih rest (by simpa using same)⟩)

/-- The smaller digit string writes the smaller number, whatever was read before. -/
theorem ofDigitChars_lt (same : a.length = b.length) (areDigits : ∀ c ∈ a, c.isDigit)
    (before : m < n ∨ m = n ∧ a < b) : Nat.ofDigitChars 10 a m < Nat.ofDigitChars 10 b n := by
  induction a generalizing b m n with
  | nil => cases b <;> simp_all
  | cons c a ih =>
    cases b with
    | nil => simp at same
    | cons d b =>
      have digit := isDigit_iff.mp (areDigits c (List.mem_cons_self ..))
      have zero : '0'.toNat = 48 := rfl
      rw [Nat.ofDigitChars_cons, Nat.ofDigitChars_cons]
      refine ih (by simpa using same) (fun c' member => areDigits c' (.tail _ member)) ?_
      rcases before with less | ⟨rfl, before⟩
      · exact .inl (by omega)
      · rcases List.cons_lt_cons_iff.mp before with first | ⟨rfl, rest⟩
        · have first : c.toNat < d.toNat := first
          exact .inl (by omega)
        · exact .inr ⟨rfl, rest⟩

private theorem padded_toList (width n : Nat) :
    (padded width n).toList = List.replicate (width - (digits n).length) '0' ++ digits n := by
  simp [padded]

theorem length_padded (positive : 0 < width) (fits : n < 10 ^ width) :
    (padded width (n : Nat)).toList.length = width := by
  have short : (digits n).length ≤ width :=
    (Nat.length_toDigits_le_iff (by decide) positive).mpr fits
  rw [padded_toList, List.length_append, List.length_replicate]
  omega

theorem isDigit_padded (width n : Nat) : ∀ c ∈ (padded width n).toList, c.isDigit := by
  intro c member
  rw [padded_toList] at member
  exact isDigit_of_mem_padded member

theorem padded_lt_iff {m n : Nat} (positive : 0 < width) (fits : m < 10 ^ width)
    (fits' : n < 10 ^ width) : (padded width m).toList < (padded width n).toList ↔ m < n := by
  have smaller : ∀ {m n : Nat}, m < 10 ^ width → n < 10 ^ width →
      (padded width m).toList < (padded width n).toList → m < n := by
    intro m n fits fits' before
    have numbers := ofDigitChars_lt ((length_padded positive fits).trans
      (length_padded positive fits').symm) (isDigit_padded _ _) (.inr ⟨(rfl : 0 = 0), before⟩)
    rwa [padded_toList, padded_toList, ofDigitChars_padded, ofDigitChars_padded] at numbers
  refine ⟨smaller fits fits', fun before => ?_⟩
  rcases lt_trichotomy (padded width m).toList (padded width n).toList with first | same | last
  · exact first
  · exact absurd (Int.ofNat_inj.mp (padded_injective width (String.toList_inj.mp same))) before.ne
  · exact absurd (smaller fits' fits last) before.asymm

end GoText
