import Mathlib.Algebra.Order.Ring.Int
import Mathlib.Data.List.Infix

/-! The parts of Go's `strings`, `fmt` and `unicode` packages the code relies
on, over Lean strings. Case mapping beyond ASCII is a table of the Unicode
standard, so the mapping of one character is left to the caller. -/
namespace GoText

/-- `unicode.IsSpace`: the characters with the White_Space property. -/
def isSpace (c : Char) : Bool :=
  c = '\t' || c = '\n' || c = '\u000b' || c = '\u000c' || c = '\r' || c = ' ' ||
  c = '\u0085' || c = '\u00a0' || c = '\u1680' || ('\u2000' ≤ c && c ≤ '\u200a') ||
  c = '\u2028' || c = '\u2029' || c = '\u202f' || c = '\u205f' || c = '\u3000'

/-- `strings.TrimSpace`. -/
def trimSpace (s : String) : String :=
  String.ofList ((s.toList.dropWhile isSpace).reverse.dropWhile isSpace).reverse

/-- `strings.Fields`, as the words of `chars` with `word` the letters of the
one being read, latest first. -/
def fieldsFrom (word : List Char) : List Char → List (List Char)
  | [] => if word.isEmpty then [] else [word.reverse]
  | c :: rest =>
    if isSpace c then
      if word.isEmpty then fieldsFrom [] rest else word.reverse :: fieldsFrom [] rest
    else fieldsFrom (c :: word) rest

/-- `strings.Fields`. -/
def fields (s : String) : List String := (fieldsFrom [] s.toList).map String.ofList

/-- `strings.ToLower`, for the given mapping of single characters. -/
def toLower (lower : Char → Char) (s : String) : String := String.ofList (s.toList.map lower)

/-- `strings.Contains`. -/
def contains (s sub : String) : Bool := decide (sub.toList <:+: s.toList)

/-- The decimal digits of a number, most significant first. -/
def digits (n : Nat) : List Char := Nat.toDigits 10 n

/-- `fmt.Sprintf("%d", n)`. -/
def decimal (n : Int) : String :=
  String.ofList (if n < 0 then '-' :: digits n.natAbs else digits n.natAbs)

/-- `fmt.Sprintf("%0wd", n)`: zeros fill the width after the sign. -/
def padded (width : Nat) (n : Int) : String :=
  let ds := digits n.natAbs
  String.ofList (if n < 0 then '-' :: (List.replicate (width - 1 - ds.length) '0' ++ ds)
    else List.replicate (width - ds.length) '0' ++ ds)

/-- `strings.Split`, with `part` the letters since the last separator, latest first, and
`skip` the letters of a separator that are still to be passed over. -/
def splitFrom (sep part : List Char) : List Char → Nat → List (List Char)
  | [], _ => [part.reverse]
  | c :: rest, 0 =>
    if sep <+: c :: rest then part.reverse :: splitFrom sep [] rest (sep.length - 1)
    else splitFrom sep (c :: part) rest 0
  | _ :: rest, skip + 1 => splitFrom sep part rest skip

/-- `strings.Split`, for a separator that is not empty. -/
def split (s sep : String) : List String :=
  (splitFrom sep.toList [] s.toList 0).map String.ofList

/-- `strconv.ErrSyntax` and `strconv.ErrRange`. -/
inductive NumError where
  | invalidSyntax | outOfRange
  deriving DecidableEq

/-- The digits of an unsigned number of 64 bits, after those read already. -/
def parseUint (n : Nat) : List Char → Except NumError Nat
  | [] => .ok n
  | c :: rest =>
    if !c.isDigit then .error .invalidSyntax
    else
      let n := 10 * n + (c.toNat - '0'.toNat)
      if 2 ^ 64 ≤ n then .error .outOfRange else parseUint n rest

/-- `strconv.Atoi`, where an `int` has 64 bits. -/
def atoi (s : String) : Except NumError Int :=
  let (negative, digits) := match s.toList with
    | '-' :: digits => (true, digits)
    | '+' :: digits => (false, digits)
    | digits => (false, digits)
  if digits.isEmpty then .error .invalidSyntax
  else
    match parseUint 0 digits with
    | .error e => .error e
    | .ok n =>
      if negative then (if 2 ^ 63 < n then .error .outOfRange else .ok (-n))
      else if 2 ^ 63 ≤ n then .error .outOfRange else .ok n

/-- One hexadecimal digit. -/
def hexDigit (n : Nat) : Char := Nat.digitChar (n % 16)

/-- `fmt.Sprintf("%x", b)` of a byte slice. -/
def hex (bytes : List UInt8) : String :=
  String.ofList (bytes.flatMap fun b => [hexDigit (b.toNat / 16), hexDigit b.toNat])

/-! ## Numbers written and read back -/

private theorem isDigit_of_mem_digits (member : c ∈ digits n) : c.isDigit :=
  Nat.isDigit_of_mem_toDigits (by decide) (by decide) member

/-- Digits are read back if what they say fits. -/
theorem parseUint_eq (ds : List Char) (n : Nat) (areDigits : ∀ c ∈ ds, c.isDigit)
    (fits : Nat.ofDigitChars 10 ds n < 2 ^ 64) :
    parseUint n ds = .ok (Nat.ofDigitChars 10 ds n) := by
  induction ds generalizing n with
  | nil => simp [parseUint]
  | cons c rest ih =>
    have first := areDigits c (List.mem_cons_self ..)
    rw [Nat.ofDigitChars_cons] at fits ⊢
    have grows : 10 * n + (c.toNat - '0'.toNat) ≤
        Nat.ofDigitChars 10 rest (10 * n + (c.toNat - '0'.toNat)) := by
      rw [Nat.ofDigitChars_eq_ofDigitChars_zero]
      exact (Nat.le_mul_of_pos_left _ (Nat.pow_pos (by decide))).trans (Nat.le_add_right ..)
    have small : ¬ 2 ^ 64 ≤ 10 * n + (c.toNat - '0'.toNat) := by omega
    rw [parseUint, first]
    simp only [Bool.not_true, Bool.false_eq_true, if_false, if_neg small]
    exact ih _ (fun c' member => areDigits c' (List.mem_cons_of_mem _ member)) fits

private theorem parseUint_digits (fits : n < 2 ^ 64) : parseUint 0 (digits n) = .ok n := by
  have value : Nat.ofDigitChars 10 (digits n) 0 = n := Nat.ofDigitChars_ten_toDigits
  rw [parseUint_eq _ _ (fun _ => isDigit_of_mem_digits) (by rwa [value]), value]

/-- A number in the range of an `int` is read back. -/
theorem atoi_decimal (low : -2 ^ 63 ≤ n) (high : n < 2 ^ 63) : atoi (decimal n) = .ok n := by
  have digitsLeft : (digits n.natAbs).isEmpty = false := by
    simp [digits]
  have read : parseUint 0 (digits n.natAbs) = .ok n.natAbs := parseUint_digits (by omega)
  unfold atoi decimal
  by_cases negative : n < 0
  · simp only [negative, if_true, String.toList_ofList, digitsLeft, read]
    rw [if_neg (by simp), if_neg (by omega)]
    congr
    omega
  · simp only [negative, if_false, String.toList_ofList]
    have unsigned : (match digits n.natAbs with
        | '-' :: digits => (true, digits)
        | '+' :: digits => (false, digits)
        | digits => (false, digits)) = (false, digits n.natAbs) := by
      cases same : digits n.natAbs with
      | nil => rfl
      | cons c rest =>
        have first : c.isDigit := isDigit_of_mem_digits (n := n.natAbs) (by simp [same])
        split
        · rename_i found
          cases found
          exact absurd first (by decide)
        · rename_i found
          cases found
          exact absurd first (by decide)
        · rfl
    rw [unsigned]
    simp only [digitsLeft, read]
    rw [if_neg (by simp), if_neg (by simp), if_neg (by omega)]
    congr
    omega

/-- Zeros in front of a number leave it as it is. -/
theorem ofDigitChars_padded (zeros n : Nat) :
    Nat.ofDigitChars 10 (List.replicate zeros '0' ++ digits n) 0 = n := by
  induction zeros with
  | zero => exact Nat.ofDigitChars_ten_toDigits
  | succ zeros ih =>
    rw [List.replicate_succ, List.cons_append, Nat.ofDigitChars_cons]
    exact ih

theorem isDigit_of_mem_padded (member : c ∈ List.replicate zeros '0' ++ digits n) : c.isDigit := by
  rcases List.mem_append.mp member with zero | digit
  · rw [(List.mem_replicate.mp zero).2]
    decide
  · exact isDigit_of_mem_digits digit

/-- Different numbers are written differently. -/
theorem padded_injective (width : Nat) : Function.Injective (padded width) := by
  have sign : ∀ (zeros n : Nat) (l : List Char), List.replicate zeros '0' ++ digits n ≠ '-' :: l := by
    intro zeros n l same
    have first : '-' ∈ List.replicate zeros '0' ++ digits n := by simp [same]
    exact absurd (isDigit_of_mem_padded first) (by decide)
  intro m n same
  have letters := String.ofList_injective same
  by_cases negative : m < 0
  · by_cases negative' : n < 0
    · rw [if_pos negative, if_pos negative', List.cons.injEq] at letters
      have values := congrArg (Nat.ofDigitChars 10 · 0) letters.2
      simp only [ofDigitChars_padded] at values
      omega
    · rw [if_pos negative, if_neg negative'] at letters
      exact (sign _ _ _ letters.symm).elim
  · by_cases negative' : n < 0
    · rw [if_neg negative, if_pos negative'] at letters
      exact (sign _ _ _ letters).elim
    · rw [if_neg negative, if_neg negative'] at letters
      have values := congrArg (Nat.ofDigitChars 10 · 0) letters
      simp only [ofDigitChars_padded] at values
      omega

/-- The letters of a number are digits and a sign. -/
theorem mem_decimal (member : c ∈ (decimal n).toList) : c = '-' ∨ c.isDigit := by
  unfold decimal at member
  rw [String.toList_ofList] at member
  split at member
  · rcases List.mem_cons.mp member with rfl | member
    · exact .inl rfl
    · exact .inr (isDigit_of_mem_digits member)
  · exact .inr (isDigit_of_mem_digits member)

theorem mem_padded (member : c ∈ (padded width n).toList) : c = '-' ∨ c.isDigit := by
  unfold padded at member
  rw [String.toList_ofList] at member
  split at member
  · rcases List.mem_cons.mp member with rfl | member
    · exact .inl rfl
    · exact .inr (isDigit_of_mem_padded member)
  · exact .inr (isDigit_of_mem_padded member)

theorem isDigit_iff {c : Char} : c.isDigit ↔ 48 ≤ c.toNat ∧ c.toNat ≤ 57 := by
  simp [Char.isDigit, UInt32.le_iff_toNat_le]

/-- What holds of the ten digits holds of a digit. -/
theorem of_isDigit (P : Char → Prop) (all : ∀ n : Fin 10, P (Char.ofNat (48 + n)))
    (digit : c.isDigit) : P c := by
  obtain ⟨low, high⟩ := isDigit_iff.mp digit
  have known := all ⟨c.toNat - 48, by omega⟩
  simpa [Nat.add_sub_cancel' low] using known

/-- No digit is a space. -/
theorem isSpace_of_isDigit (digit : c.isDigit) : isSpace c = false :=
  of_isDigit (isSpace · = false) (by decide) digit

theorem trimSpace_eq_self (dense : ∀ c ∈ s.toList, isSpace c = false) : trimSpace s = s := by
  have whole : ∀ {l : List Char}, (∀ c ∈ l, isSpace c = false) → l.dropWhile isSpace = l := by
    intro l dense
    cases l with
    | nil => rfl
    | cons c rest => simp [dense c (List.mem_cons_self ..)]
  unfold trimSpace
  rw [whole dense, whole (by simpa using dense), List.reverse_reverse, String.ofList_toList]

/-- What holds no letter the separator begins with is passed over in one piece. -/
theorem splitFrom_append (clear : e ∉ front) :
    splitFrom (e :: sep) part (front ++ rest) 0 =
      splitFrom (e :: sep) (front.reverse ++ part) rest 0 := by
  induction front generalizing part with
  | nil => rfl
  | cons c front ih =>
    have other : ¬ e :: sep <+: c :: (front ++ rest) := by
      rw [List.cons_prefix_cons]
      rintro ⟨rfl, -⟩
      exact clear (List.mem_cons_self ..)
    rw [List.cons_append, splitFrom, if_neg other,
      ih fun member => clear (List.mem_cons_of_mem _ member)]
    simp

private theorem splitFrom_skip (sep part : List Char) (passed rest : List Char) :
    splitFrom sep part (passed ++ rest) passed.length = splitFrom sep part rest 0 := by
  induction passed with
  | nil => rfl
  | cons c passed ih => rw [List.cons_append, List.length_cons, splitFrom, ih]

/-- The separator ends a part. -/
theorem splitFrom_sep (e : Char) (sep part rest : List Char) :
    splitFrom (e :: sep) part (e :: sep ++ rest) 0 =
      part.reverse :: splitFrom (e :: sep) [] rest 0 := by
  rw [List.cons_append, splitFrom, if_pos (by simp), List.length_cons, Nat.add_sub_cancel,
    splitFrom_skip]

/-! ## Letter case -/

/-- What is used of Go's tables of letter case: `unicode.ToLower`, and which characters
lie on one orbit of `unicode.SimpleFold`. ASCII letters are mapped as usual, and of all
other characters the dotted capital I and the Kelvin sign alone go to an ASCII one. -/
structure CaseTables where
  lower : Char → Char
  sameFold : Char → Char → Bool
  lower_ascii : ∀ c, c.toNat < 128 → lower c = c.toLower
  lower_dotted : lower '\u0130' = 'i'
  lower_kelvin : lower '\u212a' = 'k'
  ascii_of_lower : ∀ c, (lower c).toNat < 128 → c.toNat < 128 ∨ c = '\u0130' ∨ c = '\u212a'

/-- Two ASCII characters that `strings.EqualFold` takes for one letter in its two cases. -/
def casePair (a b : Char) : Bool :=
  let (lo, hi) := if b < a then (b, a) else (a, b)
  'A' ≤ lo && lo ≤ 'Z' && hi.toNat = lo.toNat + 32

/-- One round of the loop of `strings.EqualFold`. -/
def CaseTables.equalFoldChar (tables : CaseTables) (a b : Char) : Bool :=
  a = b || if a.toNat < 128 ∧ b.toNat < 128 then casePair a b else tables.sameFold a b

/-- The loop of `strings.EqualFold`. -/
def CaseTables.equalFoldChars (tables : CaseTables) : List Char → List Char → Bool
  | [], [] => true
  | a :: s, b :: t => tables.equalFoldChar a b && tables.equalFoldChars s t
  | _, _ => false

/-- `strings.EqualFold`. -/
def CaseTables.equalFold (tables : CaseTables) (s t : String) : Bool :=
  tables.equalFoldChars s.toList t.toList

variable {tables : CaseTables}

/-- An ASCII letter and its lower case are one letter. -/
theorem casePair_toLower (ascii : c.toNat < 128) (other : c ≠ c.toLower) :
    casePair c c.toLower = true := by
  have all : ∀ n : Fin 128, Char.ofNat n ≠ (Char.ofNat n).toLower →
      casePair (Char.ofNat n) (Char.ofNat n).toLower = true := by decide
  have known := all ⟨c.toNat, ascii⟩
  simp only [Char.ofNat_toNat] at known
  exact known other

/-- What goes to an ASCII letter in lower case is that letter, unless it is an i or a k. -/
theorem CaseTables.equalFoldChar_of_lower (same : tables.lower c = d) (ascii : d.toNat < 128)
    (notI : d ≠ 'i') (notK : d ≠ 'k') :
    tables.equalFoldChar c d = true := by
  unfold CaseTables.equalFoldChar
  rcases tables.ascii_of_lower c (same ▸ ascii) with low | rfl | rfl
  · rw [tables.lower_ascii c low] at same
    subst same
    by_cases equal : c = c.toLower
    · rw [decide_eq_true equal, Bool.true_or]
    · rw [if_pos ⟨low, ascii⟩, casePair_toLower low equal, Bool.or_true]
  · exact absurd (same.symm.trans tables.lower_dotted) notI
  · exact absurd (same.symm.trans tables.lower_kelvin) notK

/-- Text that is the same in lower case is the same to `EqualFold`, where it is ASCII
without an i or a k. -/
theorem CaseTables.equalFold_of_toLower (same : toLower tables.lower s = t)
    (plain : ∀ d ∈ t.toList, d.toNat < 128 ∧ d ≠ 'i' ∧ d ≠ 'k') : tables.equalFold s t = true := by
  subst same
  unfold CaseTables.equalFold
  unfold toLower at plain ⊢
  rw [String.toList_ofList] at plain ⊢
  generalize s.toList = chars at plain ⊢
  induction chars with
  | nil => rfl
  | cons c rest ih =>
    rw [List.map_cons] at plain
    obtain ⟨⟨ascii, notI, notK⟩, others⟩ := List.forall_mem_cons.mp plain
    rw [List.map_cons, CaseTables.equalFoldChars,
      CaseTables.equalFoldChar_of_lower rfl ascii notI notK, ih others]
    rfl

/-- `EqualFold` compares character by character. -/
theorem CaseTables.length_of_equalFold (equal : tables.equalFold s t = true) :
    s.toList.length = t.toList.length := by
  unfold CaseTables.equalFold at equal
  generalize s.toList = left at equal ⊢
  generalize t.toList = right at equal ⊢
  induction left generalizing right with
  | nil =>
    cases right with
    | nil => rfl
    | cons d right => cases equal
  | cons c left ih =>
    cases right with
    | nil => cases equal
    | cons d right =>
      rw [CaseTables.equalFoldChars, Bool.and_eq_true] at equal
      rw [List.length_cons, List.length_cons, ih right equal.2]

theorem toLower_length (lower : Char → Char) (s : String) :
    (toLower lower s).toList.length = s.toList.length := by
  rw [toLower, String.toList_ofList, List.length_map]

end GoText
