import Mathlib.Algebra.Order.Field.Rat
import Mathlib.Data.Int.Order.Basic
import Mathlib.Data.List.TakeWhile
import Mathlib.Data.Rat.Floor
import Mathlib.Tactic.Linarith
import WaOps.Lib.Js

namespace Lib.Js

/-- The nearest integer, and of two the even one. -/
def roundHalfEven (q : ℚ) : ℤ :=
  let low := ⌊q⌋
  if q - low < 1 / 2 then low
  else if 1 / 2 < q - low then low + 1
  else if low % 2 = 0 then low
  else low + 1

/-- The exponent of a positive number in binary. -/
def floorLog2 (q : ℚ) : ℤ :=
  let e : ℤ := q.num.natAbs.log2 - q.den.log2
  if q < 2 ^ e then e - 1 else e

/-- The nearest double: 53 significant bits, the last of them no lower than 2^-1074. -/
def toDouble (q : ℚ) : Number :=
  if q = 0 then .finite 0
  else
    let e := max (-1074) (floorLog2 |q| - 52)
    let v : ℚ := roundHalfEven (q / 2 ^ e) * 2 ^ e
    if 2 ^ 1024 ≤ |v| then .infinite (q < 0) else .finite v

def signedDigits : List Char → Option ℤ
  | '-' :: ds => (digitsValue 10 ds).map fun n => -(n : ℤ)
  | '+' :: ds => (digitsValue 10 ds).map Int.ofNat
  | ds => (digitsValue 10 ds).map Int.ofNat

def exponentPart : List Char → Option ℤ
  | [] => some 0
  | 'e' :: ds | 'E' :: ds => signedDigits ds
  | _ => none

/-- Digits with a point among them or not, and an exponent or not. -/
def decimal (cs : List Char) : Option ℚ :=
  let whole := cs.takeWhile Char.isDigit
  let rest := cs.dropWhile Char.isDigit
  let (fraction, tail) :=
    match rest with
    | '.' :: ds => (ds.takeWhile Char.isDigit, ds.dropWhile Char.isDigit)
    | _ => ([], rest)
  (digitsValue 10 (whole ++ fraction)).bind fun n =>
    (exponentPart tail).map fun e => (n : ℚ) * 10 ^ (e - (fraction.length : ℤ))

def unsignedNumber (cs : List Char) : Number :=
  if cs = "Infinity".toList then .infinite false
  else
    match decimal cs with
    | some q => toDouble q
    | none => .nan

def radixNumber (base : ℕ) (ds : List Char) : Number :=
  match digitsValue base ds with
  | some n => toDouble n
  | none => .nan

def Number.neg : Number → Number
  | .nan => .nan
  | .infinite negative => .infinite !negative
  | .finite value => .finite (-value)

/-- `Number(text)` -/
def number (text : String) : Number :=
  match trim text.toList with
  | [] => .finite 0
  | '0' :: 'x' :: ds | '0' :: 'X' :: ds => radixNumber 16 ds
  | '0' :: 'o' :: ds | '0' :: 'O' :: ds => radixNumber 8 ds
  | '0' :: 'b' :: ds | '0' :: 'B' :: ds => radixNumber 2 ds
  | '-' :: ds => (unsignedNumber ds).neg
  | '+' :: ds => unsignedNumber ds
  | ds => unsignedNumber ds

/-- The value if `Number.isInteger` holds of it. -/
def Number.integer : Number → Option ℤ
  | .finite value => if value.den = 1 then some value.num else none
  | _ => none

/-- `String(n)` and `n.toString()` of an integer below 10^21. -/
def integerText (n : ℤ) : String :=
  match n with
  | .ofNat m => toString m
  | .negSucc m => "-" ++ toString (m + 1)

variable {n : ℤ} {m : ℕ} {cs ds : List Char}

@[simp] theorem integer_int (n : ℤ) : (Number.finite n).integer = some n := by
  simp [Number.integer]

theorem integer_iff {v : Number} : v.integer = some n ↔ v = .finite n := by
  cases v with
  | finite q =>
    simp only [Number.integer, Number.finite.injEq]
    split
    · rename_i h
      rw [Option.some.injEq]
      constructor
      · rintro rfl
        exact (Rat.coe_int_num_of_den_eq_one h).symm
      · rintro rfl
        rfl
    · rename_i h
      simp only [reduceCtorEq, false_iff]
      rintro rfl
      exact h rfl
  | nan => simp [Number.integer]
  | infinite => simp [Number.integer]

theorem roundHalfEven_int (n : ℤ) : roundHalfEven n = n := by
  simp [roundHalfEven]

theorem floorLog2_le (hn : m ≠ 0) (h : m < 2 ^ 53) : floorLog2 m ≤ 52 := by
  have hlog : m.log2 < 53 := (Nat.log2_lt hn).mpr h
  have hone : Nat.log2 1 = 0 := by decide
  simp only [floorLog2, Rat.num_natCast, Int.natAbs_natCast, Rat.den_natCast, hone]
  split_ifs <;> omega

/-- An integer of at most 53 bits is a double. -/
theorem toDouble_int (h : n.natAbs < 2 ^ 53) : toDouble n = .finite n := by
  by_cases hn : n = 0
  · rw [hn]
    rfl
  have habs : |(n : ℚ)| = (n.natAbs : ℚ) := by
    rw [Nat.cast_natAbs, Int.cast_abs]
  have hlog : floorLog2 |(n : ℚ)| ≤ 52 := by
    rw [habs]
    exact floorLog2_le (Int.natAbs_ne_zero.mpr hn) h
  obtain ⟨k, hk⟩ : ∃ k : ℕ, max (-1074) (floorLog2 |(n : ℚ)| - 52) = -(k : ℤ) :=
    ⟨(-max (-1074) (floorLog2 |(n : ℚ)| - 52)).toNat, by omega⟩
  have hpow : (2 : ℚ) ^ k ≠ 0 := pow_ne_zero k (by norm_num)
  have hscaled : (n : ℚ) / 2 ^ (-(k : ℤ)) = ((n * 2 ^ k : ℤ) : ℚ) := by
    rw [zpow_neg, zpow_natCast, div_inv_eq_mul]
    push_cast
    rfl
  have hback : ((n * 2 ^ k : ℤ) : ℚ) * 2 ^ (-(k : ℤ)) = n := by
    rw [zpow_neg, zpow_natCast]
    push_cast
    rw [mul_assoc, mul_inv_cancel₀ hpow, mul_one]
  have hsmall : ¬(2 : ℚ) ^ 1024 ≤ |(n : ℚ)| := by
    rw [not_le, habs]
    calc (n.natAbs : ℚ) < 2 ^ 53 := by exact_mod_cast h
      _ ≤ 2 ^ 1024 := pow_le_pow_right₀ one_le_two (by omega)
  simp only [toDouble, Int.cast_eq_zero, hn, if_false, hk, hscaled, roundHalfEven_int, hback,
    hsmall]

theorem decimal_digits (h : ∀ c ∈ cs, c.isDigit = true) :
    decimal cs = (digitsValue 10 cs).map fun n => (n : ℚ) := by
  have htake : cs.takeWhile Char.isDigit = cs := List.takeWhile_eq_self_iff.mpr h
  have hdrop : cs.dropWhile Char.isDigit = [] := List.dropWhile_eq_nil_iff.mpr h
  cases hv : digitsValue 10 cs <;> simp [decimal, htake, hdrop, exponentPart, hv]

theorem toDigits_isDigit (m : ℕ) : ∀ c ∈ Nat.toDigits 10 m, c.isDigit = true :=
  fun _ hc => Nat.isDigit_of_mem_toDigits (by decide) (by decide) hc

/-- Digits are read for the double nearest to their number. -/
theorem unsignedNumber_digits (h : ∀ c ∈ cs, c.isDigit = true) (hne : cs ≠ []) :
    unsignedNumber cs = toDouble (Nat.ofDigitChars 10 cs 0) := by
  have hword : cs ≠ "Infinity".toList := by
    intro heq
    have hi := h 'I' (heq ▸ by decide)
    exact absurd hi (by decide)
  rw [unsignedNumber, if_neg hword, decimal_digits h, digitsValue_digits h hne]
  rfl

theorem unsignedNumber_toDigits (h : m < 2 ^ 53) :
    unsignedNumber (Nat.toDigits 10 m) = .finite m := by
  have hdouble := toDouble_int (n := m) (by simpa using h)
  rw [unsignedNumber_digits (toDigits_isDigit m) Nat.toDigits_ne_nil,
    Nat.ofDigitChars_ten_toDigits]
  simpa using hdouble

theorem number_digits (h : ∀ c ∈ cs, c.isDigit = true) (hne : cs ≠ []) :
    number (String.ofList cs) = toDouble (Nat.ofDigitChars 10 cs 0) := by
  have hread := unsignedNumber_digits h hne
  unfold number
  rw [String.toList_ofList, trim_digits h]
  split
  · exact absurd rfl hne
  -- No digit is a sign or marks a base.
  all_goals try simp at h
  exact hread

theorem integerText_ofNat (m : ℕ) : (integerText (.ofNat m)).toList = Nat.toDigits 10 m :=
  Nat.toList_repr

theorem integerText_negSucc (m : ℕ) :
    (integerText (.negSucc m)).toList = '-' :: Nat.toDigits 10 (m + 1) := by
  rw [integerText, String.toList_append]
  exact congrArg ('-' :: ·) Nat.toList_repr

theorem integerText_chars (n : ℤ) :
    ∀ c ∈ (integerText n).toList, c = '-' ∨ c.isDigit = true := by
  intro c hc
  cases n with
  | ofNat m =>
    rw [integerText_ofNat] at hc
    exact .inr (toDigits_isDigit m c hc)
  | negSucc m =>
    rw [integerText_negSucc, List.mem_cons] at hc
    exact hc.imp_right (toDigits_isDigit (m + 1) c)

theorem toDigits_inj {m k : ℕ} (h : Nat.toDigits 10 m = Nat.toDigits 10 k) : m = k := by
  rw [← Nat.ofDigitChars_ten_toDigits (n := m), h, Nat.ofDigitChars_ten_toDigits]

theorem integerText_inj {k : ℤ} (h : integerText n = integerText k) : n = k := by
  -- A text that starts with a sign is no text of digits.
  have hsign : ∀ m k : ℕ, Nat.toDigits 10 m ≠ '-' :: Nat.toDigits 10 k := by
    intro m k heq
    have hminus := toDigits_isDigit m '-' (heq ▸ List.mem_cons_self)
    exact absurd hminus (by decide)
  have hchars := congrArg String.toList h
  cases n with
  | ofNat m =>
    cases k with
    | ofNat k =>
      rw [integerText_ofNat, integerText_ofNat] at hchars
      rw [toDigits_inj hchars]
    | negSucc k =>
      rw [integerText_ofNat, integerText_negSucc] at hchars
      exact absurd hchars (hsign m (k + 1))
  | negSucc m =>
    cases k with
    | ofNat k =>
      rw [integerText_ofNat, integerText_negSucc] at hchars
      exact absurd hchars.symm (hsign k (m + 1))
    | negSucc k =>
      rw [integerText_negSucc, integerText_negSucc, List.cons_inj_right] at hchars
      rw [Nat.succ.inj (toDigits_inj hchars)]

/-- The digits of a number and a sign. -/
theorem integerText_length {k : ℕ} (hk : 0 < k) (h : n.natAbs < 10 ^ k) :
    (integerText n).toList.length ≤ k + 1 := by
  cases n with
  | ofNat m =>
    rw [integerText_ofNat]
    exact ((Nat.length_toDigits_le_iff (by omega) hk).mpr h).trans (Nat.le_succ k)
  | negSucc m =>
    rw [integerText_negSucc, List.length_cons]
    exact Nat.succ_le_succ ((Nat.length_toDigits_le_iff (by omega) hk).mpr h)

theorem integerText_trim (n : ℤ) : trim (integerText n).toList = (integerText n).toList := by
  apply trim_eq_self
  intro c hc
  rcases integerText_chars n c hc with rfl | hc
  · decide
  · exact isSpace_digit hc

/-- What String(n) writes of a natural number, Number reads for the double nearest to it. -/
theorem number_natText (m : ℕ) : number (integerText (.ofNat m)) = toDouble m := by
  have hread := number_digits (toDigits_isDigit m) Nat.toDigits_ne_nil
  rw [← integerText_ofNat, String.ofList_toList, integerText_ofNat,
    Nat.ofDigitChars_ten_toDigits] at hread
  exact hread

/-- What String(n) writes of an integer of at most 53 bits, Number reads. -/
theorem number_integerText (h : n.natAbs < 2 ^ 53) : number (integerText n) = .finite n := by
  cases n with
  | ofNat m =>
    have hdouble := toDouble_int h
    exact (number_natText m).trans (by simpa using hdouble)
  | negSucc m =>
    have hread := unsignedNumber_toDigits (m := m + 1) h
    unfold number
    rw [integerText_trim, integerText_negSucc]
    simp only [hread, Number.neg]
    simp [Int.negSucc_eq]

end Lib.Js
