import WaOps.Lib.Doubles

namespace Lib.Strconv
open Lib.Js

def isHexDigit (c : Char) : Bool :=
  (digitsValue 16 [c]).isSome

/-- Each underscore stands between two digits. Whether a digit is before the text is given. -/
def underscoresApart (digit : Char → Bool) : Bool → List Char → Bool
  | _, [] => true
  | before, '_' :: cs => before && cs.head?.any digit && underscoresApart digit false cs
  | _, c :: cs => underscoresApart digit (digit c) cs

/-- The digits of a mantissa before and after its point, and what follows. -/
def mantissa (digit : Char → Bool) (cs : List Char) : List Char × List Char × List Char :=
  let rest := cs.dropWhile digit
  match rest with
  | '.' :: ds => (cs.takeWhile digit, ds.takeWhile digit, ds.dropWhile digit)
  | _ => (cs.takeWhile digit, [], rest)

/-- What follows the 0x; a hexadecimal number must have an exponent. -/
def hexadecimal (cs : List Char) : Option ℚ :=
  match mantissa isHexDigit cs with
  | (whole, fraction, 'p' :: ds) | (whole, fraction, 'P' :: ds) =>
    (digitsValue 16 (whole ++ fraction)).bind fun n =>
      (signedDigits ds).map fun e => (n : ℚ) * 2 ^ (e - 4 * (fraction.length : ℤ))
  | _ => none

/-- The number that a text without a sign states. -/
def magnitude (cs : List Char) : Option ℚ :=
  match cs with
  | '0' :: 'x' :: ds | '0' :: 'X' :: ds =>
    if underscoresApart isHexDigit true ds then hexadecimal (ds.filter (· ≠ '_')) else none
  | _ =>
    if underscoresApart Char.isDigit false cs then decimal (cs.filter (· ≠ '_')) else none

/-- The nearest double; a number beyond the greatest is out of range. -/
def inRange (q : ℚ) : Option Number :=
  match toDouble q with
  | .finite v => some (.finite v)
  | _ => none

def unsignedFloat (cs : List Char) : Option Number :=
  let word := cs.map Char.toLower
  if word = "inf".toList ∨ word = "infinity".toList then some (.infinite false)
  else (magnitude cs).bind inRange

/-- `strconv.ParseFloat(text, 64)`, none for an error. -/
def parseFloat (text : List Char) : Option Number :=
  if text.map Char.toLower = "nan".toList then some .nan
  else
    match text with
    | '-' :: cs => (unsignedFloat cs).map Number.neg
    | '+' :: cs => unsignedFloat cs
    | _ => unsignedFloat text

/-- Digits and points. -/
def Plain (cs : List Char) : Prop :=
  ∀ c ∈ cs, c.isDigit = true ∨ c = '.'

/-- The text of a number with two decimals. -/
def hundredths (whole part : ℕ) : List Char :=
  Nat.toDigits 10 whole ++ ['.', Nat.digitChar (part / 10), Nat.digitChar (part % 10)]

variable {cs : List Char} {q : ℚ} {m part : ℕ}

theorem toLower_plain {c : Char} (h : c.isDigit = true ∨ c = '.') : c.toLower = c := by
  rcases h with h | rfl
  · obtain ⟨hl, hu⟩ := isDigit_bounds h
    rw [← Char.ofNat_toNat c]
    generalize c.toNat = n at hl hu
    interval_cases n <;> rfl
  · rfl

theorem Plain.toLower (h : Plain cs) : cs.map Char.toLower = cs :=
  (List.map_congr_left fun c hc => toLower_plain (h c hc)).trans (List.map_id cs)

theorem Plain.tail {c : Char} (h : Plain (c :: cs)) : Plain cs :=
  fun d hd => h d (List.mem_cons_of_mem c hd)

theorem Plain.apart {digit : Char → Bool} {before : Bool} (h : Plain cs) :
    underscoresApart digit before cs = true := by
  induction cs generalizing before with
  | nil => rfl
  | cons c cs ih =>
    have hc : c ≠ '_' := by
      rintro rfl
      exact absurd (h '_' List.mem_cons_self) (by decide)
    unfold underscoresApart
    split
    · rfl
    · rename_i heq
      exact absurd (List.cons.inj heq).1 hc
    · rename_i heq
      cases heq
      exact ih h.tail

theorem Plain.filter (h : Plain cs) : cs.filter (· ≠ '_') = cs := by
  rw [List.filter_eq_self]
  intro c hc
  rcases h c hc with hd | rfl
  · rw [decide_eq_true_eq]
    rintro rfl
    exact absurd hd (by decide)
  · decide

theorem Plain.magnitude (h : Plain cs) : magnitude cs = decimal cs := by
  have hx : ∀ (c : Char) (ds : List Char), c = 'x' ∨ c = 'X' → cs ≠ '0' :: c :: ds := by
    rintro c ds hc rfl
    have hplain := h c (by simp)
    rcases hc with rfl | rfl <;> exact absurd hplain (by decide)
  unfold Strconv.magnitude
  split
  · exact absurd rfl (hx 'x' _ (.inl rfl))
  · exact absurd rfl (hx 'X' _ (.inr rfl))
  · rw [if_pos h.apart, h.filter]

/-- Digits with a point among them are read for the nearest double. -/
theorem parseFloat_plain (h : Plain cs) (hq : decimal cs = some q) {v : ℚ}
    (hv : toDouble q = .finite v) : parseFloat cs = some (.finite v) := by
  have hword : ∀ (c : Char) (ds : List Char), ¬(c.isDigit = true ∨ c = '.') → cs ≠ c :: ds := by
    rintro c ds hc rfl
    exact hc (h c List.mem_cons_self)
  have hunsigned : unsignedFloat cs = some (.finite v) := by
    have hspecial : ¬(cs.map Char.toLower = "inf".toList ∨
        cs.map Char.toLower = "infinity".toList) := by
      rw [h.toLower]
      rintro (heq | heq)
      · exact hword _ _ (by decide) heq
      · exact hword _ _ (by decide) heq
    rw [unsignedFloat]
    simp only [if_neg hspecial, h.magnitude, hq, Option.bind_some, inRange, hv]
  have hnan : cs.map Char.toLower ≠ "nan".toList := by
    rw [h.toLower]
    exact hword _ _ (by decide)
  unfold parseFloat
  rw [if_neg hnan]
  split
  · exact absurd rfl (hword '-' _ (by decide))
  · exact absurd rfl (hword '+' _ (by decide))
  · exact hunsigned

theorem toDouble_finite (hl : q = 0 ∨ (2 : ℚ) ^ (-1022 : ℤ) ≤ q) (hu : q < 2 ^ 1023) :
    ∃ v, toDouble q = .finite v := by
  rcases hl with rfl | hl
  · exact ⟨0, rfl⟩
  · obtain ⟨v, -, hv, -⟩ := toDouble_rounded hl hu
    exact ⟨v, hv⟩

/-- What is written of a natural number is read for the nearest double. -/
theorem parseFloat_digits (h : m < 2 ^ 64) :
    parseFloat (Nat.toDigits 10 m) = some (toDouble m) := by
  have hdigits := toDigits_isDigit m
  have hdecimal : decimal (Nat.toDigits 10 m) = some (m : ℚ) := by
    rw [decimal_digits hdigits, digitsValue_digits hdigits Nat.toDigits_ne_nil,
      Nat.ofDigitChars_ten_toDigits]
    rfl
  have hlow : (m : ℚ) = 0 ∨ (2 : ℚ) ^ (-1022 : ℤ) ≤ m := by
    rcases Nat.eq_zero_or_pos m with rfl | hm
    · exact .inl Nat.cast_zero
    · right
      calc (2 : ℚ) ^ (-1022 : ℤ) ≤ 2 ^ (0 : ℤ) := zpow_le_zpow_right₀ one_le_two (by omega)
        _ ≤ m := by
          rw [zpow_zero]
          exact_mod_cast hm
  have hhigh : (m : ℚ) < 2 ^ 1023 := by
    calc (m : ℚ) < 2 ^ 64 := by exact_mod_cast h
      _ ≤ 2 ^ 1023 := pow_le_pow_right₀ one_le_two (by omega)
  obtain ⟨v, hv⟩ := toDouble_finite hlow hhigh
  rw [hv]
  exact parseFloat_plain (fun c hc => .inl (hdigits c hc)) hdecimal hv

theorem digitChar_isDigit {d : ℕ} (h : d < 10) : (Nat.digitChar d).isDigit = true := by
  interval_cases d <;> rfl

theorem decimal_hundredths (h : part < 100) :
    decimal (hundredths m part) = some ((m : ℚ) + part / 100) := by
  have htens := digitChar_isDigit (show part / 10 < 10 by omega)
  have hones := digitChar_isDigit (show part % 10 < 10 by omega)
  have hdigits := toDigits_isDigit m
  have hpoint : Char.isDigit '.' = false := rfl
  have htake : (hundredths m part).takeWhile Char.isDigit = Nat.toDigits 10 m := by
    rw [hundredths, List.takeWhile_append_of_pos hdigits]
    simp [hpoint]
  have hdrop : (hundredths m part).dropWhile Char.isDigit =
      ['.', Nat.digitChar (part / 10), Nat.digitChar (part % 10)] := by
    rw [hundredths, List.dropWhile_append_of_pos hdigits]
    simp [hpoint]
  have hall : ∀ c ∈ Nat.toDigits 10 m ++ [Nat.digitChar (part / 10), Nat.digitChar (part % 10)],
      c.isDigit = true := by
    intro c hc
    rcases List.mem_append.mp hc with hc | hc
    · exact hdigits c hc
    · simp only [List.mem_cons, List.not_mem_nil, or_false] at hc
      rcases hc with rfl | rfl
      · exact htens
      · exact hones
  have hvalue : Nat.ofDigitChars 10
      (Nat.toDigits 10 m ++ [Nat.digitChar (part / 10), Nat.digitChar (part % 10)]) 0 =
        100 * m + part := by
    rw [Nat.ofDigitChars_append, Nat.ofDigitChars_ten_toDigits,
      Nat.ofDigitChars_cons_digitChar_of_lt_ten (by omega),
      Nat.ofDigitChars_cons_digitChar_of_lt_ten (by omega), Nat.ofDigitChars_nil]
    omega
  have hdigitsValue := digitsValue_digits hall (by simp)
  rw [hvalue] at hdigitsValue
  simp only [decimal, htake, hdrop, List.takeWhile_cons, htens, hones, if_true,
    List.takeWhile_nil, List.dropWhile_cons, List.dropWhile_nil, hdigitsValue, Option.bind_some,
    exponentPart, Option.map_some, List.length_cons, List.length_nil]
  congr 1
  push_cast
  norm_num
  ring

theorem hundredths_finite (h : m < 2 ^ 64) (hp : part < 100) :
    ∃ v, toDouble (m + part / 100) = .finite v := by
  have hm : (0 : ℚ) ≤ m := Nat.cast_nonneg m
  have hpart : (part : ℚ) < 100 := by exact_mod_cast hp
  have hlow : (m : ℚ) + part / 100 = 0 ∨ (2 : ℚ) ^ (-1022 : ℤ) ≤ m + part / 100 := by
    rcases Nat.eq_zero_or_pos (100 * m + part) with hzero | hpos
    · left
      have hmz : m = 0 := by omega
      have hpz : part = 0 := by omega
      simp [hmz, hpz]
    · right
      have hone : (1 : ℚ) ≤ 100 * m + part := by exact_mod_cast hpos
      calc (2 : ℚ) ^ (-1022 : ℤ) ≤ 2 ^ (-7 : ℤ) := zpow_le_zpow_right₀ one_le_two (by omega)
        _ ≤ 1 / 100 := by norm_num
        _ ≤ m + part / 100 := by linarith
  have hhigh : (m : ℚ) + part / 100 < 2 ^ 1023 := by
    have hlt : (m : ℚ) + 1 ≤ 2 ^ 64 := by exact_mod_cast h
    calc (m : ℚ) + part / 100 < m + 1 := by linarith
      _ ≤ 2 ^ 64 := hlt
      _ ≤ 2 ^ 1023 := pow_le_pow_right₀ one_le_two (by omega)
  exact toDouble_finite hlow hhigh

/-- And so is a number with two decimals. -/
theorem parseFloat_hundredths (h : m < 2 ^ 64) (hp : part < 100) :
    parseFloat (hundredths m part) = some (toDouble (m + part / 100)) := by
  have hplain : Plain (hundredths m part) := by
    intro c hc
    rcases List.mem_append.mp hc with hc | hc
    · exact .inl (toDigits_isDigit m c hc)
    · simp only [List.mem_cons, List.not_mem_nil, or_false] at hc
      rcases hc with rfl | rfl | rfl
      · exact .inr rfl
      · exact .inl (digitChar_isDigit (by omega))
      · exact .inl (digitChar_isDigit (by omega))
  obtain ⟨v, hv⟩ := hundredths_finite h hp
  rw [hv]
  exact parseFloat_plain hplain (decimal_hundredths hp) hv

example : parseFloat "-0x1.8p+1".toList = some (.finite (-3)) := by decide +kernel

end Lib.Strconv
