import Mathlib.Algebra.Order.Field.Power
import WaOps.Lib.JsNumber

namespace Lib.Js

/-- `a + b` -/
def Number.add : Number → Number → Number
  | .nan, _ | _, .nan => .nan
  | .finite a, .finite b => toDouble (a + b)
  | .infinite a, .infinite b => if a = b then .infinite a else .nan
  | .infinite a, .finite _ | .finite _, .infinite a => .infinite a

/-- `a - b` -/
def Number.sub : Number → Number → Number
  | .nan, _ | _, .nan => .nan
  | .finite a, .finite b => toDouble (a - b)
  | .infinite a, .infinite b => if a = b then .nan else .infinite a
  | .infinite a, .finite _ => .infinite a
  | .finite _, .infinite b => .infinite !b

/-- `a * b` -/
def Number.mul : Number → Number → Number
  | .nan, _ | _, .nan => .nan
  | .finite a, .finite b => toDouble (a * b)
  | .infinite a, .infinite b => .infinite (a != b)
  | .infinite a, .finite b | .finite b, .infinite a =>
    if b = 0 then .nan else .infinite (a != decide (b < 0))

/-- `a / b`; a zero counts as positive. -/
def Number.div : Number → Number → Number
  | .nan, _ | _, .nan => .nan
  | .finite a, .finite b =>
    if b ≠ 0 then toDouble (a / b)
    else if a = 0 then .nan
    else .infinite (a < 0)
  | .infinite a, .finite b => .infinite (if b < 0 then !a else a)
  | .finite _, .infinite _ => .finite 0
  | .infinite _, .infinite _ => .nan

def Number.floor : Number → Number
  | .finite a => .finite ⌊a⌋
  | a => a

def Number.ceil : Number → Number
  | .finite a => .finite ⌈a⌉
  | a => a

/-- `Math.round`: of two nearest integers the greater. -/
def Number.round : Number → Number
  | .finite a => .finite ⌊a + 1 / 2⌋
  | a => a

def Number.max (a b : Number) : Number :=
  if a = .nan ∨ b = .nan then .nan else if a.lt b then b else a

def Number.min (a b : Number) : Number :=
  if a = .nan ∨ b = .nan then .nan else if b.lt a then b else a

/-- The time value of `new Date(n)`, none where the date is invalid. -/
def Number.timeClip : Number → Option ℤ
  | .finite a =>
    if |a| ≤ 8640000000000000 then some (if 0 ≤ a then ⌊a⌋ else ⌈a⌉) else none
  | _ => none

variable {q : ℚ} {m n d : ℤ} {k : ℕ}

@[simp] theorem ge_int : (Number.finite m).ge (.finite n) = true ↔ n ≤ m := by
  simp [Number.ge, Number.lt]

@[simp] theorem max_int :
    (Number.finite m).max (.finite n) = .finite ((max m n : ℤ) : ℚ) := by
  simp only [Number.max, Number.lt, reduceCtorEq, or_self, if_false, decide_eq_true_eq,
    Int.cast_lt]
  split_ifs with h
  · rw [max_eq_right h.le]
  · rw [max_eq_left (not_lt.mp h)]

@[simp] theorem min_int :
    (Number.finite m).min (.finite n) = .finite ((min m n : ℤ) : ℚ) := by
  simp only [Number.min, Number.lt, reduceCtorEq, or_self, if_false, decide_eq_true_eq,
    Int.cast_lt]
  split_ifs with h
  · rw [min_eq_right h.le]
  · rw [min_eq_left (not_lt.mp h)]

@[simp] theorem timeClip_int : (Number.finite n).timeClip =
    if -8640000000000000 ≤ n ∧ n ≤ 8640000000000000 then some n else none := by
  simp only [Number.timeClip, Int.floor_intCast, Int.ceil_intCast, ite_self, abs_le]
  norm_cast

theorem add_int (h : (m + n).natAbs < 2 ^ 53) :
    (Number.finite m).add (.finite n) = .finite (m + n : ℤ) := by
  rw [Number.add, ← Int.cast_add, toDouble_int h]

theorem mul_int (h : (m * n).natAbs < 2 ^ 53) :
    (Number.finite m).mul (.finite n) = .finite (m * n : ℤ) := by
  rw [Number.mul, ← Int.cast_mul, toDouble_int h]

theorem sub_int (h : (m - n).natAbs < 2 ^ 53) :
    (Number.finite m).sub (.finite n) = .finite (m - n : ℤ) := by
  rw [Number.sub, ← Int.cast_sub, toDouble_int h]

theorem div_int (h : n ≠ 0) : (Number.finite m).div (.finite n) = toDouble (m / n) := by
  rw [Number.div, if_pos (by exact_mod_cast h)]

theorem roundHalfEven_cases (q : ℚ) : roundHalfEven q = ⌊q⌋ ∧ q - ⌊q⌋ ≤ 1 / 2 ∨
    roundHalfEven q = ⌊q⌋ + 1 ∧ 1 / 2 ≤ q - ⌊q⌋ := by
  unfold roundHalfEven
  dsimp only
  split_ifs with hlow hhigh heven
  · exact .inl ⟨rfl, hlow.le⟩
  · exact .inr ⟨rfl, hhigh.le⟩
  · exact .inl ⟨rfl, not_lt.mp hhigh⟩
  · exact .inr ⟨rfl, not_lt.mp hlow⟩

theorem roundHalfEven_near (q : ℚ) : |(roundHalfEven q : ℚ) - q| ≤ 1 / 2 := by
  have hle := Int.floor_le q
  have hlt := Int.lt_floor_add_one q
  rw [abs_le]
  rcases roundHalfEven_cases q with ⟨h, hq⟩ | ⟨h, hq⟩
  · rw [h]
    constructor <;> linarith
  · rw [h]
    push_cast
    constructor <;> linarith

theorem le_roundHalfEven (h : (m : ℚ) ≤ q) : m ≤ roundHalfEven q := by
  have hm := Int.le_floor.mpr h
  rcases roundHalfEven_cases q with ⟨h, -⟩ | ⟨h, -⟩ <;> omega

theorem roundHalfEven_le (h : q ≤ m) : roundHalfEven q ≤ m := by
  have hm : ⌊q⌋ ≤ m := Int.floor_le_iff.mpr (by linarith)
  rcases roundHalfEven_cases q with ⟨hr, -⟩ | ⟨hr, hq⟩
  · omega
  · have hlt : ⌊q⌋ < m := by
      have : (⌊q⌋ : ℚ) < m := by linarith
      exact_mod_cast this
    omega

theorem log2_bounds {a : ℕ} (ha : a ≠ 0) :
    (2 : ℚ) ^ (a.log2 : ℤ) ≤ a ∧ (a : ℚ) < 2 ^ ((a.log2 : ℤ) + 1) := by
  have hle := Nat.log2_self_le ha
  have hlt := Nat.lt_log2_self (n := a)
  constructor
  · rw [zpow_natCast]
    exact_mod_cast hle
  · have hcast : (a : ℚ) < 2 ^ (a.log2 + 1) := by exact_mod_cast hlt
    rw [← Nat.cast_succ, zpow_natCast]
    exact hcast

theorem floorLog2_spec (hq : 0 < q) :
    (2 : ℚ) ^ floorLog2 q ≤ q ∧ q < (2 : ℚ) ^ (floorLog2 q + 1) := by
  have hnum : q.num.natAbs ≠ 0 := Int.natAbs_ne_zero.mpr (Rat.num_pos.mpr hq).ne'
  obtain ⟨hnl, hnu⟩ := log2_bounds hnum
  obtain ⟨hdl, hdu⟩ := log2_bounds q.den_ne_zero
  have hden : (0 : ℚ) < q.den := by exact_mod_cast q.den_pos
  have hqeq : q * q.den = q.num.natAbs := by
    rw [Rat.mul_den_eq_num, Nat.cast_natAbs, abs_of_pos (Rat.num_pos.mpr hq)]
  have hlower : (2 : ℚ) ^ ((q.num.natAbs.log2 : ℤ) - q.den.log2 - 1) < q := by
    rw [← mul_lt_mul_iff_left₀ hden, hqeq]
    calc (2 : ℚ) ^ ((q.num.natAbs.log2 : ℤ) - q.den.log2 - 1) * q.den
        < 2 ^ ((q.num.natAbs.log2 : ℤ) - q.den.log2 - 1) * 2 ^ ((q.den.log2 : ℤ) + 1) := by
          gcongr
      _ = 2 ^ (q.num.natAbs.log2 : ℤ) := by
          rw [← zpow_add₀ two_ne_zero]
          congr 1
          ring
      _ ≤ q.num.natAbs := hnl
  have hupper : q < (2 : ℚ) ^ ((q.num.natAbs.log2 : ℤ) - q.den.log2 + 1) := by
    rw [← mul_lt_mul_iff_left₀ hden, hqeq]
    calc (q.num.natAbs : ℚ) < 2 ^ ((q.num.natAbs.log2 : ℤ) + 1) := hnu
      _ = 2 ^ ((q.num.natAbs.log2 : ℤ) - q.den.log2 + 1) * 2 ^ (q.den.log2 : ℤ) := by
          rw [← zpow_add₀ two_ne_zero]
          congr 1
          ring
      _ ≤ 2 ^ ((q.num.natAbs.log2 : ℤ) - q.den.log2 + 1) * q.den := by gcongr
  unfold floorLog2
  dsimp only
  split_ifs with h
  · exact ⟨hlower.le, by rwa [sub_add_cancel]⟩
  · exact ⟨not_lt.mp h, hupper⟩

/-- A number of at least 1 is not rounded to 0. -/
theorem toDouble_ne_zero (h : 1 ≤ q) : toDouble q ≠ .finite 0 := by
  have hpos : 0 < q := lt_of_lt_of_le one_pos h
  have hbit : (2 : ℚ) ^ floorLog2 q ≤ q := (floorLog2_spec hpos).1
  have hlog : -1 < floorLog2 q := by
    have hlt : (2 : ℚ) ^ (0 : ℤ) < 2 ^ (floorLog2 q + 1) := by
      rw [zpow_zero]
      exact lt_of_le_of_lt h (floorLog2_spec hpos).2
    have hexp := (zpow_lt_zpow_iff_right₀ (a := (2 : ℚ)) one_lt_two).mp hlt
    omega
  have hexp : max (-1074) (floorLog2 |q| - 52) = floorLog2 q - 52 := by
    rw [abs_of_pos hpos]
    omega
  have hgrid : (0 : ℚ) < 2 ^ (floorLog2 q - 52) := by positivity
  have hscaled : ((1 : ℤ) : ℚ) ≤ q / 2 ^ (floorLog2 q - 52) := by
    rw [le_div_iff₀ hgrid, Int.cast_one, one_mul]
    exact le_trans (zpow_le_zpow_right₀ one_le_two (by omega)) hbit
  have hrounded : (1 : ℚ) ≤ roundHalfEven (q / 2 ^ (floorLog2 q - 52)) := by
    exact_mod_cast le_roundHalfEven hscaled
  simp only [toDouble, hpos.ne', if_false, hexp]
  split
  · simp
  · rw [Ne, Number.finite.injEq]
    positivity

/-- Rounding keeps the sign. -/
theorem toDouble_nonneg {v : ℚ} (h : 0 ≤ q) (hv : toDouble q = .finite v) : 0 ≤ v := by
  by_cases hq : q = 0
  · subst hq
    cases hv
    exact le_rfl
  · simp only [toDouble, hq, if_false] at hv
    split at hv
    · cases hv
    · cases hv
      have hgrid : (0 : ℚ) ≤ 2 ^ max (-1074) (floorLog2 |q| - 52) := by positivity
      have hscaled : ((0 : ℤ) : ℚ) ≤ q / 2 ^ max (-1074) (floorLog2 |q| - 52) := by
        rw [Int.cast_zero]
        exact div_nonneg h hgrid
      have hround : (0 : ℚ) ≤ roundHalfEven (q / 2 ^ max (-1074) (floorLog2 |q| - 52)) := by
        exact_mod_cast le_roundHalfEven hscaled
      exact mul_nonneg hround hgrid

/-- A double next to a number, on a grid of powers of two finer than 2^-52 of it. -/
structure Rounded (q v : ℚ) (e : ℤ) : Prop where
  near : |v - q| ≤ 2 ^ e / 2
  fine : (2 : ℚ) ^ (e + 52) ≤ q
  le : ∀ m : ℤ, q ≤ m * 2 ^ e → v ≤ m * 2 ^ e
  ge : ∀ m : ℤ, (m : ℚ) * 2 ^ e ≤ q → (m : ℚ) * 2 ^ e ≤ v

theorem toDouble_rounded (hl : (2 : ℚ) ^ (-1022 : ℤ) ≤ q) (hu : q < 2 ^ 1023) :
    ∃ v e, toDouble q = .finite v ∧ Rounded q v e := by
  have hq : 0 < q := lt_of_lt_of_le (by positivity) hl
  obtain ⟨hfine, hcoarse⟩ := floorLog2_spec hq
  have hlog : -1022 ≤ floorLog2 q := by
    have hlt := lt_of_le_of_lt hl hcoarse
    rw [zpow_lt_zpow_iff_right₀ one_lt_two] at hlt
    omega
  set e := floorLog2 q - 52 with he
  have hmax : max (-1074) (floorLog2 |q| - 52) = e := by
    rw [abs_of_pos hq]
    omega
  have hpow : (0 : ℚ) < 2 ^ e := by positivity
  have hround : Rounded q (roundHalfEven (q / 2 ^ e) * 2 ^ e) e := by
    refine ⟨?_, ?_, ?_, ?_⟩
    · have hnear := roundHalfEven_near (q / 2 ^ e)
      have hsplit : (roundHalfEven (q / 2 ^ e) : ℚ) * 2 ^ e - q =
          (roundHalfEven (q / 2 ^ e) - q / 2 ^ e) * 2 ^ e := by
        rw [sub_mul, div_mul_cancel₀ _ hpow.ne']
      rw [hsplit, abs_mul, abs_of_pos hpow]
      calc |(roundHalfEven (q / 2 ^ e) : ℚ) - q / 2 ^ e| * 2 ^ e ≤ 1 / 2 * 2 ^ e := by gcongr
        _ = 2 ^ e / 2 := by ring
    · rwa [he, sub_add_cancel]
    · intro m hm
      have hle := roundHalfEven_le ((div_le_iff₀ hpow).mpr hm)
      gcongr
    · intro m hm
      have hge := le_roundHalfEven ((le_div_iff₀ hpow).mpr hm)
      gcongr
  refine ⟨_, e, ?_, hround⟩
  have hsmall : |(roundHalfEven (q / 2 ^ e) : ℚ) * 2 ^ e| < 2 ^ 1024 := by
    obtain ⟨hnl, hnu⟩ := abs_le.mp hround.near
    have hstep : (2 : ℚ) ^ e ≤ 2 ^ (e + 52) := zpow_le_zpow_right₀ one_le_two (by omega)
    have hle := hstep.trans hround.fine
    rw [abs_lt, pow_succ]
    generalize (2 : ℚ) ^ 1023 = bound at hu
    constructor <;> linarith
  simp only [toDouble, hq.ne', if_false, hmax, not_le.mpr hsmall]

theorem on_grid (m : ℤ) {e : ℤ} (he : e ≤ 0) : ∃ m' : ℤ, (m : ℚ) = m' * 2 ^ e := by
  refine ⟨m * 2 ^ (-e).toNat, ?_⟩
  have hexp : ((-e).toNat : ℤ) = -e := Int.toNat_of_nonneg (by omega)
  push_cast
  rw [mul_assoc, ← zpow_natCast, hexp, ← zpow_add₀ two_ne_zero, neg_add_cancel, zpow_zero, mul_one]

/-- A quotient of integers of at most 53 bits is rounded by less than one part of it. -/
theorem quotient_rounded (hn : 0 < n) (hn' : n < 2 ^ 53) (hd : 0 < d) (hd' : d < 2 ^ 53) :
    ∃ v e, toDouble (n / d) = .finite v ∧ Rounded (n / d) v e ∧ |v - n / d| < 1 / d := by
  have hnq : (1 : ℚ) ≤ n := by exact_mod_cast hn
  have hnq' : (n : ℚ) < 2 ^ 53 := by exact_mod_cast hn'
  have hdq : (1 : ℚ) ≤ d := by exact_mod_cast hd
  have hdq' : (d : ℚ) < 2 ^ 53 := by exact_mod_cast hd'
  have hdpos : (0 : ℚ) < d := by linarith
  have hl : (2 : ℚ) ^ (-1022 : ℤ) ≤ n / d := by
    calc (2 : ℚ) ^ (-1022 : ℤ) ≤ 2 ^ (-53 : ℤ) := zpow_le_zpow_right₀ one_le_two (by omega)
      _ ≤ 1 / d := by
        rw [zpow_neg, ← one_div]
        exact one_div_le_one_div_of_le hdpos hdq'.le
      _ ≤ n / d := by gcongr
  have hu : (n : ℚ) / d < 2 ^ 1023 := by
    calc (n : ℚ) / d ≤ n := div_le_self (by linarith) hdq
      _ < 2 ^ 53 := hnq'
      _ ≤ 2 ^ 1023 := pow_le_pow_right₀ one_le_two (by omega)
  obtain ⟨v, e, hv, hround⟩ := toDouble_rounded hl hu
  refine ⟨v, e, hv, hround, lt_of_le_of_lt hround.near ?_⟩
  have hfine := hround.fine
  rw [le_div_iff₀ hdpos, zpow_add₀ two_ne_zero] at hfine
  rw [lt_div_iff₀ hdpos]
  have hbits : (2 : ℚ) ^ (52 : ℤ) * 2 = 2 ^ 53 := by norm_num
  nlinarith

/-- The parts of a whole that a quotient lies between, its rounding lies between. -/
theorem rounded_parts {v : ℚ} (hd : 0 < d) (h : |v - n / d| < 1 / d) :
    (n < m → v < m / d) ∧ (m < n → (m : ℚ) / d < v) := by
  have hdpos : (0 : ℚ) < d := by exact_mod_cast hd
  obtain ⟨hl, hu⟩ := abs_lt.mp h
  constructor
  · intro hm
    have hle : (n : ℚ) + 1 ≤ m := by exact_mod_cast hm
    have hstep : (n : ℚ) / d + 1 / d ≤ m / d := by
      rw [← add_div]
      gcongr
    linarith
  · intro hm
    have hle : (m : ℚ) + 1 ≤ n := by exact_mod_cast hm
    have hstep : (m : ℚ) / d + 1 / d ≤ n / d := by
      rw [← add_div]
      gcongr
    linarith

theorem rounded_fine {v : ℚ} {e : ℤ} (h : Rounded q v e) (hq : q < 2 ^ k) : e < k - 52 := by
  have hlt := lt_of_le_of_lt h.fine hq
  rw [← zpow_natCast, zpow_lt_zpow_iff_right₀ one_lt_two] at hlt
  omega

theorem quotient_small (hn : 0 < n) (hn' : n < 2 ^ 53) (hd : 0 < d) : (n : ℚ) / d < 2 ^ 53 := by
  have hnq : (0 : ℚ) ≤ n := by exact_mod_cast hn.le
  have hnq' : (n : ℚ) < 2 ^ 53 := by exact_mod_cast hn'
  have hdq : (1 : ℚ) ≤ d := by exact_mod_cast hd
  exact lt_of_le_of_lt (div_le_self hnq hdq) hnq'

/-- Rounding a quotient first does not change its floor. -/
theorem floor_quotient (hn : 0 < n) (hn' : n < 2 ^ 53) (hd : 0 < d) (hd' : d < 2 ^ 53) :
    (toDouble (n / d)).floor = .finite (n / d : ℤ) := by
  obtain ⟨v, e, hv, hround, hnear⟩ := quotient_rounded hn hn' hd hd'
  have hdpos : (0 : ℚ) < d := by exact_mod_cast hd
  have he := rounded_fine hround (quotient_small hn hn' hd)
  have hfloor : ⌊v⌋ = n / d := by
    rw [Int.floor_eq_iff]
    constructor
    · obtain ⟨m', hm'⟩ := on_grid (n / d) (by omega : e ≤ 0)
      rw [hm']
      apply hround.ge
      rw [← hm', le_div_iff₀ hdpos]
      exact_mod_cast Int.ediv_mul_le n hd.ne'
    · have hlt := (rounded_parts (m := (n / d + 1) * d) hd hnear).1
        (Int.lt_ediv_add_one_mul_self n hd)
      rw [Int.cast_mul, mul_div_cancel_right₀ _ hdpos.ne'] at hlt
      exact_mod_cast hlt
  rw [hv, Number.floor, hfloor]

/-- Nor its ceiling. -/
theorem ceil_quotient (hn : 0 < n) (hn' : n < 2 ^ 53) (hd : 0 < d) (hd' : d < 2 ^ 53) :
    (toDouble (n / d)).ceil = .finite ((n + d - 1) / d : ℤ) := by
  obtain ⟨v, e, hv, hround, hnear⟩ := quotient_rounded hn hn' hd hd'
  have hdpos : (0 : ℚ) < d := by exact_mod_cast hd
  have he := rounded_fine hround (quotient_small hn hn' hd)
  have hdiv := Int.mul_ediv_add_emod (n + d - 1) d
  have hmod := Int.emod_nonneg (n + d - 1) hd.ne'
  have hmod' := Int.emod_lt_of_pos (n + d - 1) hd
  have hceil : ⌈v⌉ = (n + d - 1) / d := by
    rw [Int.ceil_eq_iff]
    constructor
    · have hlt := (rounded_parts (m := ((n + d - 1) / d - 1) * d) hd hnear).2
        (by linarith [mul_comm d ((n + d - 1) / d)])
      rw [Int.cast_mul, mul_div_cancel_right₀ _ hdpos.ne'] at hlt
      exact_mod_cast hlt
    · obtain ⟨m', hm'⟩ := on_grid ((n + d - 1) / d) (by omega : e ≤ 0)
      rw [hm']
      apply hround.le
      rw [← hm', div_le_iff₀ hdpos]
      have hle : n ≤ (n + d - 1) / d * d := by linarith [mul_comm d ((n + d - 1) / d)]
      exact_mod_cast hle
  rw [hv, Number.ceil, hceil]

/-- Nor the integer it is rounded to, where the whole has two equal parts. -/
theorem round_quotient (hn : 0 < n) (hn' : n < 2 ^ 53) (hd : 0 < d) (hd' : 2 * d < 2 ^ 53) :
    (toDouble (n / (2 * d : ℤ))).round = .finite ((n + d) / (2 * d) : ℤ) := by
  have hd₂ : 0 < 2 * d := by omega
  obtain ⟨v, e, hv, hround, hnear⟩ := quotient_rounded hn hn' hd₂ hd'
  have hdpos : (0 : ℚ) < d := by exact_mod_cast hd
  have hsmall : (n : ℚ) / (2 * d : ℤ) < 2 ^ 52 := by
    have hle : (n : ℚ) / d < 2 ^ 53 := quotient_small hn hn' hd
    push_cast
    rw [mul_comm, ← div_div]
    linarith
  have he := rounded_fine hround hsmall
  have hhalf : ∀ m : ℤ, ((m * d : ℤ) : ℚ) / (2 * d : ℤ) = m / 2 := by
    intro m
    push_cast
    rw [mul_div_mul_right _ _ hdpos.ne']
  have hdiv := Int.mul_ediv_add_emod (n + d) (2 * d)
  have hmod := Int.emod_nonneg (n + d) hd₂.ne'
  have hmod' := Int.emod_lt_of_pos (n + d) hd₂
  have hfloor : ⌊v + 1 / 2⌋ = (n + d) / (2 * d) := by
    set m := (n + d) / (2 * d) with hm
    rw [Int.floor_eq_iff]
    constructor
    · obtain ⟨m', hm'⟩ := on_grid (2 * m - 1) (by omega : e + 1 ≤ 0)
      have hgrid : ((2 * m - 1 : ℤ) : ℚ) / 2 = m' * 2 ^ e := by
        rw [hm', zpow_add_one₀ two_ne_zero]
        ring
      have hle : ((2 * m - 1 : ℤ) : ℚ) / 2 ≤ n / (2 * d : ℤ) := by
        rw [← hhalf]
        gcongr
        linarith [mul_comm d m]
      rw [hgrid] at hle
      have hv := hround.ge m' hle
      rw [← hgrid] at hv
      push_cast at hv
      linarith
    · have hlt := (rounded_parts (m := (2 * m + 1) * d) hd₂ hnear).1
        (by linarith [mul_comm d m])
      rw [hhalf] at hlt
      push_cast at hlt
      linarith
  rw [hv, Number.round, hfloor]

end Lib.Js
