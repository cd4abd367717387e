import Mathlib.Algebra.Order.Floor.Ring
import Mathlib.Data.Rat.Floor
import Mathlib.Tactic.Linarith

namespace WaOps.Agent

/-- `30 * time.Second`; a Duration is 64 bits and counts nanoseconds. -/
def maxBackoff : BitVec 64 := 30000000000

/-- The delay that `Backoff` chooses before its jitter. -/
def backoffDelay (attempt base : BitVec 64) : BitVec 64 :=
  let attempt := if attempt.toInt < 0 then 0 else attempt
  -- A shift by 64 or more leaves nothing.
  let d := base <<< attempt.toNat
  if maxBackoff.toInt < d.toInt ∨ d.toInt ≤ 0 then maxBackoff else d

def jitterFactor (unixNano : ℤ) : ℚ := 1 / 2 + 1 / 2 * (unixNano.tmod 1000 : ℤ) / 1000

/-- `time.Duration(float64(d) * factor)`, the product exact. -/
def jittered (d : BitVec 64) (factor : ℚ) : ℤ :=
  let product := d.toInt * factor
  if 0 ≤ product then ⌊product⌋ else ⌈product⌉

def Backoff (attempt base : BitVec 64) (unixNano : ℤ) : ℤ :=
  jittered (backoffDelay attempt base) (jitterFactor unixNano)

/-- What an attempt's number counts as. -/
def doublings (attempt : BitVec 64) : ℕ := attempt.toInt.toNat

/-- Of the shifted base bits are lost, and those that are kept make a delay below the maximum. -/
def Overflows (attempt base : BitVec 64) : Prop :=
  let kept := base.toNat % 2 ^ (64 - doublings attempt)
  kept < base.toNat ∧ 0 < kept ∧ kept * 2 ^ doublings attempt < 30000000000

instance (attempt base : BitVec 64) : Decidable (Overflows attempt base) :=
  inferInstanceAs (Decidable (_ ∧ _))

/-- The base is doubled once for each attempt, up to the maximum. -/
def Doubled (attempt base : BitVec 64) : Prop :=
  (backoffDelay attempt base).toInt = min (base.toInt * 2 ^ doublings attempt) maxBackoff.toInt

def NeverShrinks (base : BitVec 64) : Prop :=
  ∀ attempt later : BitVec 64, attempt.toInt ≤ later.toInt →
    (backoffDelay attempt base).toInt ≤ (backoffDelay later base).toInt

/-- The product lies in the upper half of the delay, and so does the Duration it is cut to. -/
def UpperHalf (d : BitVec 64) (factor : ℚ) : Prop :=
  ((d.toInt : ℚ) / 2 ≤ d.toInt * factor ∧ d.toInt * factor < d.toInt) ∧
    d.toInt / 2 ≤ jittered d factor ∧ jittered d factor < d.toInt

variable {attempt later base d : BitVec 64} {factor : ℚ}

theorem shift_count (attempt : BitVec 64) :
    (if attempt.toInt < 0 then 0 else attempt).toNat = doublings attempt := by
  unfold doublings
  split
  · rename_i hneg
    rw [Int.toNat_of_nonpos hneg.le]
    rfl
  · rename_i hpos
    have hcond := BitVec.toInt_eq_toNat_cond attempt
    have hlt := attempt.isLt
    split_ifs at hcond <;> omega

/-- The bits that a shift keeps. -/
theorem shiftLeft_toNat (base : BitVec 64) (n : ℕ) :
    (base <<< n).toNat = base.toNat % 2 ^ (64 - n) * 2 ^ n := by
  rw [BitVec.toNat_shiftLeft, Nat.shiftLeft_eq]
  rcases Nat.le_total n 64 with hn | hn
  · have hsplit : 2 ^ 64 = 2 ^ (64 - n) * 2 ^ n := by rw [← pow_add, Nat.sub_add_cancel hn]
    rw [hsplit, Nat.mul_mod_mul_right]
  · have hdvd : 2 ^ 64 ∣ base.toNat * 2 ^ n := (pow_dvd_pow 2 hn).mul_left _
    rw [Nat.mod_eq_zero_of_dvd hdvd, Nat.sub_eq_zero_of_le hn, pow_zero, Nat.mod_one, zero_mul]

/-- The delay is what the kept bits make, unless they are none, negative or too many. -/
theorem delay_kept (attempt base : BitVec 64) :
    let kept := base.toNat % 2 ^ (64 - doublings attempt) * 2 ^ doublings attempt
    (backoffDelay attempt base).toInt =
      if 0 < kept ∧ kept < 30000000000 then (kept : ℤ) else 30000000000 := by
  intro kept
  have hval : maxBackoff.toInt = 30000000000 := by decide
  have hd : (base <<< doublings attempt).toNat = kept := shiftLeft_toNat base _
  have hint := BitVec.toInt_eq_toNat_cond (base <<< doublings attempt)
  have hlt := (base <<< doublings attempt).isLt
  simp only [backoffDelay, shift_count]
  split_ifs at hint ⊢ <;> omega

/-- A base that loses bits is shifted over the maximum. -/
theorem product_large {b n : ℕ} (h : 2 ^ (64 - n) ≤ b) : 30000000000 ≤ b * 2 ^ n := by
  calc 30000000000 ≤ 2 ^ 64 := by norm_num
    _ ≤ 2 ^ (64 - n + n) := Nat.pow_le_pow_right (by omega) (by omega)
    _ = 2 ^ (64 - n) * 2 ^ n := pow_add 2 _ _
    _ ≤ b * 2 ^ n := Nat.mul_le_mul_right _ h

theorem base_nat (hpos : 0 < base.toInt) : base.toInt = base.toNat := by
  have hcond := BitVec.toInt_eq_toNat_cond base
  have hlt := base.isLt
  split_ifs at hcond <;> omega

/-- The delay is the doubled base up to the maximum, unless the shift overflows. -/
theorem doubled_iff (hpos : 0 < base.toInt) : Doubled attempt base ↔ ¬ Overflows attempt base := by
  have hval : maxBackoff.toInt = 30000000000 := by decide
  have hdelay := delay_kept attempt base
  dsimp only at hdelay
  rw [Doubled, hdelay, base_nat hpos, hval, Overflows]
  set n := doublings attempt
  have hb : 0 < base.toNat := by
    have := base_nat hpos
    omega
  rcases Nat.lt_or_ge base.toNat (2 ^ (64 - n)) with hsmall | hlarge
  · -- No bit is lost.
    have hprod : 0 < base.toNat * 2 ^ n := by positivity
    rw [Nat.mod_eq_of_lt hsmall]
    have hcast : (base.toNat : ℤ) * 2 ^ n = (base.toNat * 2 ^ n : ℕ) := by push_cast; rfl
    rw [hcast]
    split_ifs <;> omega
  · have hkept : base.toNat % 2 ^ (64 - n) < base.toNat :=
      lt_of_lt_of_le (Nat.mod_lt _ (by positivity)) hlarge
    have hprod := product_large hlarge
    have hcast : (base.toNat : ℤ) * 2 ^ n = (base.toNat * 2 ^ n : ℕ) := by push_cast; rfl
    rw [hcast]
    have hzero : 0 < base.toNat % 2 ^ (64 - n) * 2 ^ n ↔ 0 < base.toNat % 2 ^ (64 - n) :=
      Nat.mul_pos_iff_of_pos_right (by positivity)
    split_ifs <;> omega

theorem upperHalf (hd : 0 < d.toInt) (hlow : 1 / 2 ≤ factor) (hhigh : factor < 1) :
    UpperHalf d factor := by
  have hdq : (0 : ℚ) < d.toInt := by exact_mod_cast hd
  have hle : (d.toInt : ℚ) / 2 ≤ d.toInt * factor := by
    rw [div_eq_mul_one_div]
    gcongr
  have hlt : d.toInt * factor < d.toInt := mul_lt_of_lt_one_right hdq hhigh
  have hnonneg : 0 ≤ d.toInt * factor := by positivity
  refine ⟨⟨hle, hlt⟩, ?_, ?_⟩
  · rw [jittered, if_pos hnonneg, Int.le_floor]
    have hhalf : ((d.toInt / 2 * 2 : ℤ) : ℚ) ≤ d.toInt := by
      exact_mod_cast Int.ediv_mul_le d.toInt two_ne_zero
    push_cast at hhalf
    linarith
  · rw [jittered, if_pos hnonneg, Int.floor_lt]
    exact hlt

theorem jitterFactor_range {unixNano : ℤ} (h : 0 ≤ unixNano) :
    1 / 2 ≤ jitterFactor unixNano ∧ jitterFactor unixNano < 1 := by
  have hlow : (0 : ℚ) ≤ (unixNano.tmod 1000 : ℤ) := by exact_mod_cast Int.tmod_nonneg 1000 h
  have hhigh : ((unixNano.tmod 1000 : ℤ) : ℚ) < 1000 := by
    exact_mod_cast Int.tmod_lt_of_pos unixNano (by norm_num : (0 : ℤ) < 1000)
  unfold jitterFactor
  constructor <;> linarith

theorem delay_pos (attempt base : BitVec 64) : 0 < (backoffDelay attempt base).toInt := by
  have hdelay := delay_kept attempt base
  dsimp only at hdelay
  split_ifs at hdelay <;> omega

theorem doublings_mono (h : attempt.toInt ≤ later.toInt) : doublings attempt ≤ doublings later :=
  Int.toNat_le_toNat h

theorem ofNat_toInt {n : ℕ} (h : n < 64) : (BitVec.ofNat 64 n).toInt = n := by
  rw [BitVec.toInt_eq_toNat_cond, BitVec.toNat_ofNat, Nat.mod_eq_of_lt (by omega),
    if_pos (by omega)]

/-- The attempt that shifts the base's highest bit to the sign waits for the maximum. -/
theorem delay_before_loss (hpos : 0 < base.toInt) :
    (backoffDelay (BitVec.ofNat 64 (63 - base.toNat.log2)) base).toInt = 30000000000 := by
  have hb : base.toNat ≠ 0 := by
    have := base_nat hpos
    omega
  have hlog : base.toNat.log2 < 64 := (Nat.log2_lt hb).mpr base.isLt
  have hdelay := delay_kept (BitVec.ofNat 64 (63 - base.toNat.log2)) base
  dsimp only at hdelay
  have hdoublings : doublings (BitVec.ofNat 64 (63 - base.toNat.log2)) = 63 - base.toNat.log2 := by
    rw [doublings, ofNat_toInt (by omega), Int.toNat_natCast]
  rw [hdoublings] at hdelay
  have hlarge : 2 ^ 63 ≤ base.toNat * 2 ^ (63 - base.toNat.log2) := by
    calc 2 ^ 63 = 2 ^ base.toNat.log2 * 2 ^ (63 - base.toNat.log2) := by
          rw [← pow_add]
          congr 1
          omega
      _ ≤ base.toNat * 2 ^ (63 - base.toNat.log2) :=
          Nat.mul_le_mul_right _ (Nat.log2_self_le hb)
  have hkept : base.toNat % 2 ^ (64 - (63 - base.toNat.log2)) = base.toNat := by
    apply Nat.mod_eq_of_lt
    have hexp : 64 - (63 - base.toNat.log2) = base.toNat.log2 + 1 := by omega
    rw [hexp]
    exact Nat.lt_log2_self
  rw [hkept] at hdelay
  rw [hdelay, if_neg (by omega)]

theorem overflows_lost (h : Overflows attempt base) :
    2 ^ (64 - doublings attempt) ≤ base.toNat := by
  by_contra hless
  have hlost := h.1
  rw [Nat.mod_eq_of_lt (not_le.mp hless)] at hlost
  exact lt_irrefl _ hlost

/-- An attempt that overflows is later than the one that loses nothing and waits longest. -/
theorem overflows_later (h : Overflows attempt base) :
    63 - base.toNat.log2 < doublings attempt ∧
      (backoffDelay attempt base).toInt < 30000000000 := by
  have hbits := overflows_lost h
  obtain ⟨hlost, hkept, hsmall⟩ := h
  have hlog : base.toNat.log2 < 64 := (Nat.log2_lt (by omega)).mpr base.isLt
  constructor
  · have hlt : 2 ^ (64 - doublings attempt) < 2 ^ (base.toNat.log2 + 1) :=
      lt_of_le_of_lt hbits Nat.lt_log2_self
    have hexp := (Nat.pow_lt_pow_iff_right one_lt_two).mp hlt
    omega
  · have hdelay := delay_kept attempt base
    dsimp only at hdelay
    rw [hdelay, if_pos ⟨by positivity, hsmall⟩]
    exact_mod_cast hsmall

theorem neverShrinks_iff (hpos : 0 < base.toInt) :
    NeverShrinks base ↔ ∀ attempt, ¬ Overflows attempt base := by
  constructor
  · intro hgrows attempt h
    obtain ⟨hlater, hless⟩ := overflows_later h
    have hbefore : (BitVec.ofNat 64 (63 - base.toNat.log2)).toInt ≤ attempt.toInt := by
      rw [ofNat_toInt (by omega)]
      unfold doublings at hlater
      omega
    have hle := hgrows _ attempt hbefore
    rw [delay_before_loss hpos] at hle
    omega
  · intro h attempt later hlater
    rw [(doubled_iff hpos).mpr (h attempt), (doubled_iff hpos).mpr (h later)]
    have hmono := doublings_mono hlater
    gcongr
    exact one_le_two

/-- Only bases of more than a second overflow, and no late attempt does. -/
theorem overflows_range (h : Overflows attempt base) :
    2 ^ 30 ≤ base.toNat ∧ doublings attempt ≤ 34 := by
  have hlost := overflows_lost h
  obtain ⟨-, hkept, hsmall⟩ := h
  have hpow : 2 ^ doublings attempt < 2 ^ 35 := by
    calc 2 ^ doublings attempt
        ≤ base.toNat % 2 ^ (64 - doublings attempt) * 2 ^ doublings attempt :=
          Nat.le_mul_of_pos_left _ hkept
      _ < 30000000000 := hsmall
      _ ≤ 2 ^ 35 := by norm_num
  have hn : doublings attempt < 35 := (Nat.pow_lt_pow_iff_right one_lt_two).mp hpow
  have hmono : 2 ^ 30 ≤ 2 ^ (64 - doublings attempt) :=
    Nat.pow_le_pow_right two_pos (by omega)
  exact ⟨hmono.trans hlost, by omega⟩

/-- The delays of a base are its doublings up to 30 s exactly at the attempts that do not
overflow, they never shrink exactly where there is no other attempt, and the jitter leaves their
upper half, in which the result lies whatever the clock says. -/
theorem backoff_doubled_iff (hpos : 0 < base.toInt) :
    (∀ attempt, Doubled attempt base ↔ ¬ Overflows attempt base) ∧
    (NeverShrinks base ↔ ∀ attempt, ¬ Overflows attempt base) ∧
    (∀ attempt factor, 1 / 2 ≤ factor → factor < 1 →
      UpperHalf (backoffDelay attempt base) factor) ∧
    ∀ attempt unixNano, 0 ≤ unixNano →
      (backoffDelay attempt base).toInt / 2 ≤ Backoff attempt base unixNano ∧
        Backoff attempt base unixNano < (backoffDelay attempt base).toInt := by
  refine ⟨fun _ => doubled_iff hpos, neverShrinks_iff hpos,
    fun attempt _ => upperHalf (delay_pos attempt base), ?_⟩
  intro attempt unixNano h
  have hfactor := jitterFactor_range h
  exact (upperHalf (delay_pos attempt base) hfactor.1 hfactor.2).2

def second : BitVec 64 := 1000000000

/-- The delays of the scheduler's base. -/
theorem second_doubled : (∀ attempt, Doubled attempt second) ∧ NeverShrinks second := by
  have hfits : ∀ attempt, ¬ Overflows attempt second := by
    intro attempt h
    exact absurd (overflows_range h).1 (by decide)
  have hpos : 0 < second.toInt := by decide
  have hdelays := backoff_doubled_iff hpos
  exact ⟨fun attempt => (hdelays.1 attempt).mpr (hfits attempt), hdelays.2.1.mpr hfits⟩

/-- One bit over 2^30 ns is shifted to 2^34 ns, which is less than the maximum of before. -/
theorem overflow_shrinks : ¬ ∀ attempt base : BitVec 64, 0 < base.toInt →
    base.toInt ≤ maxBackoff.toInt → Doubled attempt base ∧ NeverShrinks base := by
  intro h
  have hdoubled := (h 34 1073741825 (by decide) (by decide)).1
  revert hdoubled
  unfold Doubled
  decide

end WaOps.Agent
