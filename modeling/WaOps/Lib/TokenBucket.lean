import Mathlib.Algebra.Order.Field.Basic
import Mathlib.Data.List.Basic
import Mathlib.Tactic.Linarith
import Mathlib.Tactic.Ring

namespace Lib.TokenBucket

variable {K : Type*} [LinearOrder K]

/-- How many requests are admitted in a window of time. -/
def admitted (t₁ t₂ : K) (log : List (K × Bool)) : ℕ :=
  (log.filter (fun d => d.2 ∧ t₁ ≤ d.1 ∧ d.1 ≤ t₂)).length

theorem admitted_cons {t₁ t₂ : K} (d : K × Bool) (log : List (K × Bool)) :
    admitted t₁ t₂ (d :: log) =
      admitted t₁ t₂ log + if d.2 ∧ t₁ ≤ d.1 ∧ d.1 ≤ t₂ then 1 else 0 := by
  unfold admitted
  rw [List.filter_cons]
  split
  · rename_i h
    rw [if_pos (by simpa using h)]
    rfl
  · rename_i h
    rw [if_neg (by simpa using h)]
    rfl

variable [Field K]

structure Bucket (K : Type*) where
  tokens : K
  ts : K

/-- What the bucket holds at a time; a time before its stamp adds nothing. -/
def level (cap rate : K) (b : Bucket K) (now : K) : K :=
  min cap (b.tokens + max 0 (now - b.ts) * rate)

def spend (cap rate cost : K) (b : Bucket K) (now : K) : Bucket K :=
  { tokens :=
      if cost ≤ level cap rate b now then level cap rate b now - cost else level cap rate b now
    ts := now }

/-- The requests of one cost each and whether they are admitted. -/
def decisions (cap rate cost : K) : Bucket K → List K → List (K × Bool)
  | _, [] => []
  | b, t :: ts =>
    (t, decide (cost ≤ level cap rate b t)) :: decisions cap rate cost (spend cap rate cost b t) ts

variable {cap rate cost : K} {b : Bucket K} {t t' t₁ t₂ : K} {times : List K}

@[simp] theorem spend_ts : (spend cap rate cost b t).ts = t := rfl

theorem level_le_cap : level cap rate b t ≤ cap :=
  min_le_left _ _

theorem admitted_late (h : ∀ t ∈ times, t₂ < t) :
    admitted t₁ t₂ (decisions cap rate cost b times) = 0 := by
  induction times generalizing b with
  | nil => rfl
  | cons t times ih =>
    have ht := h t List.mem_cons_self
    rw [decisions, admitted_cons, if_neg (by rintro ⟨-, -, hle⟩; exact absurd hle (not_le.mpr ht))]
    exact ih (fun x hx => h x (List.mem_cons_of_mem _ hx))

/-- At its own stamp the bucket holds its tokens. -/
theorem level_at_stamp (hb : b.tokens ≤ cap) : level cap rate b b.ts = b.tokens := by
  unfold level
  rw [sub_self, max_self, zero_mul, add_zero, min_eq_right hb]

variable [IsStrictOrderedRing K]

theorem level_nonneg (hcap : 0 ≤ cap) (hrate : 0 ≤ rate) (hb : 0 ≤ b.tokens) :
    0 ≤ level cap rate b t := by
  have : 0 ≤ max 0 (t - b.ts) * rate := mul_nonneg (le_max_left _ _) hrate
  exact le_min hcap (by linarith)

theorem spend_nonneg (hcap : 0 ≤ cap) (hrate : 0 ≤ rate) (hb : 0 ≤ b.tokens) :
    0 ≤ (spend cap rate cost b t).tokens := by
  have : 0 ≤ level cap rate b t := level_nonneg hcap hrate hb
  unfold spend
  dsimp only
  split <;> linarith

/-- A level rises no faster than the rate. -/
theorem level_le_add (hrate : 0 ≤ rate) (h : t ≤ t') :
    level cap rate b t' ≤ level cap rate b t + (t' - t) * rate := by
  have hstep : max 0 (t' - b.ts) ≤ max 0 (t - b.ts) + (t' - t) := by
    apply max_le
    · have := le_max_left 0 (t - b.ts)
      linarith
    · have := le_max_right 0 (t - b.ts)
      linarith
  have hscaled := mul_le_mul_of_nonneg_right hstep hrate
  rw [add_mul] at hscaled
  have hadded : 0 ≤ (t' - t) * rate := mul_nonneg (by linarith) hrate
  unfold level
  rcases le_total cap (b.tokens + max 0 (t - b.ts) * rate) with hc | hc
  · rw [min_eq_left hc]
    exact (min_le_left _ _).trans (by linarith)
  · rw [min_eq_right hc]
    exact (min_le_right _ _).trans (by linarith)

theorem spend_tokens_le (hcost : 0 ≤ cost) :
    (spend cap rate cost b t).tokens ≤ level cap rate b t := by
  unfold spend
  dsimp only
  split <;> linarith

/-- Asking never leaves more than not asking. -/
theorem spend_level_le (hcost : 0 ≤ cost) (hb : b.ts ≤ t) (h : t ≤ t') :
    level cap rate (spend cap rate cost b t) t' ≤ level cap rate b t' := by
  have htokens : (spend cap rate cost b t).tokens ≤ level cap rate b t := spend_tokens_le hcost
  have hlevel : level cap rate b t ≤ b.tokens + max 0 (t - b.ts) * rate := min_le_right _ _
  have hsplit : max 0 (t' - t) * rate + max 0 (t - b.ts) * rate = max 0 (t' - b.ts) * rate := by
    rw [max_eq_right (by linarith), max_eq_right (by linarith), max_eq_right (by linarith)]
    ring
  apply le_min (min_le_left _ _)
  refine (min_le_right _ _).trans ?_
  rw [spend_ts]
  linarith

/-- A denied request does not change what the bucket holds later. -/
theorem spend_level_denied (hrate : 0 ≤ rate) (hb : b.ts ≤ t) (h : t ≤ t')
    (hdenied : ¬cost ≤ level cap rate b t) :
    level cap rate (spend cap rate cost b t) t' = level cap rate b t' := by
  have hkept : (spend cap rate cost b t).tokens = level cap rate b t := if_neg hdenied
  have hadded : 0 ≤ (t' - t) * rate := mul_nonneg (by linarith) hrate
  unfold level
  rw [hkept, spend_ts, level, max_eq_right (by linarith), max_eq_right (by linarith),
    max_eq_right (by linarith)]
  have hsum : b.tokens + (t' - b.ts) * rate =
      b.tokens + (t - b.ts) * rate + (t' - t) * rate := by
    ring
  rw [hsum]
  rcases le_total cap (b.tokens + (t - b.ts) * rate) with hc | hc
  · rw [min_eq_left hc, min_eq_left (by linarith), min_eq_left (by linarith)]
  · rw [min_eq_right hc]

/-- A bucket that has had the time to refill is full. -/
theorem level_full (hrate : 0 < rate) (hb : 0 ≤ b.tokens) (h : b.ts + cap / rate ≤ t) :
    level cap rate b t = cap := by
  have htime : cap / rate ≤ max 0 (t - b.ts) := le_max_of_le_right (by linarith)
  have hrefill : cap ≤ max 0 (t - b.ts) * rate := (div_le_iff₀ hrate).mp htime
  exact min_eq_left (by linarith)

/-- The potential argument: what the window has admitted from the bucket's stamp on is paid
for by the level it starts with and the refill since. -/
theorem admitted_le_level (hcap : 0 ≤ cap) (hrate : 0 ≤ rate) (hcost : 0 ≤ cost)
    (hb : 0 ≤ b.tokens) (hsorted : (b.ts :: times).Pairwise (· ≤ ·)) (h₁ : t₁ ≤ t₂)
    (h₂ : b.ts ≤ t₂) :
    cost * admitted t₁ t₂ (decisions cap rate cost b times) ≤
      level cap rate b (max b.ts t₁) + (t₂ - max b.ts t₁) * rate := by
  induction times generalizing b with
  | nil =>
    have hlevel : 0 ≤ level cap rate b (max b.ts t₁) := level_nonneg hcap hrate hb
    have hrefill : 0 ≤ (t₂ - max b.ts t₁) * rate :=
      mul_nonneg (by have := max_le h₂ h₁; linarith) hrate
    have hnone : admitted t₁ t₂ (decisions cap rate cost b []) = 0 := rfl
    rw [hnone, Nat.cast_zero, mul_zero]
    exact add_nonneg hlevel hrefill
  | cons t times ih =>
    obtain ⟨hfirst, hrest⟩ := List.pairwise_cons.mp hsorted
    have hbt : b.ts ≤ t := hfirst t List.mem_cons_self
    have hnext : 0 ≤ (spend cap rate cost b t).tokens := spend_nonneg hcap hrate hb
    rw [decisions, admitted_cons]
    rcases lt_or_ge t₂ t with hlate | ht
    · -- Neither this request nor a later one falls in the window.
      have hall : ∀ x ∈ times, t₂ < x := by
        intro x hx
        exact hlate.trans_le ((List.pairwise_cons.mp hrest).1 x hx)
      rw [if_neg (by rintro ⟨-, -, hle⟩; exact absurd hle (not_le.mpr hlate)), admitted_late hall]
      have hlevel : 0 ≤ level cap rate b (max b.ts t₁) := level_nonneg hcap hrate hb
      have hrefill : 0 ≤ (t₂ - max b.ts t₁) * rate :=
        mul_nonneg (by have := max_le h₂ h₁; linarith) hrate
      simpa using add_nonneg hlevel hrefill
    · have hle := ih hnext hrest ht
      rw [spend_ts] at hle
      rcases lt_or_ge t t₁ with hearly | ht₁
      · -- Before the window: asking has only lowered the level the window starts with.
        rw [if_neg (by rintro ⟨-, hge, -⟩; exact absurd hge (not_le.mpr hearly)), Nat.add_zero]
        rw [max_eq_right hearly.le] at hle
        rw [max_eq_right (hbt.trans hearly.le)]
        have hlow : level cap rate (spend cap rate cost b t) t₁ ≤ level cap rate b t₁ :=
          spend_level_le hcost hbt hearly.le
        linarith
      · rw [max_eq_left ht₁] at hle
        have hrise : level cap rate b t ≤
            level cap rate b (max b.ts t₁) + (t - max b.ts t₁) * rate :=
          level_le_add hrate (max_le hbt ht₁)
        have hstamp : level cap rate (spend cap rate cost b t) t ≤
            (spend cap rate cost b t).tokens := by
          refine (min_le_right _ _).trans ?_
          simp
        by_cases hpay : cost ≤ level cap rate b t
        · rw [if_pos ⟨by simpa using hpay, ht₁, ht⟩, Nat.cast_add, Nat.cast_one, mul_add, mul_one]
          have hspent : (spend cap rate cost b t).tokens = level cap rate b t - cost := if_pos hpay
          linarith
        · rw [if_neg (by rintro ⟨hd, -, -⟩; exact hpay (by simpa using hd)), Nat.add_zero]
          have hkept : (spend cap rate cost b t).tokens = level cap rate b t := if_neg hpay
          linarith

/-- In no window are more requests admitted than the capacity and the refill pay for. -/
theorem admitted_le (hcap : 0 ≤ cap) (hrate : 0 ≤ rate) (hcost : 0 ≤ cost) (hb : 0 ≤ b.tokens)
    (hsorted : (b.ts :: times).Pairwise (· ≤ ·)) (h : t₁ ≤ t₂) :
    cost * admitted t₁ t₂ (decisions cap rate cost b times) ≤ cap + (t₂ - t₁) * rate := by
  rcases lt_or_ge t₂ b.ts with hlate | hb₂
  · have hall : ∀ x ∈ times, t₂ < x := by
      intro x hx
      exact hlate.trans_le ((List.pairwise_cons.mp hsorted).1 x hx)
    rw [admitted_late hall, Nat.cast_zero, mul_zero]
    exact add_nonneg hcap (mul_nonneg (by linarith) hrate)
  · have hle := admitted_le_level hcap hrate hcost hb hsorted h hb₂
    have hfull : level cap rate b (max b.ts t₁) ≤ cap := level_le_cap
    have hwindow : (t₂ - max b.ts t₁) * rate ≤ (t₂ - t₁) * rate :=
      mul_le_mul_of_nonneg_right (by have := le_max_right b.ts t₁; linarith) hrate
    linarith

end Lib.TokenBucket
