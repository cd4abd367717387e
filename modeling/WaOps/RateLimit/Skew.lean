import WaOps.RateLimit.Retry

namespace WaOps.RateLimit.Skew
open Lib.Runs Lib.TokenBucket

/-- The tokens a run of the script at a time finds, before it spends. -/
def available (capacity rate now : ℚ) (key : Option Key) : ℚ :=
  level capacity rate (bucketOf capacity now key) now

/-- What a request takes from a bucket that is not refilled. -/
def paid (capacity cost : ℚ) (k : Key) : ℚ :=
  if cost ≤ min capacity k.tokens then cost else 0

/-- What is paid covers the refill that turning the stamp back gives away, or the bucket is full
by then anyway. -/
def Harmless (capacity rate cost : ℚ) (k : Key) (stamp now : ℚ) : Prop :=
  capacity ≤ k.tokens + (now - k.ts) * rate ∨
    min capacity k.tokens + (k.ts - stamp) * rate ≤ k.tokens + paid capacity cost k

structure State where
  key : Option Key
  /-- The key as it was last written; it stays when Redis drops the key. -/
  last : Option Key
  log : List (ℚ × Bool) := []
  deriving DecidableEq, Repr

inductive Event where
  /-- A request of cost 1 by an instance whose clock shows the stamp. -/
  | request (stamp : ℚ)
  /-- Redis drops the key, by a clock of its own. -/
  | vanish
  deriving DecidableEq, Repr

def initial (key : Option Key) : State :=
  { key, last := key }

variable (capacity rate : ℚ)

def step (s : State) : Event → Option State
  | .request stamp =>
    let (answer, key) := tokenBucket capacity rate stamp 1 s.key
    some { key := some key, last := some key, log := s.log ++ [(stamp, answer.allowed)] }
  | .vanish => s.key.map fun _ => { s with key := none }

/-- A request is stamped at or after the last one before it, and if the key was dropped between
them, so late that the bucket would have been full. -/
def Forward (s : State) : Event → Prop
  | .request stamp =>
    ∀ k ∈ s.last, k.ts ≤ stamp ∧
      (s.key = none → capacity ≤ k.tokens + (stamp - k.ts) * rate)
  | .vanish => True

instance Forward.decidable (s : State) : ∀ e, Decidable (Forward capacity rate s e)
  | .request stamp =>
    inferInstanceAs (Decidable (∀ k ∈ s.last, k.ts ≤ stamp ∧
      (s.key = none → capacity ≤ k.tokens + (stamp - k.ts) * rate)))
  | .vanish => isTrue trivial

def granted (log : List (ℚ × Bool)) : ℕ :=
  log.countP (·.2)

/-- The requests so far were granted no more than the capacity and the refill between the
smallest and the largest stamp. -/
def WithinBudget (s : State) : Prop :=
  ∀ lo hi, lo ≤ hi → (∀ d ∈ s.log, lo ≤ d.1 ∧ d.1 ≤ hi) →
    (granted s.log : ℚ) ≤ capacity + rate * (hi - lo)

variable {capacity rate} {s t : State} {e : Event} {key : Option Key} {k : Key}
  {stamp now cost lo hi : ℚ} {events : List Event}

/-- Behind its stamp a bucket is not refilled. -/
theorem available_behind (h : stamp ≤ k.ts) :
    available capacity rate stamp (some k) = min capacity k.tokens := by
  show min capacity (k.tokens + max 0 (stamp - k.ts) * rate) = _
  rw [max_eq_left (by linarith), zero_mul, add_zero]

theorem available_ahead (h : k.ts ≤ now) :
    available capacity rate now (some k) = min capacity (k.tokens + (now - k.ts) * rate) := by
  show min capacity (k.tokens + max 0 (now - k.ts) * rate) = _
  rw [max_eq_right (by linarith)]

theorem script_key (capacity rate stamp cost : ℚ) (key : Option Key) :
    (tokenBucket capacity rate stamp cost key).2.ts = stamp ∧
      (tokenBucket capacity rate stamp cost key).2.tokens =
        if cost ≤ available capacity rate stamp key then available capacity rate stamp key - cost
        else available capacity rate stamp key := by
  rw [tokenBucket_answer]
  exact ⟨rfl, rfl⟩

/-- A request stamped behind the bucket turns it back to its stamp for what it pays. -/
theorem tokens_behind (h : stamp ≤ k.ts) :
    (tokenBucket capacity rate stamp cost (some k)).2.tokens =
      min capacity k.tokens - paid capacity cost k := by
  rw [(script_key capacity rate stamp cost (some k)).2, available_behind h]
  unfold paid
  split
  · rfl
  · rw [sub_zero]

theorem min_le_min_iff_left {a b c : ℚ} : min a b ≤ min a c ↔ a ≤ c ∨ b ≤ c := by
  rw [le_min_iff, and_iff_right (min_le_left a b), min_le_iff]

/-- What a request stamped behind the bucket leaves for later. -/
theorem available_turned_back (hbehind : stamp ≤ k.ts) (hlater : k.ts ≤ now) :
    available capacity rate now (some (tokenBucket capacity rate stamp cost (some k)).2) ≤
        available capacity rate now (some k) ↔
      Harmless capacity rate cost k stamp now := by
  obtain ⟨hts, -⟩ := script_key capacity rate stamp cost (some k)
  rw [available_ahead hlater, available_ahead (hts.le.trans (hbehind.trans hlater)), hts,
    tokens_behind hbehind, min_le_min_iff_left]
  unfold Harmless
  apply or_congr_right
  constructor
  · intro h
    linarith
  · intro h
    linarith

@[simp] theorem granted_append (log : List (ℚ × Bool)) (b : Bool) :
    granted (log ++ [(stamp, b)]) = granted log + b.toNat := by
  cases b <;> simp [granted]

theorem step_request (hs : step capacity rate s (.request stamp) = some t) :
    t = { key := some (tokenBucket capacity rate stamp 1 s.key).2
          last := some (tokenBucket capacity rate stamp 1 s.key).2
          log := s.log ++ [(stamp, decide (1 ≤ available capacity rate stamp s.key))] } := by
  have hallowed : (tokenBucket capacity rate stamp 1 s.key).1.allowed =
      decide (1 ≤ available capacity rate stamp s.key) :=
    (tokenBucket_spends capacity rate stamp 1 s.key).1
  rw [← hallowed]
  exact (Option.some.inj hs).symm

theorem step_vanish (hs : step capacity rate s .vanish = some t) : t = { s with key := none } := by
  obtain ⟨_, _, rfl⟩ := Option.map_eq_some_iff.mp hs
  rfl

/-- What was granted and what is left are paid for by the capacity and the refill since the
smallest stamp. -/
structure Accounted (capacity rate : ℚ) (s : State) : Prop where
  kept : ∀ k, s.key = some k → s.last = some k
  spent : s.log ≠ [] → ∃ k, s.last = some k ∧ (∃ d ∈ s.log, d.1 = k.ts) ∧
    ∀ lo, (∀ d ∈ s.log, lo ≤ d.1) →
      granted s.log + max 0 k.tokens ≤ capacity + rate * (k.ts - lo)

theorem accounted_initial (key : Option Key) : Accounted capacity rate (initial key) :=
  ⟨fun _ hk => hk, fun h => absurd rfl h⟩

/-- What a request is granted comes out of what it finds. -/
theorem spends (capacity rate stamp : ℚ) (key : Option Key) (log : List (ℚ × Bool)) :
    let found := available capacity rate stamp key
    (granted (log ++ [(stamp, decide (1 ≤ found))]) : ℚ) +
        max 0 (tokenBucket capacity rate stamp 1 key).2.tokens ≤
      granted log + max 0 found := by
  intro found
  rw [(script_key capacity rate stamp 1 key).2, granted_append]
  have hfound : found ≤ max 0 found := le_max_right _ _
  by_cases hpaid : 1 ≤ found
  · rw [if_pos hpaid, decide_eq_true hpaid, max_eq_right (by linarith : 0 ≤ found - 1)]
    push_cast [Bool.toNat_true]
    linarith
  · rw [if_neg hpaid, decide_eq_false hpaid]
    simp [found]

/-- A request stamped forward finds no more than the last one left and the refill since. -/
theorem available_forward (h : Accounted capacity rate s) (hk : s.last = some k)
    (hforward : Forward capacity rate s (.request stamp)) (hrate : 0 ≤ rate) :
    max 0 (available capacity rate stamp s.key) ≤ max 0 k.tokens + rate * (stamp - k.ts) := by
  obtain ⟨hts, hdropped⟩ := hforward k hk
  have hrefill : 0 ≤ rate * (stamp - k.ts) := mul_nonneg hrate (sub_nonneg.mpr hts)
  have htokens : k.tokens ≤ max 0 k.tokens := le_max_right _ _
  have hpos : (0 : ℚ) ≤ max 0 k.tokens := le_max_left _ _
  have hfound : available capacity rate stamp s.key ≤ k.tokens + (stamp - k.ts) * rate := by
    cases hkey : s.key with
    | none => exact (level_without_key capacity rate stamp).le.trans (hdropped hkey)
    | some k' =>
      obtain rfl := Option.some.inj ((h.kept k' hkey).symm.trans hk)
      rw [available_ahead hts]
      exact min_le_right _ _
  apply max_le <;> linarith

theorem Accounted.request (h : Accounted capacity rate s) (hcap : 0 ≤ capacity) (hrate : 0 ≤ rate)
    (hforward : Forward capacity rate s (.request stamp))
    (hs : step capacity rate s (.request stamp) = some t) : Accounted capacity rate t := by
  obtain rfl := step_request hs
  have hspends := spends capacity rate stamp s.key s.log
  obtain ⟨hts, -⟩ := script_key capacity rate stamp 1 s.key
  refine ⟨fun _ hk => hk, fun _ => ⟨_, rfl, ⟨_, List.mem_append_right _ (List.mem_singleton_self _),
    hts.symm⟩, ?_⟩⟩
  intro lo hlo
  have hstamp : lo ≤ stamp := hlo _ (List.mem_append_right _ (List.mem_singleton_self _))
  have hrefill : 0 ≤ rate * (stamp - lo) := mul_nonneg hrate (sub_nonneg.mpr hstamp)
  rw [hts]
  refine hspends.trans ?_
  by_cases hlog : s.log = []
  · have hfull : available capacity rate stamp s.key ≤ capacity := level_le_cap
    have hnone : (granted s.log : ℚ) = 0 := by
      rw [hlog]
      rfl
    have hfound : max 0 (available capacity rate stamp s.key) ≤ capacity := max_le hcap hfull
    linarith
  · obtain ⟨k, hk, -, hspent⟩ := h.spent hlog
    have hbefore := hspent lo fun d hd => hlo d (List.mem_append_left _ hd)
    have hfound := available_forward h hk hforward hrate
    linarith

theorem Accounted.vanish (h : Accounted capacity rate s)
    (hs : step capacity rate s .vanish = some t) : Accounted capacity rate t := by
  obtain rfl := step_vanish hs
  refine ⟨?_, h.spent⟩
  intro k hk
  cases hk

theorem Accounted.withinBudget (h : Accounted capacity rate s) (hcap : 0 ≤ capacity)
    (hrate : 0 ≤ rate) : WithinBudget capacity rate s := by
  intro lo hi hle hbetween
  by_cases hlog : s.log = []
  · rw [hlog]
    have hrefill : 0 ≤ rate * (hi - lo) := mul_nonneg hrate (sub_nonneg.mpr hle)
    have hnone : granted [] = 0 := rfl
    rw [hnone, Nat.cast_zero]
    linarith
  · obtain ⟨k, -, ⟨d, hd, hts⟩, hspent⟩ := h.spent hlog
    have hpaid := hspent lo fun d hd => (hbetween d hd).1
    have hlast : rate * (k.ts - lo) ≤ rate * (hi - lo) :=
      mul_le_mul_of_nonneg_left (by linarith [(hbetween d hd).2]) hrate
    have hpos : (0 : ℚ) ≤ max 0 k.tokens := le_max_left _ _
    linarith

/-- A request stamped behind the bucket creates no budget exactly when what it pays covers the
refill it gives away. A run whose stamps only go forward stays within the budget. -/
theorem budget_of_skewed_clocks (capacity rate : ℚ) :
    (∀ (cost : ℚ) (k : Key) (stamp now : ℚ), stamp ≤ k.ts → k.ts ≤ now →
      (available capacity rate now (some (tokenBucket capacity rate stamp cost (some k)).2) ≤
          available capacity rate now (some k) ↔
        Harmless capacity rate cost k stamp now)) ∧
    (0 ≤ capacity → 0 ≤ rate → ∀ (key : Option Key) (events : List Event),
      Meets (step capacity rate) (Forward capacity rate) (initial key) events →
      Always (step capacity rate) (WithinBudget capacity rate) (initial key) events) := by
  refine ⟨fun cost k stamp now hbehind hlater => available_turned_back hbehind hlater, ?_⟩
  intro hcap hrate key events hforward
  refine (always_of_meets ?_ (accounted_initial key) hforward).mono
    fun s h => h.withinBudget hcap hrate
  intro s e t h hf hs
  cases e with
  | request stamp => exact h.request hcap hrate hf hs
  | vanish => exact h.vanish hs

/-- The limiter of the auth routes, an empty bucket stamped at one minute and an instance whose
clock is a minute behind. -/
def emptied : Key := { tokens := 0, ts := 60000, expireAt := 181000 }

/-- Ten requests by the fast clock and one by the slow one, three times over. -/
def alternating : List Event :=
  let round := List.replicate 10 (.request 60000) ++ [.request 0]
  round ++ round ++ round

/-- The request stamped a minute back is denied and leaves a full bucket for the minute after,
and in the run 30 requests are granted where 20 are the bound. -/
theorem turned_back_creates_budget :
    ¬ available 10 (1 / 6000) 60000 (some (tokenBucket 10 (1 / 6000) 0 1 (some emptied)).2) ≤
        available 10 (1 / 6000) 60000 (some emptied) ∧
      ¬ WithinBudget 10 (1 / 6000)
        ((exec (step 10 (1 / 6000)) (initial none) alternating).getD (initial none)) := by
  constructor
  · decide +kernel
  · intro h
    have hbound := h 0 60000 (by norm_num) (by decide +kernel)
    exact absurd hbound (by decide +kernel)

theorem forward_stamps_within_budget :
    Always (step 10 (1 / 6000)) (WithinBudget 10 (1 / 6000)) (initial (some emptied))
      [.request 60000, .request 66000, .vanish, .request 126001] :=
  (budget_of_skewed_clocks 10 (1 / 6000)).2 (by norm_num) (by norm_num) (some emptied) _
    (by decide +kernel)

end WaOps.RateLimit.Skew
