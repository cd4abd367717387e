import WaOps.RateLimit.Script

namespace WaOps.RateLimit
open Lib.Runs Lib.TokenBucket

variable {capacity rate : ℚ} {s t u : State} {e : Event} {events : List Event} {b : Bucket ℚ}

/-- The bucket a key stands for; without a key it is full. -/
def bucketOf (capacity now : ℚ) (key : Option Key) : Bucket ℚ :=
  key.elim ⟨capacity, now⟩ (fun k => ⟨k.tokens, k.ts⟩)

def requestTimes (events : List Event) : List ℚ :=
  (events.filter Event.isRequest).map Event.time

theorem elapsed_eq (now ts : ℚ) : elapsed now ts = max 0 (now - ts) := by
  unfold elapsed
  split
  · rename_i h
    exact (max_eq_left h.le).symm
  · rename_i h
    exact (max_eq_right (not_lt.mp h)).symm

/-- The script spends from the bucket its key stands for. -/
theorem tokenBucket_spends (capacity rate now cost : ℚ) (key : Option Key) :
    (tokenBucket capacity rate now cost key).1.allowed =
        decide (cost ≤ level capacity rate (bucketOf capacity now key) now) ∧
      bucketOf capacity now (some (tokenBucket capacity rate now cost key).2) =
        spend capacity rate cost (bucketOf capacity now key) now := by
  cases key with
  | none => simp [tokenBucket, bucketOf, level, spend, elapsed]
  | some k =>
    simp only [tokenBucket, bucketOf, level, spend, Option.elim_some, ge_iff_le, elapsed_eq]
    exact ⟨rfl, rfl⟩

/-- The deadline leaves the bucket the time to refill. -/
theorem expireAt_late (now cost : ℚ) (key : Option Key) :
    now + capacity / rate ≤ (tokenBucket capacity rate now cost key).2.expireAt := by
  have hceil := Int.le_ceil ((capacity / rate + 60000) / 1000)
  simp only [tokenBucket, ttlSeconds]
  linarith

/-- The state stands for the bucket: by its key, or without one because the bucket is full
from now on. -/
structure Stands (capacity rate : ℚ) (s : State) (b : Bucket ℚ) : Prop where
  stamped : b.ts ≤ s.clock
  nonneg : 0 ≤ b.tokens
  held : ∀ k, s.key = some k → b = ⟨k.tokens, k.ts⟩ ∧ b.ts + capacity / rate ≤ k.expireAt
  full : s.key = none → ∀ now, s.clock ≤ now → level capacity rate b now = capacity

theorem Stands.level (h : Stands capacity rate s b) {now : ℚ} (hnow : s.clock ≤ now) :
    level capacity rate (bucketOf capacity now s.key) now = level capacity rate b now := by
  cases hk : s.key with
  | none =>
    rw [h.full hk now hnow]
    simp [bucketOf, Lib.TokenBucket.level]
  | some k =>
    rw [(h.held k hk).1]
    rfl

theorem step_request {now : ℚ} (hs : step capacity rate s (.request now) = some t) :
    s.clock ≤ now ∧ t =
      { key := some (tokenBucket capacity rate now 1 s.key).2
        clock := now
        log := s.log ++ [(now, (tokenBucket capacity rate now 1 s.key).1.allowed)] } := by
  unfold step at hs
  split at hs
  · contradiction
  · rename_i hnow
    cases hs
    exact ⟨not_lt.mp hnow, rfl⟩

theorem step_vanish {now : ℚ} (hs : step capacity rate s (.vanish now) = some t) :
    s.clock ≤ now ∧ ∃ k, s.key = some k ∧ k.expireAt ≤ now ∧
      t = { s with key := none, clock := now } := by
  unfold step at hs
  split at hs
  · contradiction
  · rename_i hnow
    dsimp only at hs
    split at hs
    · rename_i k hk
      split at hs
      · rename_i hd
        cases hs
        exact ⟨not_lt.mp hnow, k, hk, hd, rfl⟩
      · contradiction
    · contradiction

theorem Stands.request (h : Stands capacity rate s b) (hcap : 0 ≤ capacity) (hrate : 0 < rate)
    {now : ℚ} (hs : step capacity rate s (.request now) = some t) :
    Stands capacity rate t (spend capacity rate 1 b now) ∧
      t.log = s.log ++ [(now, decide (1 ≤ Lib.TokenBucket.level capacity rate b now))] := by
  obtain ⟨hnow, rfl⟩ := step_request hs
  obtain ⟨hallowed, hkey⟩ := tokenBucket_spends capacity rate now 1 s.key
  have hlevel := h.level hnow
  have hsame : spend capacity rate 1 (bucketOf capacity now s.key) now =
      spend capacity rate 1 b now := by
    simp only [spend, hlevel]
  refine ⟨⟨le_refl _, spend_nonneg hcap hrate.le h.nonneg, ?_, ?_⟩, ?_⟩
  · intro k hk
    cases hk
    rw [← hsame, ← hkey]
    exact ⟨rfl, expireAt_late now 1 s.key⟩
  · intro hk
    cases hk
  · rw [hallowed, hlevel]

theorem Stands.vanish (h : Stands capacity rate s b) (hrate : 0 < rate) {now : ℚ}
    (hs : step capacity rate s (.vanish now) = some t) :
    Stands capacity rate t b ∧ t.log = s.log := by
  obtain ⟨hnow, k, hk, hd, rfl⟩ := step_vanish hs
  obtain ⟨hb, hdeadline⟩ := h.held k hk
  refine ⟨⟨h.stamped.trans hnow, h.nonneg, ?_, ?_⟩, rfl⟩
  · intro k' hk'
    cases hk'
  · intro _ later hlater
    apply level_full hrate h.nonneg
    dsimp only at hlater
    linarith

/-- The run decides as the bucket does that the state stands for. -/
theorem run_log (hcap : 0 ≤ capacity) (hrate : 0 < rate) (h : Stands capacity rate s b)
    (hrun : exec (step capacity rate) s events = some t) :
    t.log = s.log ++ decisions capacity rate 1 b (requestTimes events) := by
  induction events generalizing s b with
  | nil =>
    cases hrun
    simp [requestTimes, decisions]
  | cons e events ih =>
    obtain ⟨u, hu, hrest⟩ := exec_cons hrun
    cases e with
    | request now =>
      obtain ⟨hstands, hlog⟩ := h.request hcap hrate hu
      rw [ih hstands hrest, hlog, List.append_assoc]
      rfl
    | vanish now =>
      obtain ⟨hstands, hlog⟩ := h.vanish hrate hu
      rw [ih hstands hrest, hlog]
      rfl

theorem step_clock (hs : step capacity rate s e = some t) : s.clock ≤ e.time ∧ t.clock = e.time := by
  cases e with
  | request now =>
    obtain ⟨hnow, rfl⟩ := step_request hs
    exact ⟨hnow, rfl⟩
  | vanish now =>
    obtain ⟨hnow, -, -, -, rfl⟩ := step_vanish hs
    exact ⟨hnow, rfl⟩

theorem times_sorted (hrun : exec (step capacity rate) s events = some t) :
    (s.clock :: events.map Event.time).Pairwise (· ≤ ·) := by
  induction events generalizing s with
  | nil => exact List.pairwise_singleton _ _
  | cons e events ih =>
    obtain ⟨u, hu, hrun⟩ := exec_cons hrun
    obtain ⟨hle, hclock⟩ := step_clock hu
    have hrest := ih hrun
    rw [hclock] at hrest
    rw [List.map_cons, List.pairwise_cons]
    refine ⟨?_, hrest⟩
    intro x hx
    rcases List.mem_cons.mp hx with rfl | hx
    · exact hle
    · exact hle.trans ((List.pairwise_cons.mp hrest).1 x hx)

/-- The requests of a run alone are a run too, on a key that never vanishes. -/
theorem requests_run (hrun : exec (step capacity rate) s events = some t)
    (hclock : u.clock ≤ s.clock) :
    ∃ v, exec (step capacity rate) u (events.filter Event.isRequest) = some v := by
  induction events generalizing s u with
  | nil => exact ⟨u, rfl⟩
  | cons e events ih =>
    obtain ⟨s', hs', hrest⟩ := exec_cons hrun
    obtain ⟨hle, hnext⟩ := step_clock hs'
    cases e with
    | request now =>
      have henabled : ¬ (Event.request now).time < u.clock := not_lt.mpr (hclock.trans hle)
      rw [List.filter_cons_of_pos rfl, exec, step, if_neg henabled]
      exact ih hrest hnext.ge
    | vanish now =>
      rw [List.filter_cons_of_neg (by simp [Event.isRequest])]
      exact ih hrest ((hclock.trans hle).trans hnext.ge)

theorem requestTimes_requests :
    requestTimes (events.filter Event.isRequest) = requestTimes events := by
  simp [requestTimes]

/-- A window admits at most the capacity and its refill, and the run decides every request as
it would on a key that never vanishes. -/
theorem windows_bounded (capacity rate start : ℚ) (hcap : 1 ≤ capacity) (hrate : 0 < rate)
    (events : List Event) (s : State)
    (hrun : exec (step capacity rate) { clock := start } events = some s) :
    (∀ t₁ t₂, t₁ ≤ t₂ → (admitted t₁ t₂ s.log : ℚ) ≤ capacity + rate * (t₂ - t₁)) ∧
      ∃ u, exec (step capacity rate) { clock := start } (events.filter Event.isRequest) =
        some u ∧ u.log = s.log := by
  have hnonneg : 0 ≤ capacity := zero_le_one.trans hcap
  have hfresh : Stands capacity rate { clock := start } ⟨capacity, start⟩ := by
    refine ⟨le_refl _, hnonneg, ?_, ?_⟩
    · intro k hk
      cases hk
    · intro _ now _
      have hrefill : 0 ≤ max 0 (now - start) * rate := mul_nonneg (le_max_left _ _) hrate.le
      exact min_eq_left (by linarith)
  have hlog := run_log hnonneg hrate hfresh hrun
  rw [List.nil_append] at hlog
  constructor
  · intro t₁ t₂ h
    have hsorted : (start :: requestTimes events).Pairwise (· ≤ ·) :=
      (times_sorted hrun).sublist ((List.filter_sublist.map _).cons_cons _)
    have hle : 1 * (admitted t₁ t₂ (decisions capacity rate 1 ⟨capacity, start⟩
        (requestTimes events)) : ℚ) ≤ capacity + (t₂ - t₁) * rate :=
      admitted_le hnonneg hrate.le zero_le_one hnonneg hsorted h
    rw [hlog]
    linarith
  · obtain ⟨u, hu⟩ := requests_run (u := { clock := start }) hrun (le_refl _)
    refine ⟨u, hu, ?_⟩
    rw [run_log hnonneg hrate hfresh hu, hlog, requestTimes_requests]
    rfl

/-- Capacity 1 and one token in 10 ms: the second request is denied, the key vanishes
at its deadline, 61 s later, and a third request finds a full bucket. -/
def expiringRun : List Event :=
  [.request 0, .request 5, .vanish 61005, .request 61006]

theorem expiring_run_bounded :
    let s := (exec (step 1 (1 / 10)) { clock := 0 } expiringRun).getD { clock := 0 }
    (∀ t₁ t₂, t₁ ≤ t₂ → (admitted t₁ t₂ s.log : ℚ) ≤ 1 + 1 / 10 * (t₂ - t₁)) ∧
      ∃ u, exec (step 1 (1 / 10)) { clock := 0 } (expiringRun.filter Event.isRequest) = some u ∧
        u.log = s.log :=
  windows_bounded 1 (1 / 10) 0 (le_refl _) (by norm_num) expiringRun _ (by decide +kernel)

end WaOps.RateLimit
