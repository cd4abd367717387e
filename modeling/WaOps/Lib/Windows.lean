import WaOps.Lib.TokenBucket

namespace Lib.Windows
open Lib.TokenBucket

variable {K : Type*}

structure Window (K : Type*) where
  count : ℕ
  start : K

/-- How many arrivals lie in a closed interval. -/
def arrivals [LinearOrder K] (t₁ t₂ : K) (times : List K) : ℕ :=
  times.countP (fun t => t₁ ≤ t ∧ t ≤ t₂)

variable [LinearOrder K] [Field K]

/-- The window an arrival leaves, which counts it. -/
def arrive (width : K) : Option (Window K) → K → Window K
  | none, t => { count := 1, start := t }
  | some w, t =>
    if width < t - w.start then { count := 1, start := t } else { w with count := w.count + 1 }

/-- The arrivals, each with whether it is among the first ones of its window. -/
def decisions (limit width : K) : Option (Window K) → List K → List (K × Bool)
  | _, [] => []
  | w, t :: times =>
    (t, decide (((arrive width w t).count : K) ≤ limit)) ::
      decisions limit width (some (arrive width w t)) times

variable {limit width t t₁ t₂ : K} {w : Option (Window K)} {v : Window K} {times earlier : List K}

/-- All an arrival can do: open a window after the end of the last one, or join it. -/
theorem arrive_cases (width : K) (w : Option (Window K)) (t : K) :
    ((∀ v, w = some v → width < t - v.start) ∧ arrive width w t = { count := 1, start := t }) ∨
    ∃ v, w = some v ∧ t - v.start ≤ width ∧ arrive width w t = { v with count := v.count + 1 } := by
  cases w with
  | none =>
    refine .inl ⟨?_, rfl⟩
    intro v hv
    cases hv
  | some v =>
    by_cases h : width < t - v.start
    · refine .inl ⟨?_, by simp [arrive, h]⟩
      intro u hu
      cases hu
      exact h
    · exact .inr ⟨v, rfl, not_lt.mp h, by simp [arrive, h]⟩

theorem decisions_times (limit width : K) (w : Option (Window K)) (times : List K) :
    (decisions limit width w times).map Prod.fst = times := by
  induction times generalizing w with
  | nil => rfl
  | cons t times ih => rw [decisions, List.map_cons, ih]

theorem admitted_late (h : ∀ t ∈ times, t₂ < t) :
    admitted t₁ t₂ (decisions limit width w times) = 0 := by
  rw [admitted, List.length_eq_zero_iff, List.filter_eq_nil_iff]
  intro d hd
  have ht : d.1 ∈ times := by
    rw [← decisions_times limit width w times]
    exact List.mem_map_of_mem hd
  simp [not_le.mpr (h d.1 ht)]

/-- What one more arrival adds to the admitted ones. -/
theorem admitted_decisions_cons :
    (admitted t₁ t₂ (decisions limit width w (t :: times)) : K) =
      (admitted t₁ t₂ (decisions limit width (some (arrive width w t)) times) : K) +
        if ((arrive width w t).count : K) ≤ limit ∧ t₁ ≤ t ∧ t ≤ t₂ then 1 else 0 := by
  rw [decisions, admitted_cons]
  simp

/-- A window counts no more than has arrived in it. -/
def Counted (width : K) (earlier : List K) (w : Option (Window K)) : Prop :=
  ∀ v, w = some v → v.start ∈ earlier ∧ v.count ≤ arrivals v.start (v.start + width) earlier

theorem counted_none : Counted width [] (none : Option (Window K)) := by
  intro v hv
  cases hv

variable [IsStrictOrderedRing K]

/-- An arrival that joins the window takes one of the places left in it. -/
theorem places_left (n : ℕ) (limit : K) {p : Prop} [Decidable p] :
    max 0 (limit - ((n + 1 : ℕ) : K)) + (if ((n + 1 : ℕ) : K) ≤ limit ∧ p then 1 else 0) ≤
      max 0 (limit - n) := by
  by_cases hfit : ((n + 1 : ℕ) : K) ≤ limit
  · have hle : (n : K) + 1 ≤ limit := by exact_mod_cast hfit
    rw [max_eq_right (by linarith), max_eq_right (by linarith)]
    split
    · push_cast
      linarith
    · push_cast
      linarith
  · rw [if_neg (fun h => hfit h.1), max_eq_left (by linarith [not_le.mp hfit]), add_zero]
    exact le_max_left _ _

/-- From a window that starts in the interval only that window's arrivals still lie in it. -/
theorem admitted_within (limit width : K) (hstart : t₁ ≤ v.start)
    (hsorted : times.Pairwise (· ≤ ·)) :
    (admitted t₁ (t₁ + width) (decisions limit width (some v) times) : K) ≤
      max 0 (limit - v.count) := by
  induction times generalizing v with
  | nil => exact le_trans (le_of_eq Nat.cast_zero) (le_max_left _ _)
  | cons t times ih =>
    obtain ⟨hle, htail⟩ := List.pairwise_cons.mp hsorted
    rcases arrive_cases width (some v) t with ⟨hopens, harrive⟩ | ⟨_, ⟨rfl⟩, _, harrive⟩
    · have hlate : t₁ + width < t := by linarith [hopens v rfl]
      rw [admitted_late]
      · exact le_trans (le_of_eq Nat.cast_zero) (le_max_left _ _)
      · intro u hu
        rcases List.mem_cons.mp hu with rfl | hu
        · exact hlate
        · exact lt_of_lt_of_le hlate (hle u hu)
    · rw [admitted_decisions_cons, harrive]
      have hrest := ih (v := { v with count := v.count + 1 }) hstart htail
      exact le_trans (add_le_add_left hrest _) (places_left v.count limit)

/-- An arrival in the interval that opens a window: with those that join it, a limit's worth. -/
theorem admitted_opening (hlimit : 1 ≤ limit) (ht : t₁ ≤ t)
    (harrive : arrive width w t = { count := 1, start := t })
    (hsorted : times.Pairwise (· ≤ ·)) :
    (admitted t₁ (t₁ + width) (decisions limit width w (t :: times)) : K) ≤ limit := by
  rw [admitted_decisions_cons, harrive]
  have hrest := admitted_within (v := { count := 1, start := t }) limit width ht hsorted
  rw [Nat.cast_one, max_eq_right (by linarith)] at hrest
  split <;> linarith

/-- Once the interval has begun, its arrivals join the window that was open or open the one
window that can follow it there. -/
theorem admitted_begun (width : K) (hlimit : 1 ≤ limit) (hbegun : ∀ t ∈ times, t₁ ≤ t)
    (hsorted : times.Pairwise (· ≤ ·)) :
    (admitted t₁ (t₁ + width) (decisions limit width (some v) times) : K) ≤
      max 0 (limit - v.count) + limit := by
  have hpos : 0 ≤ max 0 (limit - v.count) := le_max_left _ _
  induction times generalizing v with
  | nil =>
    rw [decisions, admitted, List.filter_nil, List.length_nil, Nat.cast_zero]
    linarith
  | cons t times ih =>
    obtain ⟨_, htail⟩ := List.pairwise_cons.mp hsorted
    rcases arrive_cases width (some v) t with ⟨_, harrive⟩ | ⟨_, ⟨rfl⟩, _, harrive⟩
    · linarith [admitted_opening hlimit (hbegun t List.mem_cons_self) harrive htail]
    · rw [admitted_decisions_cons, harrive]
      have hrest := ih (v := { v with count := v.count + 1 })
        (fun u hu => hbegun u (List.mem_cons_of_mem t hu)) htail (le_max_left _ _)
      have hplaces := places_left (p := t₁ ≤ t ∧ t ≤ t₁ + width) v.count limit
      linarith

/-- At most two windows have arrivals in a closed interval of their width. -/
theorem admitted_le_two_limits (hlimit : 1 ≤ limit) (hsorted : times.Pairwise (· ≤ ·)) :
    (admitted t₁ (t₁ + width) (decisions limit width w times) : K) ≤ 2 * limit := by
  induction times generalizing w with
  | nil =>
    rw [decisions, admitted, List.filter_nil, List.length_nil, Nat.cast_zero]
    linarith
  | cons t times ih =>
    obtain ⟨hle, htail⟩ := List.pairwise_cons.mp hsorted
    by_cases ht : t₁ ≤ t
    · rcases arrive_cases width w t with ⟨_, harrive⟩ | ⟨v, rfl, _, _⟩
      · linarith [admitted_opening hlimit ht harrive htail]
      · have hbegun : ∀ u ∈ t :: times, t₁ ≤ u := by
          intro u hu
          rcases List.mem_cons.mp hu with rfl | hu
          · exact ht
          · exact le_trans ht (hle u hu)
        have hplaces : max 0 (limit - (v.count : K)) ≤ limit := by
          have hcount : (0 : K) ≤ v.count := Nat.cast_nonneg _
          exact max_le (by linarith) (by linarith)
        linarith [admitted_begun (v := v) width hlimit hbegun hsorted]
    · rw [admitted_decisions_cons, if_neg (fun h => ht h.2.1), add_zero]
      exact ih htail

theorem counted_arrive (hwidth : 0 < width) (h : Counted width earlier w)
    (hlate : ∀ u ∈ earlier, u ≤ t) :
    Counted width (earlier ++ [t]) (some (arrive width w t)) := by
  intro u hu
  cases hu
  rcases arrive_cases width w t with ⟨_, harrive⟩ | ⟨v, rfl, hin, harrive⟩
  · rw [harrive]
    refine ⟨by simp, ?_⟩
    rw [arrivals, List.countP_append]
    simp [hwidth.le]
  · rw [harrive]
    obtain ⟨hmem, hcount⟩ := h v rfl
    refine ⟨List.mem_append_left _ hmem, ?_⟩
    have hjoins : v.start ≤ t ∧ t ≤ v.start + width := ⟨hlate _ hmem, by linarith⟩
    rw [arrivals, List.countP_append, List.countP_singleton, if_pos (by simpa using hjoins)]
    exact Nat.add_le_add_right hcount 1

/-- Where no interval of the width has more arrivals than the limit, every arrival is admitted. -/
theorem decisions_quiet (earlier : List K) (hwidth : 0 < width) (h : Counted width earlier w)
    (hsorted : (earlier ++ times).Pairwise (· ≤ ·))
    (hquiet : ∀ s, (arrivals s (s + width) (earlier ++ times) : K) ≤ limit) :
    ∀ d ∈ decisions limit width w times, d.2 = true := by
  induction times generalizing w earlier with
  | nil =>
    intro d hd
    cases hd
  | cons t times ih =>
    have hnext : Counted width (earlier ++ [t]) (some (arrive width w t)) :=
      counted_arrive hwidth h fun u hu =>
        (List.pairwise_append.mp hsorted).2.2 u hu t List.mem_cons_self
    rw [List.append_cons] at hsorted hquiet
    intro d hd
    rcases List.mem_cons.mp hd with rfl | hd
    · obtain ⟨_, hcount⟩ := hnext _ rfl
      have hle : (arrive width w t).count ≤
          arrivals (arrive width w t).start ((arrive width w t).start + width)
            ((earlier ++ [t]) ++ times) := by
        rw [arrivals, List.countP_append]
        exact Nat.le_add_right_of_le hcount
      have hcast : ((arrive width w t).count : K) ≤ _ := Nat.cast_le.mpr hle
      exact decide_eq_true (le_trans hcast (hquiet _))
    · exact ih (earlier ++ [t]) hnext hsorted hquiet d hd

end Lib.Windows
