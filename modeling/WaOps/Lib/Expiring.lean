import Mathlib.Data.List.Induction
import Mathlib.Data.Option.Basic
import Mathlib.Order.Lattice

namespace Lib.Expiring

variable {κ T : Type*} [LinearOrder T]

structure Counter (T : Type*) where
  value : ℕ
  expireAt : T

/-- The keys that are still there at a time. -/
def present (s : κ → Option (Counter T)) (now : T) : κ → Option (Counter T) :=
  fun k => (s k).filter fun c => now < c.expireAt

def value (c : Option (Counter T)) : ℕ :=
  c.elim 0 Counter.value

theorem present_present {s : κ → Option (Counter T)} {t now : T} (h : t ≤ now) :
    present (present s t) now = present s now := by
  funext k
  cases hk : s k with
  | none => simp [present, hk]
  | some c =>
    by_cases hc : now < c.expireAt
    · have ht : t < c.expireAt := lt_of_le_of_lt h hc
      simp [present, hk, hc, ht, Option.filter]
    · by_cases ht : t < c.expireAt <;> simp [present, hk, hc, ht, Option.filter]

variable [DecidableEq κ]

/-- One more under a key, in one step with its new deadline. -/
def incrExpire (deadline : T → T) (s : κ → Option (Counter T)) (k : κ) (now : T) :
    κ → Option (Counter T) :=
  Function.update (present s now) k
    (some { value := value (present s now k) + 1, expireAt := deadline now })

/-- The increments in the order in which they come, from no keys at all. -/
def counters (deadline : T → T) (incrs : List (κ × T)) : κ → Option (Counter T) :=
  incrs.foldl (fun s i => incrExpire deadline s i.1 i.2) (fun _ => none)

variable {deadline : T → T} {s : κ → Option (Counter T)} {k : κ} {t now : T}
  {incrs : List (κ × T)}

theorem present_incr_self (h : now < deadline t) :
    present (incrExpire deadline s k t) now k =
      some { value := value (present s t k) + 1, expireAt := deadline t } := by
  simp [present, incrExpire, h, Option.filter]

theorem present_incr_other {j : κ} (hj : k ≠ j) (h : t ≤ now) :
    present (incrExpire deadline s j t) now k = present s now k := by
  have hkept : present (incrExpire deadline s j t) now k = present (present s t) now k := by
    simp only [present, incrExpire, Function.update_of_ne hj]
  rw [hkept, present_present h]

theorem counters_concat (j : κ) (t : T) :
    counters deadline (incrs ++ [(j, t)]) = incrExpire deadline (counters deadline incrs) j t := by
  rw [counters, List.foldl_append]
  rfl

/-- A counter is exact as long as the deadline of no increment of its key has passed. -/
theorem value_counters (hsorted : incrs.Pairwise (fun i j => i.2 ≤ j.2))
    (hnow : ∀ i ∈ incrs, i.2 ≤ now) (hfresh : ∀ i ∈ incrs, i.1 = k → now < deadline i.2) :
    value (present (counters deadline incrs) now k) = incrs.countP (fun i => i.1 = k) := by
  induction incrs using List.reverseRecOn generalizing now with
  | nil => rfl
  | append_singleton incrs i ih =>
    obtain ⟨j, t⟩ := i
    obtain ⟨hbefore, -, hlast⟩ := List.pairwise_append.mp hsorted
    have ht : t ≤ now := hnow (j, t) (by simp)
    rw [counters_concat, List.countP_append, List.countP_singleton]
    by_cases hj : k = j
    · subst hj
      rw [present_incr_self (hfresh (k, t) (by simp) rfl)]
      have hearlier : value (present (counters deadline incrs) t k) =
          incrs.countP (fun i => i.1 = k) :=
        ih hbefore (fun i hi => hlast i hi (k, t) (by simp))
          (fun i hi hik => lt_of_le_of_lt ht (hfresh i (by simp [hi]) hik))
      simp [value, ← hearlier]
    · rw [present_incr_other hj ht, if_neg (by simpa using Ne.symm hj), Nat.add_zero]
      exact ih hbefore (fun i hi => hnow i (by simp [hi])) (fun i hi => hfresh i (by simp [hi]))

end Lib.Expiring
