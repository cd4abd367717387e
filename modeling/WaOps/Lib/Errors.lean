import WaOps.Lib.Tables

namespace Lib.Errors
open Scoped Tables

variable {σ ε ι τ α β : Type} {E : ε → Prop}

def Throws (E : ε → Prop) (c : Comp σ ε α) : Prop :=
  ∀ s e, (outcome c s).1 = .error e → E e

theorem Throws.pure {a : α} : Throws E (pure a : Comp σ ε α) := by
  intro s e h
  cases h

theorem Throws.throw {e : ε} (he : E e) : Throws E (throw e : Comp σ ε α) := by
  intro s e' h
  cases h
  exact he

theorem Throws.query {f : σ → α} : Throws E (query f) := by
  intro s e h
  cases h

theorem Throws.bind {c : Comp σ ε α} {k : α → Comp σ ε β} (hc : Throws E c)
    (hk : ∀ a, Throws E (k a)) : Throws E (c >>= k) := by
  intro s e h
  rw [outcome_bind] at h
  rcases hcs : outcome c s with ⟨e' | a, t⟩
  · rw [hcs] at h
    cases h
    exact hc s e (by rw [hcs])
  · rw [hcs] at h
    exact hk a t e h

theorem Throws.map {c : Comp σ ε α} {f : α → β} (hc : Throws E c) : Throws E (f <$> c) := by
  rw [map_eq_pure_bind]
  exact Throws.bind hc fun _ => Throws.pure

theorem Throws.transaction {c : Comp σ ε α} (hc : Throws E c) : Throws E (transaction c) := by
  intro s e h
  rw [outcome_transaction] at h
  rcases hcs : outcome c s with ⟨e' | a, t⟩
  · rw [hcs] at h
    cases h
    exact hc s e (by rw [hcs])
  · rw [hcs] at h
    cases h

variable {S : Schema ι τ} [DecidableEq ι] {i : ι} [∀ i, DecidableEq (S.Key i)] {e : ε}

/-- A statement on a table fails with the one error it is given. -/
theorem create_throws (he : E e) (r : S.Row i) : Throws E (create (S := S) e i r) := by
  intro s e' h
  by_cases hr : S.key r ∈ (s i).rows.map S.key
  · rw [create_taken hr] at h
    cases h
    exact he
  · rw [create_new hr] at h
    cases h

theorem update_throws (he : E e) (k : S.Key i) (f : S.Row i → S.Row i)
    (hf : ∀ r, S.key (f r) = S.key r) : Throws E (update (S := S) e i k f hf) := by
  intro s e' h
  by_cases hr : ∃ r ∈ (s i).rows, S.key r = k
  · obtain ⟨r, hr, hk⟩ := hr
    rw [update_found hr hk] at h
    cases h
  · rw [update_missing (by simpa using hr)] at h
    cases h
    exact he

end Lib.Errors
