import Mathlib.Data.List.DropRight
import Mathlib.Data.List.Nodup

namespace Lib.Recent

variable {κ : Type*} [DecidableEq κ] {n : ℕ} {key : κ} {keys taken : List κ}

/-- What is remembered and what has been taken so far. -/
abbrev Ledger (κ : Type*) := List κ × List κ

def offer (n : ℕ) (l : Ledger κ) (key : κ) : Ledger κ :=
  if key ∈ l.1 then l
  else
    let queue := l.1 ++ [key]
    (if queue.length > n then queue.drop 1 else queue, l.2 ++ [key])

/-- A key that comes again is one of the last `n` different keys. -/
def Spaced (n : ℕ) (keys : List κ) : Prop :=
  ∀ i < keys.length, ∀ key ∈ keys[i]?, key ∈ keys.take i →
    key ∈ (keys.take i).eraseDups.rtake n

instance : Decidable (Spaced n keys) :=
  inferInstanceAs (Decidable (∀ i < keys.length, _))

theorem spaced_nil : Spaced n ([] : List κ) := by
  intro i hi
  cases hi

theorem spaced_concat : Spaced n (keys ++ [key]) ↔
    Spaced n keys ∧ (key ∈ keys → key ∈ keys.eraseDups.rtake n) := by
  constructor
  · intro h
    refine ⟨?_, ?_⟩
    · intro i hi k hk hmem
      have hget : (keys ++ [key])[i]? = some k := by
        rw [List.getElem?_append_left hi]
        exact hk
      have htake : (keys ++ [key]).take i = keys.take i :=
        List.take_append_of_le_length (Nat.le_of_lt hi)
      have hlast := h i (by simp; omega) k hget
      rw [htake] at hlast
      exact hlast hmem
    · have hlast := h keys.length (by simp) key (by simp)
      rwa [List.take_left] at hlast
  · intro ⟨h, hkey⟩ i hi k hk
    by_cases hlast : i = keys.length
    · subst hlast
      have hk : k = key := by simpa using hk.symm
      rw [List.take_left, hk]
      exact hkey
    · have hi : i < keys.length := by
        rw [List.length_append, List.length_singleton] at hi
        omega
      rw [List.take_append_of_le_length (Nat.le_of_lt hi)]
      rw [List.getElem?_append_left hi] at hk
      exact h i hi k hk

omit [DecidableEq κ] in
/-- The last `n` move on by one key. -/
theorem rtake_concat : (taken ++ [key]).rtake n =
    if (taken.rtake n ++ [key]).length > n then (taken.rtake n ++ [key]).drop 1
    else taken.rtake n ++ [key] := by
  simp only [List.rtake, List.length_append, List.length_drop, List.length_singleton]
  by_cases hn : n ≤ taken.length
  · rw [if_pos (by omega)]
    have hcut : taken.length + 1 - n = (taken.length - n) + 1 := by omega
    have hdrop : taken.drop (taken.length - n) ++ [key] =
        (taken ++ [key]).drop (taken.length - n) := by
      rw [List.drop_append_of_le_length (by omega)]
    rw [hcut, hdrop, List.drop_drop]
  · have hcut : taken.length + 1 - n = 0 := by omega
    have hnone : taken.length - n = 0 := by omega
    rw [if_neg (by omega), hcut, hnone, List.drop_zero, List.drop_zero]

theorem eraseDups_concat : (keys ++ [key]).eraseDups =
    if key ∈ keys then keys.eraseDups else keys.eraseDups ++ [key] := by
  rw [List.eraseDups_append]
  by_cases h : key ∈ keys <;> simp [List.removeAll, List.eraseDups_cons, h]

theorem offer_kept {l : Ledger κ} (h : (offer n l key).2.Nodup) : l.2.Nodup := by
  unfold offer at h
  split at h
  · exact h
  · exact (List.nodup_append.mp h).1

/-- A key that is taken without being a duplicate was not taken before. -/
theorem offer_new {l : Ledger κ} (h : (offer n l key).2.Nodup) (hrecent : key ∉ l.1) :
    key ∉ l.2 := by
  rw [offer, if_neg hrecent] at h
  intro hkey
  exact (List.nodup_append.mp h).2.2 key hkey key (List.mem_singleton_self key) rfl

/-- As long as no key was taken twice, the keys were taken as they first came. -/
theorem offered (h : (keys.foldl (offer n) ([], [])).2.Nodup) :
    keys.foldl (offer n) ([], []) = (keys.eraseDups.rtake n, keys.eraseDups) := by
  induction keys using List.reverseRecOn with
  | nil => simp
  | append_singleton keys key ih =>
    rw [List.foldl_concat] at h ⊢
    have hfold := ih (offer_kept h)
    rw [hfold] at h ⊢
    rw [eraseDups_concat]
    by_cases hrecent : key ∈ keys.eraseDups.rtake n
    · have hkey : key ∈ keys := by
        have hsub := List.drop_subset (keys.eraseDups.length - n) keys.eraseDups
        exact List.mem_eraseDups.mp (hsub hrecent)
      simp [offer, hrecent, hkey]
    · have hnew : key ∉ keys := fun hkey =>
        offer_new h hrecent (List.mem_eraseDups.mpr hkey)
      simp only [offer, hrecent, hnew, if_false, rtake_concat]

/-- No key is taken twice exactly when those that come again are remembered. -/
theorem nodup_iff_spaced : (keys.foldl (offer n) ([], [])).2.Nodup ↔ Spaced n keys := by
  induction keys using List.reverseRecOn with
  | nil => simp [spaced_nil]
  | append_singleton keys key ih =>
    rw [spaced_concat, ← ih, List.foldl_concat]
    constructor
    · intro h
      refine ⟨offer_kept h, ?_⟩
      intro hkey
      have hfold := offered (offer_kept h)
      rw [hfold] at h
      by_contra hrecent
      exact offer_new h hrecent (List.mem_eraseDups.mpr hkey)
    · intro ⟨hkept, hkey⟩
      rw [offered hkept]
      have hnodup : keys.eraseDups.Nodup := by
        rw [offered hkept] at hkept
        exact hkept
      unfold offer
      split
      · exact hnodup
      · rename_i hrecent
        have hnew : key ∉ keys := fun h => hrecent (hkey h)
        exact List.Nodup.append hnodup (List.nodup_singleton key) (by simpa using hnew)

end Lib.Recent
