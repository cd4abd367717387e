import Mathlib.Data.List.Nodup

namespace Lib.Upserts

variable {ρ κ γ : Type*} [DecidableEq κ] {key : ρ → Option κ} {rows : List ρ} {r new : ρ}
  {k k' : κ} {f : ρ → ρ}

/-- The row of a key. Of two rows one key belongs to at most one; a row may have none. -/
def lookup (key : ρ → Option κ) (k : κ) (rows : List ρ) : Option ρ :=
  rows.find? (fun r => key r = some k)

def change (key : ρ → Option κ) (k : κ) (f : ρ → ρ) (rows : List ρ) : List ρ :=
  rows.map (fun r => if key r = some k then f r else r)

/-- The row of the key is changed; where there is none, a new one comes last. -/
def upsert (key : ρ → Option κ) (k : κ) (new : ρ) (f : ρ → ρ) (rows : List ρ) : List ρ :=
  if (lookup key k rows).isSome then change key k f rows else rows ++ [new]

theorem lookup_key (h : lookup key k rows = some r) : r ∈ rows ∧ key r = some k := by
  have hkey := List.find?_some h
  exact ⟨List.mem_of_find?_eq_some h, by simpa using hkey⟩

theorem lookup_none : lookup key k rows = none ↔ ∀ r ∈ rows, key r ≠ some k := by
  simp [lookup]

/-- What a change of a row leaves as it was. -/
theorem change_map {g : ρ → γ} (hg : ∀ r, g (f r) = g r) :
    (change key k f rows).map g = rows.map g := by
  rw [change, List.map_map]
  apply List.map_congr_left
  intro r _
  simp only [Function.comp_apply]
  split
  · exact hg r
  · rfl

theorem change_filterMap {g : ρ → Option γ} (hg : ∀ r, g (f r) = g r) :
    (change key k f rows).filterMap g = rows.filterMap g := by
  rw [change, List.filterMap_map]
  apply List.filterMap_congr
  intro r _
  simp only [Function.comp_apply]
  split
  · exact hg r
  · rfl

theorem lookup_change (hf : ∀ r, key (f r) = key r) : lookup key k' (change key k f rows) =
    if k' = k then (lookup key k rows).map f else lookup key k' rows := by
  induction rows with
  | nil => simp [lookup, change]
  | cons r rows ih =>
    simp only [lookup, change, List.map_cons, List.find?_cons] at ih ⊢
    have hsame : key (if key r = some k then f r else r) = key r := by
      split
      · exact hf r
      · rfl
    rw [hsame, ih]
    by_cases hk : k' = k
    · subst hk
      by_cases hr : key r = some k' <;> simp [hr]
    · by_cases hr : key r = some k' <;> simp [hk, hr]

theorem lookup_concat : lookup key k (rows ++ [new]) =
    (lookup key k rows).or (if key new = some k then some new else none) := by
  simp only [lookup, List.find?_append, List.find?_singleton, decide_eq_true_eq]

/-- The row of the key after an upsert. -/
theorem lookup_upsert (hnew : key new = some k) (hf : ∀ r, key (f r) = key r) :
    lookup key k (upsert key k new f rows) = some (((lookup key k rows).map f).getD new) := by
  unfold upsert
  cases h : lookup key k rows with
  | none => simp [lookup_concat, h, hnew]
  | some r => simp [lookup_change hf, h]

theorem lookup_upsert_other (hnew : key new = some k) (hf : ∀ r, key (f r) = key r)
    (hk : k' ≠ k) : lookup key k' (upsert key k new f rows) = lookup key k' rows := by
  unfold upsert
  split
  · simp [lookup_change hf, hk]
  · have hne : key new ≠ some k' := by
      rw [hnew]
      exact fun h => hk (Option.some.inj h).symm
    simp [lookup_concat, hne]

/-- Where the keys are apart, the rows of a key are the one that is found. -/
theorem filter_key (h : (rows.filterMap key).Nodup) :
    rows.filter (fun r => key r = some k) = (lookup key k rows).toList := by
  induction rows with
  | nil => rfl
  | cons r rows ih =>
    rw [List.filterMap_cons] at h
    by_cases hr : key r = some k
    · simp only [hr, List.nodup_cons] at h
      have hrest : rows.filter (fun r => key r = some k) = [] := by
        rw [List.filter_eq_nil_iff]
        intro r' hr' hk
        exact h.1 (List.mem_filterMap.mpr ⟨r', hr', by simpa using hk⟩)
      simp [lookup, hr, hrest]
    · have hrows : (rows.filterMap key).Nodup := by
        split at h
        · exact h
        · exact (List.nodup_cons.mp h).2
      have htail := ih hrows
      simp only [lookup] at htail ⊢
      simp [hr, htail]

end Lib.Upserts
