import Mathlib.Data.List.Nodup
import Mathlib.Logic.Function.Basic
import WaOps.Lib.Scoped

namespace Lib.Tables
open Scoped

/-- Tables by name: their rows, what a row's key is and who owns it. -/
structure Schema (ι τ : Type) where
  Row : ι → Type
  Key : ι → Type
  key : {i : ι} → Row i → Key i
  owner : {i : ι} → Row i → Option τ

variable {ι τ ε : Type} {S : Schema ι τ}

/-- The rows in the order the database returns them; no two have one key. -/
structure Table (S : Schema ι τ) (i : ι) where
  rows : List (S.Row i)
  unique : (rows.map S.key).Nodup

abbrev Store (S : Schema ι τ) : Type := ∀ i, Table S i

abbrev Rows (S : Schema ι τ) : Type := ∀ i, List (S.Row i)

variable {i : ι} {s : Store S} {p : S.Row i → Bool} {r : S.Row i}

def findMany (i : ι) (p : S.Row i → Bool) : Comp (Store S) ε (List (S.Row i)) :=
  query (fun s => (s i).rows.filter p)

def findFirst (i : ι) (p : S.Row i → Bool) : Comp (Store S) ε (Option (S.Row i)) :=
  query (fun s => (s i).rows.find? p)

theorem findFirst_ok {found : Option (S.Row i)} {t : Store S}
    (h : outcome (findFirst i p : Comp (Store S) ε _) s = (.ok found, t)) :
    (s i).rows.find? p = found ∧ t = s := by
  cases h
  exact ⟨rfl, rfl⟩

def Table.insert (t : Table S i) (r : S.Row i) (h : S.key r ∉ t.rows.map S.key) : Table S i where
  rows := t.rows ++ [r]
  unique := by
    rw [List.map_append, List.nodup_append]
    refine ⟨t.unique, List.nodup_singleton _, ?_⟩
    intro k hk k' hk' he
    simp only [List.map_cons, List.map_nil, List.mem_singleton] at hk'
    exact h (hk' ▸ he ▸ hk)

section Keys
variable [∀ i, DecidableEq (S.Key i)] {k : S.Key i} {f : S.Row i → S.Row i}

def Table.update (t : Table S i) (k : S.Key i) (f : S.Row i → S.Row i)
    (hf : ∀ r, S.key (f r) = S.key r) : Table S i where
  rows := t.rows.map (fun r => if S.key r = k then f r else r)
  unique := by
    have hkeys : (t.rows.map (fun r => if S.key r = k then f r else r)).map S.key =
        t.rows.map S.key := by
      rw [List.map_map]
      apply List.map_congr_left
      intro r _
      simp only [Function.comp_apply]
      split
      · exact hf r
      · rfl
    rw [hkeys]
    exact t.unique

theorem find_key (hr : r ∈ (s i).rows) (hk : S.key r = k) :
    (s i).rows.find? (fun r => S.key r = k) = some r := by
  cases h : (s i).rows.find? (fun r => S.key r = k) with
  | none =>
    have := List.find?_eq_none.mp h r hr
    simp [hk] at this
  | some r' =>
    have hk' : S.key r' = k := by simpa using List.find?_some h
    have hr' := List.mem_of_find?_eq_some h
    rw [List.inj_on_of_nodup_map (s i).unique hr' hr (hk'.trans hk.symm)]

theorem update_filter {t : Table S i} {hf : ∀ r, S.key (f r) = S.key r}
    (hp : ∀ r, p (f r) = p r) : (t.update k f hf).rows.filter p =
      (t.rows.filter p).map (fun r => if S.key r = k then f r else r) := by
  rw [Table.update, List.filter_map]
  congr 1
  apply List.filter_congr
  intro r _
  simp only [Function.comp_apply]
  split
  · exact hp r
  · rfl

variable [DecidableEq ι]

/-- Adds a row, or fails where its key is taken. -/
def create (e : ε) (i : ι) (r : S.Row i) : Comp (Store S) ε (S.Row i) :=
  statement fun s =>
    if h : S.key r ∉ (s i).rows.map S.key then
      (.ok r, Function.update s i ((s i).insert r h))
    else (.error e, s)

/-- Changes the row with a key, or fails where there is none. -/
def update (e : ε) (i : ι) (k : S.Key i) (f : S.Row i → S.Row i)
    (hf : ∀ r, S.key (f r) = S.key r := by intro; rfl) : Comp (Store S) ε (S.Row i) :=
  statement fun s =>
    match (s i).rows.find? (fun r => S.key r = k) with
    | some r => (.ok (f r), Function.update s i ((s i).update k f hf))
    | none => (.error e, s)

variable {hf : ∀ r, S.key (f r) = S.key r} {e : ε}

theorem create_new (h : S.key r ∉ (s i).rows.map S.key) :
    outcome (create e i r) s = (.ok r, Function.update s i ((s i).insert r h)) :=
  dif_pos h

theorem create_taken (h : S.key r ∈ (s i).rows.map S.key) :
    outcome (create e i r) s = (.error e, s) :=
  dif_neg (not_not.mpr h)

theorem create_ok {a : S.Row i} {t : Store S} (h : outcome (create e i r) s = (.ok a, t)) :
    ∃ hnew : S.key r ∉ (s i).rows.map S.key, a = r ∧
      t = Function.update s i ((s i).insert r hnew) := by
  by_cases hnew : S.key r ∈ (s i).rows.map S.key
  · rw [create_taken hnew] at h
    cases h
  · rw [create_new hnew] at h
    cases h
    exact ⟨hnew, rfl, rfl⟩

theorem update_ok {a : S.Row i} {t : Store S} (h : outcome (update e i k f hf) s = (.ok a, t)) :
    ∃ r, (s i).rows.find? (fun r => S.key r = k) = some r ∧ a = f r ∧
      t = Function.update s i ((s i).update k f hf) := by
  simp only [update, outcome_statement] at h
  split at h
  · rename_i r hr
    cases h
    exact ⟨r, hr, rfl, rfl⟩
  · cases h

theorem update_found (hr : r ∈ (s i).rows) (hk : S.key r = k) :
    outcome (update e i k f hf) s = (.ok (f r), Function.update s i ((s i).update k f hf)) := by
  simp only [update, outcome_statement, find_key hr hk]

theorem update_missing (h : ∀ r ∈ (s i).rows, S.key r ≠ k) :
    outcome (update e i k f hf) s = (.error e, s) := by
  have hnone : (s i).rows.find? (fun r => S.key r = k) = none := by
    rw [List.find?_eq_none]
    simpa using h
  simp only [update, outcome_statement, hnone]

end Keys

section Elsewhere
variable [DecidableEq ι] [∀ i, DecidableEq (S.Key i)] {j : ι} {t : Table S j} {e : ε}

/-- A write leaves the other tables as they are. -/
theorem create_elsewhere (hj : i ≠ j) : Keeps (fun s => s j = t) (create e i r) := by
  intro s hs
  simp only [create, outcome_statement]
  split
  · exact (Function.update_of_ne hj.symm _ _).trans hs
  · exact hs

theorem update_elsewhere {k : S.Key i} {f : S.Row i → S.Row i} {hf : ∀ r, S.key (f r) = S.key r}
    (hj : i ≠ j) : Keeps (fun s => s j = t) (update e i k f hf) := by
  intro s hs
  simp only [update, outcome_statement]
  split
  · exact (Function.update_of_ne hj.symm _ _).trans hs
  · exact hs

end Elsewhere

/-- Every row of a table is as asked. -/
def Holds (i : ι) (p : S.Row i → Prop) (s : Store S) : Prop :=
  ∀ r ∈ (s i).rows, p r

section Holds
variable [DecidableEq ι] {j : ι} {p : S.Row i → Prop} {e : ε}

theorem holds_put_other {t : Table S j} (hj : j ≠ i) (h : Holds i p s) :
    Holds i p (Function.update s j t) := by
  unfold Holds
  rw [Function.update_of_ne hj.symm]
  exact h

theorem holds_put {t : Table S i} (h : ∀ r ∈ t.rows, p r) : Holds i p (Function.update s i t) := by
  unfold Holds
  rw [Function.update_self]
  exact h

variable [∀ i, DecidableEq (S.Key i)]

theorem create_keeps {r : S.Row i} (hr : p r) : Keeps (Holds i p) (create e i r) := by
  intro s h
  simp only [create, outcome_statement]
  split
  · apply holds_put
    intro r' hr'
    rcases List.mem_append.mp hr' with hr' | hr'
    · exact h r' hr'
    · rw [List.mem_singleton.mp hr']
      exact hr
  · exact h

theorem create_keeps_other {r : S.Row j} (hj : j ≠ i) :
    Keeps (Holds i p) (create e j r) := by
  intro s h
  simp only [create, outcome_statement]
  split
  · exact holds_put_other hj h
  · exact h

theorem update_keeps {k : S.Key i} {f : S.Row i → S.Row i} {hf : ∀ r, S.key (f r) = S.key r}
    (hp : ∀ r, p r → p (f r)) : Keeps (Holds i p) (update e i k f hf) := by
  intro s h
  simp only [update, outcome_statement]
  split
  · apply holds_put
    intro r' hr'
    obtain ⟨r, hr, rfl⟩ := List.mem_map.mp hr'
    split
    · exact hp r (h r hr)
    · exact h r hr
  · exact h

theorem update_keeps_other {k : S.Key j} {f : S.Row j → S.Row j}
    {hf : ∀ r, S.key (f r) = S.key r} (hj : j ≠ i) : Keeps (Holds i p) (update e j k f hf) := by
  intro s h
  simp only [update, outcome_statement]
  split
  · exact holds_put_other hj h
  · exact h

end Holds

variable [DecidableEq τ] {u : τ} {H P : Rows S → Prop}

def own (u : τ) (s : Store S) : Rows S :=
  fun i => (s i).rows.filter (fun r => S.owner r = some u)

def rest (u : τ) (s : Store S) : Rows S :=
  fun i => (s i).rows.filter (fun r => S.owner r ≠ some u)

/-- The store without the other tenants' rows. -/
def only (u : τ) (s : Store S) : Store S := fun i =>
  { rows := own u s i
    unique := (s i).unique.sublist (List.filter_sublist.map S.key) }

theorem own_only : own u (only u s) = own u s := by
  funext i
  simp [own, only]

theorem rest_only : rest u (only u s) = fun _ => [] := by
  funext i
  simp [rest, only, own]

theorem owner_rest (h : r ∈ rest u s i) : S.owner r ≠ some u := by
  simpa using (List.mem_filter.mp h).2

theorem only_eq_iff {t : Store S} : only u s = only u t ↔ own u s = own u t := by
  constructor
  · intro h
    funext i
    exact congrArg Table.rows (congrFun h i)
  · intro h
    funext i
    have hi : own u s i = own u t i := congrFun h i
    simp only [only, hi]

/-- A tenant's rows are among those that are not another one's. -/
theorem own_of_rest {t : Store S} {v : τ} (h : rest v s = rest v t) (hne : u ≠ v) :
    own u s = own u t := by
  have hfilter : ∀ s : Store S, own u s =
      fun i => (rest v s i).filter (fun r => S.owner r = some u) := by
    intro s
    funext i
    rw [rest, List.filter_filter]
    apply List.filter_congr
    intro r _
    by_cases hr : S.owner r = some u
    · simp [hr, hne]
    · simp [hr]
  rw [hfilter, hfilter, h]

/-- A condition that picks no other tenant's row picks the rows it picks among the own ones. -/
theorem filter_own (hp : ∀ r ∈ rest u s i, ¬ p r) :
    (s i).rows.filter p = (own u s i).filter p := by
  rw [own, List.filter_filter]
  apply List.filter_congr
  intro r hr
  by_cases ho : S.owner r = some u
  · simp [ho]
  · have hrest : r ∈ rest u s i := List.mem_filter.mpr ⟨hr, by simpa using ho⟩
    simp [hp r hrest]

theorem find_own (hp : ∀ r ∈ rest u s i, ¬ p r) :
    (s i).rows.find? p = (own u s i).find? p := by
  rw [← List.head?_filter, ← List.head?_filter, filter_own hp]

theorem rest_not (hp : ∀ r, p r → S.owner r = some u) : ∀ r ∈ rest u s i, ¬ p r := by
  intro r hr h
  exact owner_rest hr (hp r h)

theorem mem_rows : r ∈ (s i).rows ↔ r ∈ own u s i ∨ r ∈ rest u s i := by
  by_cases h : S.owner r = some u
  · simp [own, rest, h]
  · simp [own, rest, h]

theorem taken_iff {k : S.Key i} (h : k ∉ (rest u s i).map S.key) :
    k ∈ (s i).rows.map S.key ↔ k ∈ (own u s i).map S.key := by
  simp only [List.mem_map] at h ⊢
  constructor
  · rintro ⟨r, hr, hk⟩
    rcases mem_rows.mp hr with hown | hrest
    · exact ⟨r, hown, hk⟩
    · exact absurd ⟨r, hrest, hk⟩ h
  · rintro ⟨r, hr, hk⟩
    exact ⟨r, mem_rows.mpr (.inl hr), hk⟩

theorem findMany_blind (hp : ∀ r, p r → S.owner r = some u) :
    Blind (own u) (rest u) H P (findMany (ε := ε) i p)
      (fun rows w => P w ∧ rows = (w i).filter p) :=
  Blind.query (fun _ _ _ => filter_own (rest_not hp)) (fun _ h => ⟨h, rfl⟩)

theorem findFirst_blind (hp : ∀ w, H w → ∀ r ∈ w i, ¬ p r) :
    Blind (own u) (rest u) H P (findFirst (ε := ε) i p)
      (fun found w => P w ∧ found = (w i).find? p) :=
  Blind.query (fun _ hs _ => find_own (hp _ hs)) (fun _ h => ⟨h, rfl⟩)

theorem findFirst_own (hp : ∀ r, p r → S.owner r = some u) :
    Blind (own u) (rest u) H P (findFirst (ε := ε) i p)
      (fun found w => P w ∧ found = (w i).find? p) :=
  Blind.query (fun _ _ _ => find_own (rest_not hp)) (fun _ h => ⟨h, rfl⟩)

section Writes
variable [DecidableEq ι]

theorem own_put (t : Table S i) : own u (Function.update s i t) =
    Function.update (own u s) i (t.rows.filter (fun r => S.owner r = some u)) := by
  funext j
  by_cases hj : j = i
  · subst hj
    simp [own]
  · simp [own, hj]

theorem rest_put {t : Table S i}
    (ht : t.rows.filter (fun r => S.owner r ≠ some u) = rest u s i) :
    rest u (Function.update s i t) = rest u s := by
  funext j
  by_cases hj : j = i
  · subst hj
    simpa [rest] using ht
  · simp [rest, hj]

variable [∀ i, DecidableEq (S.Key i)] {e : ε}

/-- A row of the tenant's under a key no other tenant's row has. -/
theorem create_blind (hr : S.owner r = some u) (hH : ∀ w, H w → S.key r ∉ (w i).map S.key) :
    Blind (own u) (rest u) H P (create e i r) (fun _ _ => True) where
  agree {s t} hv hs ht _ := by
    have hst : S.key r ∈ (s i).rows.map S.key ↔ S.key r ∈ (t i).rows.map S.key := by
      rw [taken_iff (hH _ hs), taken_iff (hH _ ht), hv]
    have hrows : (s i).rows.filter (fun r => S.owner r = some u) =
        (t i).rows.filter (fun r => S.owner r = some u) := congrFun hv i
    simp only [create, outcome_statement]
    by_cases h : S.key r ∈ (s i).rows.map S.key
    · rw [dif_neg (not_not.mpr h), dif_neg (not_not.mpr (hst.mp h))]
      exact ⟨rfl, hv⟩
    · rw [dif_pos h, dif_pos (mt hst.mpr h), own_put, own_put, hv]
      simp only [Table.insert, List.filter_append, hrows, and_self]
  kept {s} _ _ := by
    simp only [create, outcome_statement]
    split
    · apply rest_put
      simp [Table.insert, rest, hr]
    · rfl
  post _ _ _ := trivial

/-- The row with the key of a row of the tenant's. -/
theorem update_blind {k : S.Key i} {f : S.Row i → S.Row i} {hf : ∀ r, S.key (f r) = S.key r}
    (ho : ∀ r, S.owner (f r) = S.owner r) (hP : ∀ w, P w → ∃ r ∈ w i, S.key r = k) :
    Blind (own u) (rest u) H P (update e i k f hf) (fun _ _ => True) where
  agree {s t} hv hs ht hp := by
    obtain ⟨r, hr, hk⟩ := hP (own u s) hp
    have hfs := find_key (mem_rows.mpr (.inl hr)) hk
    have hft := find_key (mem_rows.mpr (.inl (hv ▸ hr))) hk
    have hrows : (s i).rows.filter (fun r => S.owner r = some u) =
        (t i).rows.filter (fun r => S.owner r = some u) := congrFun hv i
    simp only [update, outcome_statement, hfs, hft, true_and]
    rw [own_put, own_put, hv, update_filter (by simp [ho]), update_filter (by simp [ho]), hrows]
  kept {s} _ hp := by
    obtain ⟨r, hr, hk⟩ := hP (own u s) hp
    have hfs := find_key (mem_rows.mpr (.inl hr)) hk
    simp only [update, outcome_statement, hfs]
    apply rest_put
    rw [update_filter (by simp [ho])]
    -- The row with the key is the tenant's, so the update changes none of the others.
    have hid : ∀ r' ∈ rest u s i, (if S.key r' = k then f r' else r') = r' := by
      intro r' hr'
      have hne : S.key r' ≠ k := by
        intro hk'
        have hsame := List.inj_on_of_nodup_map (s i).unique (mem_rows.mpr (.inr hr'))
          (mem_rows.mpr (.inl hr)) (hk'.trans hk.symm)
        have hown : S.owner r = some u := by simpa [own] using (List.mem_filter.mp hr).2
        have hother := (List.mem_filter.mp hr').2
        simp [hsame, hown] at hother
      exact if_neg hne
    exact (List.map_congr_left hid).trans (List.map_id' _)
  post _ _ _ := trivial

end Writes

end Lib.Tables
