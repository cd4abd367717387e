import Mathlib.Data.List.Basic

namespace Lib.Runs

variable {σ τ α γ : Type*}

/-- The end of a run. An action that is not enabled ends it with no state. -/
def exec (step : σ → α → Option σ) : σ → List α → Option σ
  | s, [] => some s
  | s, a :: as => (step s a).bind (fun t => exec step t as)

/-- The property holds in the first state and after every step of the run. -/
def Always (step : σ → α → Option σ) (P : σ → Prop) : σ → List α → Prop
  | s, [] => P s
  | s, a :: as => P s ∧ ∀ t, step s a = some t → Always step P t as

/-- Every step of the run is taken in a state in which the condition allows it. -/
def Meets (step : σ → α → Option σ) (C : σ → α → Prop) : σ → List α → Prop
  | _, [] => True
  | s, a :: as => ∀ t, step s a = some t → C s a ∧ Meets step C t as

instance Always.decidable (step : σ → α → Option σ) (P : σ → Prop) [DecidablePred P] :
    ∀ s as, Decidable (Always step P s as)
  | s, [] => inferInstanceAs (Decidable (P s))
  | s, a :: as =>
    match h : step s a with
    | none => decidable_of_iff (P s) (by simp [Always, h])
    | some t =>
      have := Always.decidable step P t as
      decidable_of_iff (P s ∧ Always step P t as) (by simp [Always, h])

instance Meets.decidable (step : σ → α → Option σ) (C : σ → α → Prop)
    [∀ s a, Decidable (C s a)] : ∀ s as, Decidable (Meets step C s as)
  | _, [] => isTrue trivial
  | s, a :: as =>
    match h : step s a with
    | none => isTrue (by simp [Meets, h])
    | some t =>
      have := Meets.decidable step C t as
      decidable_of_iff (C s a ∧ Meets step C t as) (by simp [Meets, h])

variable {step : σ → α → Option σ} {P Q I : σ → Prop} {C D : σ → α → Prop}
  {s t : σ} {a : α} {as bs : List α}

theorem exec_cons (h : exec step s (a :: as) = some t) :
    ∃ u, step s a = some u ∧ exec step u as = some t :=
  Option.bind_eq_some_iff.mp h

theorem exec_of_step (h : step s a = some t) : exec step s (a :: as) = exec step t as := by
  simp only [exec, h, Option.bind_some]

theorem exec_append : exec step s (as ++ bs) = (exec step s as).bind (fun t => exec step t bs) := by
  induction as generalizing s with
  | nil => rfl
  | cons a as ih =>
    simp only [List.cons_append, exec, Option.bind_assoc]
    congr 1
    funext t
    exact ih

theorem exec_snoc (h : exec step s as = some t) {u : σ} (hs : step t a = some u) :
    exec step s (as ++ [a]) = some u := by
  rw [exec_append, h, Option.bind_some, exec_of_step hs, exec]

/-- The last step of a run. -/
theorem exec_concat (h : exec step s (as ++ [a]) = some t) :
    ∃ u, exec step s as = some u ∧ step u a = some t := by
  rw [exec_append] at h
  obtain ⟨u, hu, h⟩ := Option.bind_eq_some_iff.mp h
  obtain ⟨v, hv, h⟩ := exec_cons h
  cases h
  exact ⟨u, hu, hv⟩

/-- What every enabled step keeps, every run keeps. -/
theorem exec_inv (hstep : ∀ s a t, I s → step s a = some t → I t) (h : I s)
    (hrun : exec step s as = some t) : I t := by
  induction as generalizing s with
  | nil =>
    cases hrun
    exact h
  | cons a as ih =>
    obtain ⟨u, hu, hrun⟩ := exec_cons hrun
    exact ih (hstep s a u h hu) hrun

theorem Always.head (h : Always step P s as) : P s := by
  cases as with
  | nil => exact h
  | cons a as => exact h.1

theorem Always.mono (hpq : ∀ s, P s → Q s) (h : Always step P s as) : Always step Q s as := by
  induction as generalizing s with
  | nil => exact hpq s h
  | cons a as ih => exact ⟨hpq s h.1, fun t ht => ih (h.2 t ht)⟩

theorem Always.last (h : Always step P s as) (hrun : exec step s as = some t) : P t := by
  induction as generalizing s with
  | nil =>
    cases hrun
    exact h
  | cons a as ih =>
    obtain ⟨u, hu, hrun⟩ := exec_cons hrun
    exact ih (h.2 u hu) hrun

/-- An invariant of every step always holds. -/
theorem always_of_inv (hstep : ∀ s a t, I s → step s a = some t → I t) (h : I s) :
    Always step I s as := by
  induction as generalizing s with
  | nil => exact h
  | cons a as ih => exact ⟨h, fun t ht => ih (hstep s a t h ht)⟩

/-- A property kept by the steps that meet a condition always holds in the runs
all of whose steps meet it. -/
theorem always_of_meets (hstep : ∀ s a t, I s → C s a → step s a = some t → I t) (h : I s)
    (hm : Meets step C s as) : Always step I s as := by
  induction as generalizing s with
  | nil => exact h
  | cons a as ih =>
    refine ⟨h, ?_⟩
    intro t ht
    obtain ⟨hc, hm⟩ := hm t ht
    exact ih (hstep s a t h hc ht) hm

/-- What an invariant of every step implies, every step of a run meets. -/
theorem meets_of_inv (hstep : ∀ s a t, I s → step s a = some t → I t)
    (hd : ∀ s a, I s → D s a) (h : I s) : Meets step D s as := by
  induction as generalizing s with
  | nil => trivial
  | cons a as ih => exact fun t ht => ⟨hd s a h, ih (hstep s a t h ht)⟩

/-- Where the steps that meet a condition keep an invariant under which they are as asked, a
run all of whose steps meet it is as asked. -/
theorem meets_of_meets (hstep : ∀ s a t, I s → C s a → step s a = some t → I t)
    (hd : ∀ s a t, I s → C s a → step s a = some t → D s a) (h : I s)
    (hm : Meets step C s as) : Meets step D s as := by
  induction as generalizing s with
  | nil => trivial
  | cons a as ih =>
    intro t ht
    obtain ⟨hc, hm⟩ := hm t ht
    exact ⟨hd s a t h hc ht, ih (hstep s a t h hc ht) hm⟩

theorem Meets.mono (hcd : ∀ s a, C s a → D s a) (h : Meets step C s as) : Meets step D s as := by
  induction as generalizing s with
  | nil => trivial
  | cons a as ih => exact fun t ht => ⟨hcd s a (h t ht).1, ih (h t ht).2⟩

/-- A run meets what a longer one does. -/
theorem Meets.left (h : Meets step C s (as ++ bs)) : Meets step C s as := by
  induction as generalizing s with
  | nil => trivial
  | cons a as ih =>
    intro t ht
    exact ⟨(h t ht).1, ih (h t ht).2⟩

/-- The last step of a run meets what all its steps meet. -/
theorem Meets.last (h : Meets step C s (as ++ [a])) (hrun : exec step s as = some t)
    (hstep : step t a ≠ none) : C t a := by
  induction as generalizing s with
  | nil =>
    cases hrun
    obtain ⟨u, hu⟩ := Option.ne_none_iff_exists'.mp hstep
    exact (h u hu).1
  | cons b as ih =>
    obtain ⟨u, hu, hrun⟩ := exec_cons hrun
    exact ih (h u hu).2 hrun

theorem meets_congr (h : ∀ s a t, step s a = some t → (C s a ↔ D s a)) :
    Meets step C s as ↔ Meets step D s as := by
  induction as generalizing s with
  | nil => exact Iff.rfl
  | cons a as ih =>
    constructor
    · intro hm t ht
      exact ⟨(h s a t ht).mp (hm t ht).1, ih.mp (hm t ht).2⟩
    · intro hm t ht
      exact ⟨(h s a t ht).mpr (hm t ht).1, ih.mpr (hm t ht).2⟩

/-- When a step is as asked and keeps the property exactly if it meets the condition, a run is
and does exactly if all its steps meet it. -/
theorem meets_always_iff_meets
    (hstep : ∀ s a t, P s → step s a = some t → (D s a ∧ P t ↔ C s a)) (hp : P s) :
    Meets step D s as ∧ Always step P s as ↔ Meets step C s as := by
  induction as generalizing s with
  | nil => exact ⟨fun _ => trivial, fun _ => ⟨trivial, hp⟩⟩
  | cons a as ih =>
    constructor
    · intro h t ht
      have hpt := (h.2.2 t ht).head
      obtain ⟨hd, hrest⟩ := h.1 t ht
      exact ⟨(hstep s a t hp ht).mp ⟨hd, hpt⟩, (ih hpt).mp ⟨hrest, h.2.2 t ht⟩⟩
    · intro h
      refine ⟨?_, hp, ?_⟩
      · intro t ht
        obtain ⟨hc, hm⟩ := h t ht
        obtain ⟨hd, hpt⟩ := (hstep s a t hp ht).mpr hc
        exact ⟨hd, ((ih hpt).mpr hm).1⟩
      · intro t ht
        obtain ⟨hc, hm⟩ := h t ht
        obtain ⟨-, hpt⟩ := (hstep s a t hp ht).mpr hc
        exact ((ih hpt).mpr hm).2

/-- When a step keeps the property exactly if it meets the condition, a run keeps
it exactly if all its steps do. -/
theorem always_iff_meets (hinv : ∀ s a t, I s → step s a = some t → I t)
    (hstep : ∀ s a t, I s → P s → step s a = some t → (P t ↔ C s a))
    (hi : I s) (hp : P s) : Always step P s as ↔ Meets step C s as := by
  induction as generalizing s with
  | nil => exact ⟨fun _ => trivial, fun _ => hp⟩
  | cons a as ih =>
    constructor
    · intro h t ht
      have hpt := (h.2 t ht).head
      exact ⟨(hstep s a t hi hp ht).mp hpt, (ih (hinv s a t hi ht) hpt).mp (h.2 t ht)⟩
    · intro h
      refine ⟨hp, ?_⟩
      intro t ht
      obtain ⟨hc, hm⟩ := h t ht
      have hpt := (hstep s a t hi hp ht).mpr hc
      exact (ih (hinv s a t hi ht) hpt).mpr hm

variable {view : σ → τ} {obs : α → Option γ} {small : τ → γ → Option τ}

/-- Where a hidden step does not move the view and a seen one moves it as the small system
would, the view of a run is the small system's run on what was seen. -/
theorem exec_view
    (hidden : ∀ s a t, I s → C s a → step s a = some t → obs a = none → view t = view s)
    (seen : ∀ s a t o, I s → C s a → step s a = some t → obs a = some o →
      small (view s) o = some (view t))
    (hstep : ∀ s a t, I s → step s a = some t → I t) (hi : I s) (hm : Meets step C s as)
    (hrun : exec step s as = some t) :
    exec small (view s) (as.filterMap obs) = some (view t) := by
  induction as generalizing s with
  | nil =>
    cases hrun
    rfl
  | cons a as ih =>
    obtain ⟨u, hu, hrun⟩ := exec_cons hrun
    obtain ⟨hc, hm⟩ := hm u hu
    have hrest := ih (hstep s a u hi hu) hm hrun
    cases ha : obs a with
    | none =>
      rw [List.filterMap_cons_none ha, ← hidden s a u hi hc hu ha]
      exact hrest
    | some o =>
      rw [List.filterMap_cons_some ha]
      simp only [exec, seen s a u o hi hc hu ha]
      exact hrest

/-- Two runs that start with one view and show the same actions end with one view. -/
theorem view_eq_of_obs_eq {s' t' : σ} (hidden : ∀ s a t, I s → C s a → step s a = some t →
      obs a = none → view t = view s)
    (seen : ∀ s a t o, I s → C s a → step s a = some t → obs a = some o →
      small (view s) o = some (view t))
    (hstep : ∀ s a t, I s → step s a = some t → I t) (hi : I s) (hi' : I s')
    (hv : view s = view s') (hobs : as.filterMap obs = bs.filterMap obs)
    (hm : Meets step C s as) (hm' : Meets step C s' bs) (hrun : exec step s as = some t)
    (hrun' : exec step s' bs = some t') : view t = view t' := by
  have h := exec_view hidden seen hstep hi hm hrun
  have h' := exec_view hidden seen hstep hi' hm' hrun'
  rw [hv, hobs, h'] at h
  exact (Option.some.inj h).symm

end Lib.Runs
