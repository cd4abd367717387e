namespace Lib.Scoped

/-- A computation that fails keeps what it wrote before. -/
abbrev Comp (σ ε α : Type) := ExceptT ε (StateM σ) α

variable {σ ω ρ ε α β : Type}

def outcome (m : Comp σ ε α) (s : σ) : Except ε α × σ := m.run.run s

/-- One statement on the state. -/
def statement (f : σ → Except ε α × σ) : Comp σ ε α := ExceptT.mk f

def query (f : σ → α) : Comp σ ε α := statement (fun s => (.ok (f s), s))

/-- A transaction that fails has written nothing. -/
def transaction (m : Comp σ ε α) : Comp σ ε α :=
  statement fun s =>
    match outcome m s with
    | (.ok a, t) => (.ok a, t)
    | (.error e, _) => (.error e, s)

/-- Started where the own part is as `P` says and the rest as `H` says. -/
structure Blind (own : σ → ω) (rest : σ → ρ) (H : ρ → Prop) (P : ω → Prop) (m : Comp σ ε α)
    (Q : α → ω → Prop) : Prop where
  agree : ∀ {s t}, own s = own t → H (rest s) → H (rest t) → P (own s) →
    (outcome m s).1 = (outcome m t).1 ∧ own (outcome m s).2 = own (outcome m t).2
  kept : ∀ {s}, H (rest s) → P (own s) → rest (outcome m s).2 = rest s
  post : ∀ {s a}, H (rest s) → P (own s) → (outcome m s).1 = .ok a → Q a (own (outcome m s).2)

variable {own : σ → ω} {rest : σ → ρ} {H : ρ → Prop} {P P' : ω → Prop} {Q Q' : α → ω → Prop}
  {R : β → ω → Prop} {m : Comp σ ε α} {f : α → Comp σ ε β} {s : σ} {a : α} {e : ε}

@[simp] theorem outcome_pure : outcome (pure a : Comp σ ε α) s = (.ok a, s) := rfl

@[simp] theorem outcome_throw : outcome (throw e : Comp σ ε α) s = (.error e, s) := rfl

@[simp] theorem outcome_statement {g : σ → Except ε α × σ} : outcome (statement g) s = g s := rfl

@[simp] theorem outcome_query {g : σ → α} : outcome (query g : Comp σ ε α) s = (.ok (g s), s) :=
  rfl

theorem outcome_bind : outcome (m >>= f) s =
    match outcome m s with
    | (.ok a, t) => outcome (f a) t
    | (.error e, t) => (.error e, t) := by
  simp only [outcome, StateT.run, ExceptT.run, bind, ExceptT.bind, ExceptT.mk, StateT.bind]
  cases m s with
  | mk r t => cases r <;> rfl

/-- What a computation that ended well has gone through. -/
theorem bind_ok {b : β} {t : σ} (h : outcome (m >>= f) s = (.ok b, t)) :
    ∃ a u, outcome m s = (.ok a, u) ∧ outcome (f a) u = (.ok b, t) := by
  rw [outcome_bind] at h
  rcases hm : outcome m s with ⟨e | a, u⟩
  · rw [hm] at h
    cases h
  · rw [hm] at h
    exact ⟨a, u, rfl, h⟩

/-- A check that ended well has found nothing bad. -/
theorem check_ok {bad : Prop} [Decidable bad] {t : σ}
    (h : outcome (if bad then throw e else pure () : Comp σ ε Unit) s = (.ok (), t)) :
    ¬ bad ∧ t = s := by
  split at h
  · cases h
  · rename_i hgood
    cases h
    exact ⟨hgood, rfl⟩

theorem Blind.pure (h : ∀ w, P w → Q a w) : Blind own rest H P (pure a : Comp σ ε α) Q where
  agree hv _ _ _ := ⟨rfl, hv⟩
  kept _ _ := rfl
  post {s b} _ hp hb := by
    cases hb
    exact h (own s) hp

theorem Blind.throw : Blind own rest H P (throw e : Comp σ ε α) Q where
  agree hv _ _ _ := ⟨rfl, hv⟩
  kept _ _ := rfl
  post _ _ hb := by cases hb

/-- A reading is blind when the own part decides it. -/
theorem Blind.query {g : σ → α} {g' : ω → α} (hg : ∀ s, H (rest s) → P (own s) → g s = g' (own s))
    (hq : ∀ w, P w → Q (g' w) w) : Blind own rest H P (query g : Comp σ ε α) Q where
  agree {s t} hv hs ht hp := by
    refine ⟨?_, hv⟩
    simp only [outcome_query]
    rw [hg s hs hp, hg t ht (hv ▸ hp), hv]
  kept _ _ := rfl
  post {s b} hs hp hb := by
    cases hb
    rw [hg s hs hp]
    exact hq (own s) hp

/-- What holds after a computation that ended well. -/
theorem Blind.next {t : σ} (hm : Blind own rest H P m Q) (hs : H (rest s)) (hp : P (own s))
    (h : outcome m s = (.ok a, t)) : rest t = rest s ∧ Q a (own t) := by
  have hk := hm.kept hs hp
  have hq := hm.post (a := a) hs hp
  rw [h] at hk hq
  exact ⟨hk, hq rfl⟩

/-- The rest after the first part is the rest before it, so what `H` says of it goes on
holding without a word about it between the parts. -/
theorem Blind.bind (hm : Blind own rest H P m Q) (hf : ∀ a, Blind own rest H (Q a) (f a) R) :
    Blind own rest H P (m >>= f) R where
  agree {s t} hv hs ht hp := by
    obtain ⟨hr, hw⟩ := hm.agree hv hs ht hp
    rw [outcome_bind, outcome_bind]
    rcases hms : outcome m s with ⟨r, s'⟩
    rcases hmt : outcome m t with ⟨r', t'⟩
    rw [hms, hmt] at hr hw
    dsimp only at hr hw
    subst hr
    cases r with
    | error e => exact ⟨rfl, hw⟩
    | ok a =>
      obtain ⟨hks, hq⟩ := hm.next hs hp hms
      obtain ⟨hkt, -⟩ := hm.next ht (hv ▸ hp) hmt
      exact (hf a).agree hw (hks ▸ hs) (hkt ▸ ht) hq
  kept {s} hs hp := by
    rw [outcome_bind]
    rcases hms : outcome m s with ⟨r, s'⟩
    cases r with
    | error e =>
      have hk := hm.kept hs hp
      rw [hms] at hk
      exact hk
    | ok a =>
      obtain ⟨hk, hq⟩ := hm.next hs hp hms
      exact ((hf a).kept (hk ▸ hs) hq).trans hk
  post {s b} hs hp hb := by
    rw [outcome_bind] at hb ⊢
    rcases hms : outcome m s with ⟨r, s'⟩
    rw [hms] at hb
    cases r with
    | error e => cases hb
    | ok a =>
      obtain ⟨hk, hq⟩ := hm.next hs hp hms
      exact (hf a).post (hk ▸ hs) hq hb

theorem Blind.weaken (hm : Blind own rest H P' m Q') (hp : ∀ w, P w → P' w)
    (hq : ∀ a w, Q' a w → Q a w) : Blind own rest H P m Q where
  agree hv hs ht h := hm.agree hv hs ht (hp _ h)
  kept hs h := hm.kept hs (hp _ h)
  post hs h hb := hq _ _ (hm.post hs (hp _ h) hb)

theorem Blind.forget (hm : Blind own rest H P m Q) :
    Blind own rest H P m (fun _ _ => True) :=
  hm.weaken (fun _ h => h) (fun _ _ _ => trivial)

theorem outcome_transaction : outcome (transaction m) s =
    match outcome m s with
    | (.ok a, t) => (.ok a, t)
    | (.error e, _) => (.error e, s) := rfl

theorem transaction_ok {t : σ} (h : outcome (transaction m) s = (.ok a, t)) :
    outcome m s = (.ok a, t) := by
  rw [outcome_transaction] at h
  rcases hm : outcome m s with ⟨e | b, u⟩
  · rw [hm] at h
    cases h
  · rw [hm] at h
    exact h

theorem Blind.transaction (hm : Blind own rest H P m Q) :
    Blind own rest H P (transaction m) Q where
  agree {s t} hv hs ht hp := by
    obtain ⟨hr, hw⟩ := hm.agree hv hs ht hp
    rw [outcome_transaction, outcome_transaction]
    rcases hms : outcome m s with ⟨r, s'⟩
    rcases hmt : outcome m t with ⟨r', t'⟩
    rw [hms, hmt] at hr hw
    dsimp only at hr hw
    subst hr
    cases r with
    | error e => exact ⟨rfl, hv⟩
    | ok a => exact ⟨rfl, hw⟩
  kept {s} hs hp := by
    rw [outcome_transaction]
    rcases hms : outcome m s with ⟨r, s'⟩
    cases r with
    | error e => rfl
    | ok a => exact (hm.next hs hp hms).1
  post {s b} hs hp hb := by
    rw [outcome_transaction] at hb ⊢
    rcases hms : outcome m s with ⟨r, s'⟩
    rw [hms] at hb
    cases r with
    | error e => cases hb
    | ok a =>
      cases hb
      exact (hm.next hs hp hms).2

def Keeps (I : σ → Prop) (m : Comp σ ε α) : Prop :=
  ∀ s, I s → I (outcome m s).2

section
variable {I : σ → Prop}

theorem Keeps.pure : Keeps I (pure a : Comp σ ε α) := fun _ h => h

theorem Keeps.throw : Keeps I (throw e : Comp σ ε α) := fun _ h => h

theorem Keeps.query {g : σ → α} : Keeps I (query g : Comp σ ε α) := fun _ h => h

theorem Keeps.bind (hm : Keeps I m) (hf : ∀ a, Keeps I (f a)) : Keeps I (m >>= f) := by
  intro s h
  have hs := hm s h
  rw [outcome_bind]
  rcases hms : outcome m s with ⟨r, t⟩
  rw [hms] at hs
  cases r with
  | error e => exact hs
  | ok a => exact hf a t hs

theorem Keeps.transaction (hm : Keeps I m) : Keeps I (transaction m) := by
  intro s h
  have hs := hm s h
  rw [outcome_transaction]
  rcases hms : outcome m s with ⟨r, t⟩
  rw [hms] at hs
  cases r with
  | error e => exact h
  | ok a => exact hs

end

end Lib.Scoped
