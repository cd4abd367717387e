import WaOps.Lib.Scoped

namespace Lib.Programs
open Scoped

/-- Statements and commits are named by their sites. -/
inductive Program (σ ε ℓ : Type) : Type → Type 1 where
  | pure {α : Type} (a : α) : Program σ ε ℓ α
  | throw {α : Type} (e : ε) : Program σ ε ℓ α
  | bind {α β : Type} (m : Program σ ε ℓ α) (k : α → Program σ ε ℓ β) : Program σ ε ℓ β
  | statement {α : Type} (site : ℓ) (c : Comp σ ε α) : Program σ ε ℓ α
  | transaction {α : Type} (site : ℓ) (m : Program σ ε ℓ α) : Program σ ε ℓ α
  /-- An error of this part is dropped. -/
  | attempt (m : Program σ ε ℓ Unit) : Program σ ε ℓ Unit

variable {σ ε ℓ α β : Type}

instance Program.monad : Monad (Program σ ε ℓ) where
  pure := .pure
  bind := .bind

/-- What a program computes where nothing fails from outside. -/
def Program.eval : {α : Type} → Program σ ε ℓ α → Comp σ ε α
  | _, .pure a => Pure.pure a
  | _, .throw e => MonadExcept.throw e
  | _, .bind m k => m.eval >>= fun a => (k a).eval
  | _, .statement _ c => c
  | _, .transaction _ m => Scoped.transaction m.eval
  | _, .attempt m => Scoped.statement fun s => (.ok (), (outcome m.eval s).2)

structure Ended (σ ε ℓ α : Type) where
  result : Except ε α
  state : σ
  /-- The statement or commit that failed, if one did. -/
  failed : Option ℓ
  /-- How many have been begun. -/
  begun : Nat

def Ended.IsError (r : Ended σ ε ℓ α) : Prop := ∃ e, r.result = .error e

/-- What the n-th statement or commit fails with from outside. -/
abbrev Faults (ε : Type) := Nat → Option ε

def failedAt (site : ℓ) : Except ε α → Option ℓ
  | .ok _ => none
  | .error _ => some site

def execute (site : ℓ) (c : Comp σ ε α) (fault : Option ε) (n : Nat) (s : σ) : Ended σ ε ℓ α :=
  match fault with
  | some e => { result := .error e, state := s, failed := some site, begun := n + 1 }
  | none =>
    { result := (outcome c s).1
      state := (outcome c s).2
      failed := failedAt site (outcome c s).1
      begun := n + 1 }

/-- The end of a transaction begun in `s`. -/
def Ended.commit (site : ℓ) (fault : Option ε) (s : σ) (r : Ended σ ε ℓ α) : Ended σ ε ℓ α :=
  match r.result, fault with
  | .error _, _ => { r with state := s }
  | .ok _, none => { r with begun := r.begun + 1 }
  | .ok _, some e =>
    { result := .error e, state := s, failed := some site, begun := r.begun + 1 }

def Ended.andThen (r : Ended σ ε ℓ α) (k : α → Nat → σ → Ended σ ε ℓ β) : Ended σ ε ℓ β :=
  match r.result with
  | .ok a => k a r.begun r.state
  | .error e => { result := .error e, state := r.state, failed := r.failed, begun := r.begun }

def Program.run (faults : Faults ε) : {α : Type} → Program σ ε ℓ α → Nat → σ → Ended σ ε ℓ α
  | _, .pure a, n, s => { result := .ok a, state := s, failed := none, begun := n }
  | _, .throw e, n, s => { result := .error e, state := s, failed := none, begun := n }
  | _, .bind m k, n, s => (m.run faults n s).andThen fun a => (k a).run faults
  | _, .statement site c, n, s => execute site c (faults n) n s
  | _, .transaction site m, n, s =>
    let r := m.run faults n s
    r.commit site (faults r.begun) s
  | _, .attempt m, n, s => { m.run faults n s with result := .ok (), failed := none }

@[simp] theorem eval_pure {a : α} : (pure a : Program σ ε ℓ α).eval = pure a := rfl

@[simp] theorem eval_bind {m : Program σ ε ℓ α} {k : α → Program σ ε ℓ β} :
    (m >>= k).eval = m.eval >>= fun a => (k a).eval := rfl

@[simp] theorem eval_statement {site : ℓ} {c : Comp σ ε α} :
    (.statement site c : Program σ ε ℓ α).eval = c := rfl

@[simp] theorem eval_transaction {site : ℓ} {m : Program σ ε ℓ α} :
    (.transaction site m : Program σ ε ℓ α).eval = transaction m.eval := rfl

@[simp] theorem eval_map {m : Program σ ε ℓ α} {f : α → β} : (f <$> m).eval = f <$> m.eval := by
  rw [map_eq_pure_bind f m.eval]
  rfl

theorem run_eval (m : Program σ ε ℓ α) (n : Nat) (s : σ) :
    ((m.run (fun _ => none) n s).result, (m.run (fun _ => none) n s).state) =
      outcome m.eval s := by
  induction m generalizing n s with
  | pure a => rfl
  | throw e => rfl
  | bind m k ihm ihk =>
    have hm := ihm n s
    simp only [Program.eval, outcome_bind, ← hm, Program.run, Ended.andThen]
    cases (m.run (fun _ => none) n s).result with
    | ok a => exact ihk a _ _
    | error e => rfl
  | statement site c => rfl
  | transaction site m ih =>
    have hm := ih n s
    simp only [Program.eval, outcome_transaction, ← hm, Program.run, Ended.commit]
    cases (m.run (fun _ => none) n s).result <;> rfl
  | attempt m ih =>
    have hm := ih n s
    simp only [Program.eval, outcome_statement, ← hm, Program.run]

def Reads (c : Comp σ ε α) : Prop := ∀ s, (outcome c s).2 = s

def KeepsOnError (c : Comp σ ε α) : Prop :=
  ∀ s e, (outcome c s).1 = .error e → (outcome c s).2 = s

section
variable {c : Comp σ ε α} {k : α → Comp σ ε β}

theorem Reads.keeps {I : σ → Prop} (h : Reads c) : Keeps I c := by
  intro s hs
  rwa [h s]

theorem Reads.bind (hc : Reads c) (hk : ∀ a, Reads (k a)) : Reads (c >>= k) := by
  intro s
  have hs := hc s
  rw [outcome_bind]
  rcases hcs : outcome c s with ⟨r, t⟩
  rw [hcs] at hs
  cases r with
  | error e => exact hs
  | ok a => exact (hk a t).trans hs

/-- What a computation does after one that reads. -/
theorem Reads.after {I : σ → Prop} {s : σ} (hc : Reads c) (hs : I s)
    (hk : ∀ a, outcome c s = (.ok a, s) → I (outcome (k a) s).2) :
    I (outcome (c >>= k) s).2 := by
  have hsame := hc s
  rw [outcome_bind]
  rcases hcs : outcome c s with ⟨e | a, t⟩
  · rw [hcs] at hsame
    rwa [hsame]
  · rw [hcs] at hsame
    cases hsame
    exact hk a hcs

theorem KeepsOnError.bind (hc : Reads c) (hk : ∀ a, KeepsOnError (k a)) :
    KeepsOnError (c >>= k) := by
  intro s e he
  have hs := hc s
  rw [outcome_bind] at he ⊢
  rcases hcs : outcome c s with ⟨r, t⟩
  rw [hcs] at hs he
  dsimp only at hs
  subst hs
  cases r with
  | error e => rfl
  | ok a => exact hk a t e he

theorem KeepsOnError.transaction : KeepsOnError (transaction c) := by
  intro s e he
  rw [outcome_transaction] at he ⊢
  rcases hcs : outcome c s with ⟨e' | a, t⟩
  · rfl
  · rw [hcs] at he
    cases he

end

def ReadOnly (m : Program σ ε ℓ α) : Prop :=
  ∀ faults n s, (m.run faults n s).state = s

def AllOrNothing (m : Program σ ε ℓ α) : Prop :=
  ∀ faults n s, (m.run faults n s).IsError → (m.run faults n s).state = s

def FailsOnlyAt (site : ℓ) (m : Program σ ε ℓ α) : Prop :=
  ∀ faults n s, (m.run faults n s).IsError → (m.run faults n s).failed = some site

/-- All or nothing unless the one statement fails. -/
def Guarded (site : ℓ) (m : Program σ ε ℓ α) : Prop :=
  ∀ faults n s, (m.run faults n s).IsError → (m.run faults n s).failed ≠ some site →
    (m.run faults n s).state = s

theorem andThen_ok {r : Ended σ ε ℓ α} {a : α} {k : α → Nat → σ → Ended σ ε ℓ β}
    (h : r.result = .ok a) :
    r.andThen k = k a r.begun r.state := by
  simp only [Ended.andThen, h]

theorem andThen_error {r : Ended σ ε ℓ α} {e : ε} {k : α → Nat → σ → Ended σ ε ℓ β}
    (h : r.result = .error e) : r.andThen k =
      { result := .error e, state := r.state, failed := r.failed, begun := r.begun } := by
  simp only [Ended.andThen, h]

/-- The sites of its statements and commits are as asked, and what it attempts writes nothing. -/
def Program.Sites (p : ℓ → Prop) : {α : Type} → Program σ ε ℓ α → Prop
  | _, .pure _ | _, .throw _ => True
  | _, .bind m k => m.Sites p ∧ ∀ a, (k a).Sites p
  | _, .statement site _ => p site
  | _, .transaction site m => p site ∧ m.Sites p
  | _, .attempt m => ReadOnly m

section
variable {site : ℓ} {a : α} {e : ε} {c : Comp σ ε α} {m : Program σ ε ℓ α}
  {k : α → Program σ ε ℓ β} {p : ℓ → Prop}

@[simp] theorem sites_pure : (pure a : Program σ ε ℓ α).Sites p := trivial

@[simp] theorem sites_throw : (.throw e : Program σ ε ℓ α).Sites p := trivial

@[simp] theorem sites_bind : (m >>= k).Sites p ↔ m.Sites p ∧ ∀ a, (k a).Sites p := Iff.rfl

@[simp] theorem sites_map {f : α → β} : (f <$> m).Sites p ↔ m.Sites p :=
  ⟨fun h => h.1, fun h => ⟨h, fun _ => trivial⟩⟩

@[simp] theorem sites_statement :
    (.statement site c : Program σ ε ℓ α).Sites p ↔ p site := Iff.rfl

@[simp] theorem sites_transaction :
    (.transaction site m : Program σ ε ℓ α).Sites p ↔ p site ∧ m.Sites p := Iff.rfl

theorem sites_mono {q : ℓ → Prop} (hpq : ∀ site, p site → q site) (h : m.Sites p) :
    m.Sites q := by
  induction m with
  | pure | throw => trivial
  | bind m k ihm ihk => exact ⟨ihm h.1, fun a => ihk a (h.2 a)⟩
  | statement site c => exact hpq site h
  | transaction site m ih => exact ⟨hpq site h.1, ih h.2⟩
  | attempt m ih => exact h

theorem ReadOnly.reads (h : ReadOnly m) : Reads m.eval := by
  intro s
  have hs := h (fun _ => none) 0 s
  rw [← run_eval m 0 s]
  exact hs

/-- A run does what the computation does, or ends in an error from outside. -/
theorem run_ends (h : m.Sites p) (faults : Faults ε) (n : Nat) (s : σ) :
    ((m.run faults n s).result, (m.run faults n s).state) = outcome m.eval s ∨
      ∃ i e, faults i = some e ∧ (m.run faults n s).result = .error e := by
  induction m generalizing n s with
  | pure a => exact .inl rfl
  | throw e => exact .inl rfl
  | bind m k ihm ihk =>
    have hrun : (Program.bind m k).run faults n s =
        (m.run faults n s).andThen fun a => (k a).run faults := rfl
    rw [hrun]
    rcases ihm h.1 n s with hm | ⟨i, e, hi, hm⟩
    · simp only [Program.eval, outcome_bind, ← hm]
      cases hr : (m.run faults n s).result with
      | ok a =>
        rw [andThen_ok hr]
        exact ihk a (h.2 a) _ _
      | error e =>
        rw [andThen_error hr]
        exact .inl rfl
    · rw [andThen_error hm]
      exact .inr ⟨i, e, hi, rfl⟩
  | statement site c =>
    simp only [Program.run]
    cases hf : faults n with
    | none => exact .inl rfl
    | some e => exact .inr ⟨n, e, hf, rfl⟩
  | transaction site m ih =>
    simp only [Program.run, Ended.commit]
    rcases ih h.2 n s with hm | ⟨i, e, hi, hm⟩
    · simp only [Program.eval, outcome_transaction, ← hm]
      cases (m.run faults n s).result with
      | error e => exact .inl rfl
      | ok a =>
        cases hf : faults (m.run faults n s).begun with
        | none => exact .inl rfl
        | some e => exact .inr ⟨_, e, hf, rfl⟩
    · rw [hm]
      exact .inr ⟨i, e, hi, rfl⟩
  | attempt m ih =>
    left
    have hstate : (m.run faults n s).state = (outcome m.eval s).2 :=
      (h faults n s).trans ((ReadOnly.reads h) s).symm
    simp only [Program.run, Program.eval, outcome_statement, hstate]

theorem run_ok (h : m.Sites p) {faults : Faults ε} {n : Nat} {s : σ}
    (hr : (m.run faults n s).result = .ok a) :
    outcome m.eval s = (.ok a, (m.run faults n s).state) := by
  rcases run_ends h faults n s with hm | ⟨i, e, -, hm⟩
  · rw [← hm, hr]
  · rw [hr] at hm
    cases hm

/-- The statement or commit that failed is one of the program's. -/
theorem failed_site (h : m.Sites p) {faults : Faults ε} {n : Nat} {s : σ}
    (hf : (m.run faults n s).failed = some site) : p site := by
  induction m generalizing n s with
  | pure a => cases hf
  | throw e => cases hf
  | bind m k ihm ihk =>
    have hrun : (Program.bind m k).run faults n s =
        (m.run faults n s).andThen fun a => (k a).run faults := rfl
    rw [hrun] at hf
    cases hr : (m.run faults n s).result with
    | ok a =>
      rw [andThen_ok hr] at hf
      exact ihk a (h.2 a) hf
    | error e =>
      rw [andThen_error hr] at hf
      exact ihm h.1 hf
  | statement site' c =>
    simp only [Program.run] at hf
    cases hfault : faults n with
    | some e =>
      rw [hfault] at hf
      cases hf
      exact h
    | none =>
      simp only [hfault, execute] at hf
      cases hr : (outcome c s).1 with
      | ok a =>
        rw [hr] at hf
        cases hf
      | error e =>
        rw [hr] at hf
        cases hf
        exact h
  | transaction site' m ih =>
    simp only [Program.run, Ended.commit] at hf
    split at hf
    · exact ih h.2 hf
    · exact ih h.2 hf
    · cases hf
      exact h.1
  | attempt m ih => cases hf

theorem run_bind {faults : Faults ε} {n : Nat} {s : σ} : (m >>= k).run faults n s =
    (m.run faults n s).andThen fun a => (k a).run faults := rfl

theorem ReadOnly.pure : ReadOnly (pure a : Program σ ε ℓ α) := fun _ _ _ => rfl

theorem ReadOnly.throw : ReadOnly (.throw e : Program σ ε ℓ α) := fun _ _ _ => rfl

theorem ReadOnly.statement (h : Reads c) :
    ReadOnly (.statement site c : Program σ ε ℓ α) := by
  intro faults n s
  simp only [Program.run]
  cases faults n with
  | some e => rfl
  | none => exact h s

theorem ReadOnly.bind (hm : ReadOnly m) (hk : ∀ a, ReadOnly (k a)) : ReadOnly (m >>= k) := by
  intro faults n s
  have hs := hm faults n s
  rw [run_bind]
  cases hr : (m.run faults n s).result with
  | ok a =>
    rw [andThen_ok hr, hk a, hs]
  | error e =>
    rw [andThen_error hr]
    exact hs

theorem AllOrNothing.statement (h : KeepsOnError c) :
    AllOrNothing (.statement site c : Program σ ε ℓ α) := by
  intro faults n s he
  simp only [Program.run] at he ⊢
  cases hf : faults n with
  | some e => rfl
  | none =>
    rw [hf] at he
    obtain ⟨e, he⟩ := he
    exact h s e he

/-- The rollback undoes what the body wrote before it failed. -/
theorem AllOrNothing.transaction : AllOrNothing (.transaction site m : Program σ ε ℓ α) := by
  intro faults n s he
  simp only [Program.run, Ended.commit] at he ⊢
  split
  · rfl
  · rename_i a hr hf
    obtain ⟨e, he⟩ := he
    simp only [hr, hf] at he
    cases he
  · rfl

theorem FailsOnlyAt.pure : FailsOnlyAt site (pure a : Program σ ε ℓ α) := by
  intro faults n s ⟨e, he⟩
  cases he

theorem FailsOnlyAt.statement : FailsOnlyAt site (.statement site c : Program σ ε ℓ α) := by
  intro faults n s he
  simp only [Program.run] at he ⊢
  cases hf : faults n with
  | some e => rfl
  | none =>
    rw [hf] at he
    obtain ⟨e, he⟩ := he
    simp only [execute] at he ⊢
    rw [he]
    rfl

theorem FailsOnlyAt.attempt {m : Program σ ε ℓ Unit} : FailsOnlyAt site (.attempt m) := by
  intro faults n s ⟨e, he⟩
  cases he

theorem FailsOnlyAt.bind (hm : FailsOnlyAt site m) (hk : ∀ a, FailsOnlyAt site (k a)) :
    FailsOnlyAt site (m >>= k) := by
  intro faults n s he
  rw [run_bind] at he ⊢
  cases hr : (m.run faults n s).result with
  | ok a =>
    rw [andThen_ok hr] at he ⊢
    exact hk a faults _ _ he
  | error e =>
    rw [andThen_error hr]
    exact hm faults n s ⟨e, hr⟩

/-- Checks before the rest write nothing. -/
theorem Guarded.check (hm : ReadOnly m) (hk : ∀ a, Guarded site (k a)) :
    Guarded site (m >>= k) := by
  intro faults n s he hf
  have hs := hm faults n s
  rw [run_bind] at he hf ⊢
  cases hr : (m.run faults n s).result with
  | ok a =>
    rw [andThen_ok hr, hs] at he hf ⊢
    exact hk a faults _ _ he hf
  | error e =>
    rw [andThen_error hr]
    exact hs

/-- After the one write only the guarded statement can fail. -/
theorem Guarded.write (hm : AllOrNothing m) (hk : ∀ a, FailsOnlyAt site (k a)) :
    Guarded site (m >>= k) := by
  intro faults n s he hf
  rw [run_bind] at he hf ⊢
  cases hr : (m.run faults n s).result with
  | ok a =>
    rw [andThen_ok hr] at he hf
    exact absurd (hk a faults _ _ he) hf
  | error e =>
    rw [andThen_error hr]
    exact hm faults n s ⟨e, hr⟩

/-- What is made of the answer writes nothing. -/
theorem Guarded.map {f : α → β} (hm : Guarded site m) : Guarded site (f <$> m) := by
  intro faults n s he hf
  have hrun : (f <$> m).run faults n s =
      (m.run faults n s).andThen fun a => (Pure.pure (f a) : Program σ ε ℓ β).run faults := rfl
  rw [hrun] at he hf ⊢
  cases hr : (m.run faults n s).result with
  | ok a =>
    rw [andThen_ok hr] at he
    obtain ⟨e, he⟩ := he
    cases he
  | error e =>
    rw [andThen_error hr] at hf ⊢
    exact hm faults n s ⟨e, hr⟩ hf

end

end Lib.Programs
