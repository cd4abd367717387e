import Mathlib.Data.List.Basic
import WaOps.Lib.Programs
import WaOps.Lib.Runs

namespace Lib.Interleaving
open Scoped Programs Runs

variable {σ ε ℓ ι α β : Type}

/-- What is left of a program after its next turn. -/
inductive Progress (σ ε ℓ α : Type) : Type 1 where
  | ended (result : Except ε α)
  | moved (rest : Program σ ε ℓ α) (state : σ) (site : ℓ) (ok : Bool)

def resume : Except ε α → Program σ ε ℓ α
  | .ok a => .pure a
  | .error e => .throw e

def Ended.moved (site : ℓ) (r : Ended σ ε ℓ α) : Progress σ ε ℓ α :=
  .moved (resume r.result) r.state site r.result.isOk

def Progress.map (f : Program σ ε ℓ α → Program σ ε ℓ β) (k : Except ε α → Progress σ ε ℓ β) :
    Progress σ ε ℓ α → Progress σ ε ℓ β
  | .ended r => k r
  | .moved rest s site ok => .moved (f rest) s site ok

/-- The turn up to the end of the next statement, or of the next transaction as a whole. -/
def advance (faults : Faults ε) : {α : Type} → Program σ ε ℓ α → σ → Progress σ ε ℓ α
  | _, .pure a, _ => .ended (.ok a)
  | _, .throw e, _ => .ended (.error e)
  | _, .bind m k, s => (advance faults m s).map (fun rest => .bind rest k) fun r =>
    match r with
    | .ok a => advance faults (k a) s
    | .error e => .ended (.error e)
  | _, .statement site c, s => Ended.moved site ((Program.statement site c).run faults 0 s)
  | _, .transaction site m, s => Ended.moved site ((Program.transaction site m).run faults 0 s)
  | _, .attempt m, s => (advance faults m s).map .attempt fun _ => .ended (.ok ())

/-- The end of what is left where nothing fails or disturbs. -/
def Progress.finish (s : σ) : Progress σ ε ℓ α → Except ε α × σ
  | .ended r => (r, s)
  | .moved rest t _ _ => outcome rest.eval t

theorem finish_moved (site : ℓ) (s t : σ) (r : Except ε α) (failed : Option ℓ) (n : Nat) :
    (Ended.moved site ⟨r, t, failed, n⟩).finish s = (r, t) := by
  cases r <;> rfl

/-- A turn after the other, a program that nothing disturbs does what it does as a whole. -/
theorem finish_advance (m : Program σ ε ℓ α) (s : σ) :
    (advance (fun _ => none) m s).finish s = outcome m.eval s := by
  induction m generalizing s with
  | pure a => rfl
  | throw e => rfl
  | bind m k ihm ihk =>
    have hm := ihm s
    simp only [advance, Program.eval, outcome_bind, ← hm]
    cases advance (fun _ => none) m s with
    | ended r =>
      cases r with
      | ok a => exact ihk a s
      | error e => rfl
    | moved rest t site ok => exact outcome_bind.symm ▸ rfl
  | statement site c =>
    rw [← run_eval (.statement site c) 0 s]
    exact finish_moved site s _ _ _ _
  | transaction site m _ =>
    rw [← run_eval (.transaction site m) 0 s]
    exact finish_moved site s _ _ _ _
  | attempt m ih =>
    have hm := ih s
    simp only [advance, Program.eval, outcome_statement, ← hm]
    cases advance (fun _ => none) m s <;> rfl

/-- What the others' turns leave true. -/
structure Assertion (R : σ → σ → Prop) where
  holds : σ → Prop
  stable : ∀ s t, R s t → holds s → holds t

variable {R : σ → σ → Prop}

def Assertion.top : Assertion R where
  holds _ := True
  stable _ _ _ _ := trivial

/-- What does not depend on the state. -/
def Assertion.fact (p : Prop) : Assertion R where
  holds _ := p
  stable _ _ _ h := h

def Assertion.and (P Q : Assertion R) : Assertion R where
  holds s := P.holds s ∧ Q.holds s
  stable s t h hs := ⟨P.stable s t h hs.1, Q.stable s t h hs.2⟩

/-- A turn that starts in `s` is as guaranteed, and leaves what is asserted of its result. -/
structure Ending (G : ℓ → Bool → σ → σ → Prop) (site : ℓ) (s : σ) (r : Ended σ ε ℓ α)
    (Q : α → Assertion R) (E : Assertion R) : Prop where
  guaranteed : G site r.result.isOk s r.state
  ok : ∀ a, r.result = .ok a → (Q a).holds r.state
  error : ∀ e, r.result = .error e → E.holds r.state

/-- From where `P` holds the program is as guaranteed in each of its turns, and where it ends
`Q` holds of its answer, or `E` where it fails. -/
def Holds (G : ℓ → Bool → σ → σ → Prop) : {α : Type} → Program σ ε ℓ α → Assertion R →
    (α → Assertion R) → Assertion R → Prop
  | _, .pure a, P, Q, _ => ∀ s, P.holds s → (Q a).holds s
  | _, .throw _, P, _, E => ∀ s, P.holds s → E.holds s
  | _, .bind m k, P, Q, E => ∃ M, Holds G m P M E ∧ ∀ a, Holds G (k a) (M a) Q E
  | _, .statement site c, P, Q, E => ∀ faults s, P.holds s →
    Ending G site s ((Program.statement site c).run faults 0 s) Q E
  | _, .transaction site m, P, Q, E => ∀ faults s, P.holds s →
    Ending G site s ((Program.transaction site m).run faults 0 s) Q E
  | _, .attempt m, P, Q, _ => Holds G m P Q (Q ())

/-- What a turn leaves. -/
def Progress.Kept (G : ℓ → Bool → σ → σ → Prop) (Q : α → Assertion R) (E : Assertion R) (s : σ) :
    Progress σ ε ℓ α → Prop
  | .ended (.ok a) => (Q a).holds s
  | .ended (.error _) => E.holds s
  | .moved rest t site ok => G site ok s t ∧ ∃ P, P.holds t ∧ Holds G rest P Q E

section
variable {G : ℓ → Bool → σ → σ → Prop} {P P' : Assertion R} {Q Q' : α → Assertion R}
  {E : Assertion R} {s : σ} {site : ℓ}

theorem Ending.kept {r : Ended σ ε ℓ α} (h : Ending G site s r Q E) :
    (Ended.moved site r).Kept G Q E s := by
  refine ⟨h.guaranteed, ?_⟩
  cases hr : r.result with
  | ok a => exact ⟨Q a, h.ok a hr, fun _ h => h⟩
  | error e => exact ⟨E, h.error e hr, fun _ h => h⟩

theorem Progress.Kept.map {f : Program σ ε ℓ α → Program σ ε ℓ β}
    {k : Except ε α → Progress σ ε ℓ β} {p : Progress σ ε ℓ α} {M : β → Assertion R}
    {F : Assertion R} (h : p.Kept G Q E s) (hk : ∀ r, (Progress.ended r).Kept G Q E s →
      (k r).Kept G M F s) (hf : ∀ rest P, Holds G rest P Q E → Holds G (f rest) P M F) :
    (p.map f k).Kept G M F s := by
  cases p with
  | ended r => exact hk r h
  | moved rest t site ok =>
    obtain ⟨hg, P, hp, hrest⟩ := h
    exact ⟨hg, P, hp, hf rest P hrest⟩

/-- A turn of a program that keeps its word is as guaranteed, and what is left keeps it too. -/
theorem Holds.advance (faults : Faults ε) (m : Program σ ε ℓ α) (h : Holds G m P Q E)
    (hp : P.holds s) : (advance faults m s).Kept G Q E s := by
  induction m generalizing P E with
  | pure a => exact h s hp
  | throw e => exact h s hp
  | bind m k ihm ihk =>
    obtain ⟨M, hm, hk⟩ := h
    rw [Interleaving.advance]
    refine (ihm hm hp).map ?_ ?_
    · intro r hr
      cases r with
      | ok a => exact ihk a (hk a) hr
      | error e => exact hr
    · exact fun rest P hrest => ⟨M, hrest, hk⟩
  | statement site c => exact (h faults s hp).kept
  | transaction site m _ => exact (h faults s hp).kept
  | attempt m ih =>
    refine (ih h hp).map ?_ ?_
    · intro r hr
      cases r with
      | ok a => exact hr
      | error e => exact hr
    · exact fun rest P hrest => hrest

theorem Ending.weaken {E' : Assertion R} {r : Ended σ ε ℓ α} (h : Ending G site s r Q E)
    (hq : ∀ a s, (Q a).holds s → (Q' a).holds s) (he : ∀ s, E.holds s → E'.holds s) :
    Ending G site s r Q' E' where
  guaranteed := h.guaranteed
  ok a ha := hq a _ (h.ok a ha)
  error e hr := he _ (h.error e hr)

theorem Ending.frame {F : Assertion R} {r : Ended σ ε ℓ α} (h : Ending G site s r Q E)
    (hrely : ∀ site ok s t, G site ok s t → R s t) (hf : F.holds s) :
    Ending (fun site ok s t => G site ok s t ∧ F.holds s) site s r (fun a => (Q a).and F)
      (E.and F) := by
  have hafter : F.holds r.state := F.stable _ _ (hrely _ _ _ _ h.guaranteed) hf
  exact ⟨⟨h.guaranteed, hf⟩, fun a ha => ⟨h.ok a ha, hafter⟩, fun e he => ⟨h.error e he, hafter⟩⟩

theorem Holds.weaken {E' : Assertion R} (m : Program σ ε ℓ α) (h : Holds G m P Q E)
    (hp : ∀ s, P'.holds s → P.holds s) (hq : ∀ a s, (Q a).holds s → (Q' a).holds s)
    (he : ∀ s, E.holds s → E'.holds s) : Holds G m P' Q' E' := by
  induction m generalizing P P' E E' with
  | pure a => exact fun s hs => hq a s (h s (hp s hs))
  | throw e => exact fun s hs => he s (h s (hp s hs))
  | bind m k ihm ihk =>
    obtain ⟨M, hm, hk⟩ := h
    exact ⟨M, ihm hm hp (fun _ _ h => h) he, fun a => ihk a (hk a) (fun _ h => h) hq he⟩
  | statement site c => exact fun faults s hs => (h faults s (hp s hs)).weaken hq he
  | transaction site m _ => exact fun faults s hs => (h faults s (hp s hs)).weaken hq he
  | attempt m ih => exact ih h hp hq (hq ())

/-- What the turns of all leave true holds in each of the program's own if it does at first. -/
theorem Holds.frame (F : Assertion R) (hrely : ∀ site ok s t, G site ok s t → R s t)
    (m : Program σ ε ℓ α) (h : Holds G m P Q E) :
    Holds (fun site ok s t => G site ok s t ∧ F.holds s) m (P.and F) (fun a => (Q a).and F)
      (E.and F) := by
  induction m generalizing P E with
  | pure a => exact fun s hs => ⟨h s hs.1, hs.2⟩
  | throw e => exact fun s hs => ⟨h s hs.1, hs.2⟩
  | bind m k ihm ihk =>
    obtain ⟨M, hm, hk⟩ := h
    exact ⟨fun a => (M a).and F, ihm hm, fun a => ihk a (hk a)⟩
  | statement site c => exact fun faults s hs => (h faults s hs.1).frame hrely hs.2
  | transaction site m _ => exact fun faults s hs => (h faults s hs.1).frame hrely hs.2
  | attempt m ih => exact ih h

theorem Holds.bind {m : Program σ ε ℓ α} {k : α → Program σ ε ℓ β} {M : α → Assertion R}
    {Q : β → Assertion R} (hm : Holds G m P M E) (hk : ∀ a, Holds G (k a) (M a) Q E) :
    Holds G (m >>= k) P Q E :=
  ⟨M, hm, hk⟩

theorem Holds.pure {a : α} (h : ∀ s, P.holds s → (Q a).holds s) :
    Holds G (pure a : Program σ ε ℓ α) P Q E := h

theorem Holds.map {f : α → β} {m : Program σ ε ℓ α} {M : β → Assertion R}
    (h : Holds G m P (fun a => M (f a)) E) : Holds G (f <$> m) P M E :=
  ⟨fun a => M (f a), h, fun _ _ h => h⟩

theorem Holds.statement {c : Comp σ ε α} (hc : KeepsOnError c)
    (hfail : ∀ s, P.holds s → G site false s s ∧ E.holds s)
    (hok : ∀ s a t, P.holds s → outcome c s = (.ok a, t) → G site true s t ∧ (Q a).holds t) :
    Holds G (.statement site c) P Q E := by
  intro faults s hs
  simp only [Program.run]
  cases faults 0 with
  | some e =>
    obtain ⟨hg, he⟩ := hfail s hs
    exact ⟨hg, fun a ha => (by cases ha), fun e _ => he⟩
  | none =>
    rcases hcs : outcome c s with ⟨r, t⟩
    simp only [execute, hcs]
    cases r with
    | error e =>
      have hsame := hc s e (by rw [hcs])
      rw [hcs] at hsame
      dsimp only at hsame
      subst hsame
      obtain ⟨hg, he⟩ := hfail t hs
      exact ⟨hg, fun a ha => (by cases ha), fun e _ => he⟩
    | ok a =>
      obtain ⟨hg, hq⟩ := hok s a t hs hcs
      refine ⟨hg, ?_, fun e he => (by cases he)⟩
      intro b hb
      cases hb
      exact hq

/-- A turn that leaves what is asserted, because the others' do. -/
theorem Holds.other {c : Comp σ ε α} (hrely : ∀ ok s t, G site ok s t → R s t)
    (hsame : ∀ s, G site false s s) (hG : ∀ ok s, G site ok s (outcome c s).2) :
    Holds G (.statement site c) P (fun _ => P) .top := by
  intro faults s hs
  simp only [Program.run]
  cases faults 0 with
  | some e => exact ⟨hsame s, fun _ _ => hs, fun _ _ => trivial⟩
  | none =>
    have hg := hG (outcome c s).1.isOk s
    exact ⟨hg, fun _ _ => P.stable _ _ (hrely _ _ _ hg) hs, fun _ _ => trivial⟩

/-- A turn that only reads. -/
theorem Holds.read {c : Comp σ ε α} (hc : Reads c) (hG : ∀ ok s, G site ok s s)
    (hE : ∀ s, P.holds s → E.holds s)
    (hQ : ∀ s a, P.holds s → outcome c s = (.ok a, s) → (Q a).holds s) :
    Holds G (.statement site c) P Q E := by
  refine Holds.statement (fun s _ _ => hc s) (fun s hs => ⟨hG false s, hE s hs⟩) ?_
  intro s a t hs hcs
  have hsame := hc s
  rw [hcs] at hsame
  dsimp only at hsame
  subst hsame
  exact ⟨hG true t, hQ t a hs hcs⟩

/-- What a part of a transaction has done where all its statements have gone through. -/
def Answers (P : σ → Prop) (m : Program σ ε ℓ α) (Q : α → σ → Prop) : Prop :=
  ∀ faults n s a, P s → (m.run faults n s).result = .ok a → Q a (m.run faults n s).state

section
variable {P : σ → Prop} {Q : α → σ → Prop} {m : Program σ ε ℓ α}

theorem Answers.pure {a : α} (h : ∀ s, P s → Q a s) :
    Answers P (pure a : Program σ ε ℓ α) Q := by
  intro faults n s b hs hb
  cases hb
  exact h s hs

theorem Answers.statement {c : Comp σ ε α}
    (h : ∀ s a t, P s → outcome c s = (.ok a, t) → Q a t) :
    Answers P (.statement site c : Program σ ε ℓ α) Q := by
  intro faults n s a hs ha
  simp only [Program.run] at ha ⊢
  cases hf : faults n with
  | some e =>
    rw [hf] at ha
    cases ha
  | none =>
    rw [hf] at ha
    exact h s a _ hs (Prod.ext ha rfl)

theorem Answers.bind {k : α → Program σ ε ℓ β} {Q' : β → σ → Prop} (hm : Answers P m Q)
    (hk : ∀ a, Answers (Q a) (k a) Q') : Answers P (m >>= k) Q' := by
  intro faults n s b hs hb
  rw [run_bind] at hb ⊢
  cases hr : (m.run faults n s).result with
  | ok a =>
    rw [andThen_ok hr] at hb ⊢
    exact hk a faults _ _ b (hm faults n s a hs hr) hb
  | error e =>
    rw [andThen_error hr] at hb
    cases hb

end

theorem Holds.transaction {m : Program σ ε ℓ α}
    (hfail : ∀ s, P.holds s → G site false s s ∧ E.holds s)
    (hok : ∀ s, P.holds s → Answers (· = s) m (fun a t => G site true s t ∧ (Q a).holds t)) :
    Holds G (.transaction site m) P Q E := by
  intro faults s hs
  obtain ⟨hg, he⟩ := hfail s hs
  have hanswers := hok s hs faults 0 s
  simp only [Program.run, Ended.commit]
  split
  · rename_i e hr
    simp only [hr]
    exact ⟨hg, fun a ha => (by cases ha), fun e _ => he⟩
  · rename_i a hr _
    obtain ⟨hg', hq⟩ := hanswers a rfl hr
    simp only [hr]
    refine ⟨hg', ?_, fun e he => (by cases he)⟩
    intro b hb
    cases hb
    exact hq
  · exact ⟨hg, fun a ha => (by cases ha), fun e _ => he⟩

end

structure Threads (σ ε ℓ ι α : Type) : Type 1 where
  state : σ
  threads : List (ι × Program σ ε ℓ α) := []

inductive Turn (ε ι : Type) where
  | begin (x : ι)
  | next (i : Nat) (faults : Faults ε)

/-- A thread that has ended has no next turn. -/
def step (code : ι → Program σ ε ℓ α) (s : Threads σ ε ℓ ι α) :
    Turn ε ι → Option (Threads σ ε ℓ ι α)
  | .begin x => some { s with threads := s.threads ++ [(x, code x)] }
  | .next i faults =>
    match s.threads[i]? with
    | some (x, m) =>
      match advance faults m s.state with
      | .moved rest t _ _ => some { state := t, threads := s.threads.set i (x, rest) }
      | .ended _ => none
    | none => none

section
variable {code : ι → Program σ ε ℓ α} {G : ι → ℓ → Bool → σ → σ → Prop} {pre : ι → Assertion R}
  {s : Threads σ ε ℓ ι α} {as : List (Turn ε ι)} {I : σ → Prop}

/-- A program is begun where its assumption holds. -/
def Begun (pre : ι → Assertion R) (s : Threads σ ε ℓ ι α) : Turn ε ι → Prop
  | .begin x => (pre x).holds s.state
  | .next _ _ => True

def Guaranteed (G : ι → ℓ → Bool → σ → σ → Prop) (s : Threads σ ε ℓ ι α) : Turn ε ι → Prop
  | .begin _ => True
  | .next i faults => ∀ x m rest t site ok, s.threads[i]? = some (x, m) →
    advance faults m s.state = .moved rest t site ok → G x site ok s.state t

/-- What is left of each thread keeps its word. -/
def Sound (R : σ → σ → Prop) (G : ι → ℓ → Bool → σ → σ → Prop) (s : Threads σ ε ℓ ι α) : Prop :=
  ∀ p ∈ s.threads, ∃ P : Assertion R, P.holds s.state ∧ Holds (G p.1) p.2 P (fun _ => .top) .top

theorem Sound.guaranteed (h : Sound R G s) (a : Turn ε ι) : Guaranteed G s a := by
  cases a with
  | begin x => trivial
  | next i faults =>
    intro x m rest t site ok hget hmoved
    obtain ⟨P, hp, hm⟩ := h (x, m) (List.mem_of_getElem? hget)
    have hkept := Holds.advance faults m hm hp
    rw [hmoved] at hkept
    exact hkept.1

theorem Sound.step (hrely : ∀ x site ok s t, G x site ok s t → R s t)
    (hcode : ∀ x, Holds (G x) (code x) (pre x) (fun _ => .top) .top) (s : Threads σ ε ℓ ι α)
    (a : Turn ε ι) (t : Threads σ ε ℓ ι α) (h : Sound R G s) (hbegun : Begun pre s a)
    (hs : step code s a = some t) : Sound R G t := by
  cases a with
  | begin x =>
    cases hs
    intro p hp
    rcases List.mem_append.mp hp with hp | hp
    · exact h p hp
    · rw [List.mem_singleton.mp hp]
      exact ⟨pre x, hbegun, hcode x⟩
  | next i faults =>
    simp only [Interleaving.step] at hs
    split at hs
    · rename_i x m hget
      split at hs
      · rename_i rest u site ok hmoved
        cases hs
        obtain ⟨P, hp, hm⟩ := h (x, m) (List.mem_of_getElem? hget)
        have hkept := Holds.advance faults m hm hp
        rw [hmoved] at hkept
        intro p hmem
        rcases List.mem_or_eq_of_mem_set hmem with hold | rfl
        · obtain ⟨P, hp, hm⟩ := h p hold
          exact ⟨P, P.stable _ _ (hrely x site ok _ _ hkept.1) hp, hm⟩
        · exact hkept.2
      · cases hs
    · cases hs

theorem sound_of_empty (h : s.threads = []) : Sound R G s := by
  intro p hp
  rw [h] at hp
  cases hp

/-- Where every program keeps its word, every turn of every run is as guaranteed. -/
theorem always_guaranteed (hrely : ∀ x site ok s t, G x site ok s t → R s t)
    (hcode : ∀ x, Holds (G x) (code x) (.top : Assertion R) (fun _ => .top) .top)
    (h : s.threads = []) : Meets (step code) (Guaranteed G) s as := by
  refine meets_of_inv (I := Sound R G) ?_ (fun s a hs => hs.guaranteed a) (sound_of_empty h)
  intro s a t hs ht
  refine Sound.step hrely hcode s a t hs ?_ ht
  cases a <;> trivial

/-- Where every program is begun on an assumption of its own, it holds in all its turns. -/
theorem guaranteed_of_begun (hrely : ∀ x site ok s t, G x site ok s t → R s t)
    (hcode : ∀ x, Holds (G x) (code x) (.top : Assertion R) (fun _ => .top) .top)
    (h : s.threads = []) (hbegun : Meets (step code) (Begun pre) s as) :
    Meets (step code) (Guaranteed fun x site ok s t => G x site ok s t ∧ (pre x).holds s) s
      as := by
  have hframed : ∀ x, Holds (fun site ok s t => G x site ok s t ∧ (pre x).holds s) (code x)
      (pre x) (fun _ => .top) .top := by
    intro x
    exact Holds.weaken _ (Holds.frame (pre x) (hrely x) _ (hcode x)) (fun _ h => ⟨trivial, h⟩)
      (fun _ _ _ => trivial) (fun _ _ => trivial)
  exact meets_of_meets (Sound.step (fun x site ok s t hg => hrely x site ok s t hg.1) hframed)
    (fun s a t hs _ _ => hs.guaranteed a) (sound_of_empty h) hbegun

/-- What every guaranteed turn keeps always holds. -/
theorem always_of_guaranteed (hI : ∀ x site ok s t, G x site ok s t → I s → I t) (h : I s.state)
    (hg : Meets (step code) (Guaranteed G) s as) :
    Always (step code) (fun s => I s.state) s as := by
  refine always_of_meets (I := fun s => I s.state) ?_ h hg
  intro s a t hi hguaranteed hs
  cases a with
  | begin x =>
    cases hs
    exact hi
  | next i faults =>
    simp only [step] at hs
    split at hs
    · rename_i x m hget
      split at hs
      · rename_i rest u site ok hmoved
        cases hs
        exact hI x site ok _ _ (hguaranteed x m rest u site ok hget hmoved) hi
      · cases hs
    · cases hs

end

end Lib.Interleaving
