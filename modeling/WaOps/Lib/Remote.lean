import WaOps.Lib.Scoped

namespace Lib.Remote
open Scoped

inductive Fate (ε : Type) where
  | answered
  /-- It fails and has done nothing. -/
  | refused (e : ε)
  /-- It fails and has taken effect. -/
  | lost (e : ε)
  deriving DecidableEq, Repr

variable {σ ε α : Type}

def Fate.effective : Fate ε → Bool
  | .refused _ => false
  | _ => true

def Fate.answer : Fate ε → Except ε Unit
  | .answered => .ok ()
  | .refused e | .lost e => .error e

def call (fate : Fate ε) (effect : σ → σ) : Comp σ ε Unit :=
  statement fun s => (fate.answer, if fate.effective then effect s else s)

/-- `try m catch (e) k` -/
def handle (m : Comp σ ε α) (k : ε → Comp σ ε α) : Comp σ ε α :=
  statement fun s =>
    match outcome m s with
    | (.ok a, t) => (.ok a, t)
    | (.error e, t) => outcome (k e) t

variable {β : Type} {fate : Fate ε} {effect : σ → σ} {m : Comp σ ε α} {k : ε → Comp σ ε α}
  {f : α → Comp σ ε β} {s t : σ} {a : α} {b : β} {e : ε}

@[simp] theorem outcome_call : outcome (call fate effect) s =
    (fate.answer, if fate.effective then effect s else s) := rfl

theorem outcome_answered : outcome (call (.answered : Fate ε) effect) s = (.ok (), effect s) := rfl

theorem outcome_handle : outcome (handle m k) s =
    match outcome m s with
    | (.ok a, t) => (.ok a, t)
    | (.error e, t) => outcome (k e) t := rfl

theorem outcome_map {g : α → β} :
    outcome (g <$> m) s = ((outcome m s).1.map g, (outcome m s).2) := by
  rw [map_eq_pure_bind, outcome_bind]
  rcases outcome m s with ⟨e | a, t⟩ <;> rfl

theorem call_ok {u : Unit} (h : outcome (call fate effect) s = (.ok u, t)) :
    fate = .answered ∧ t = effect s := by
  cases fate with
  | answered =>
    cases h
    exact ⟨rfl, rfl⟩
  | refused e => cases h
  | lost e => cases h

end Lib.Remote
