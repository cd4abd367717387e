import Mathlib.Data.List.Basic

namespace Lib.Replay

variable {σ ε : Type*}

/-- How a record begins and what an entry makes of it; an entry that has no place there makes
nothing of it. -/
structure Reading (σ ε : Type*) where
  begin : ε → Option σ
  after : σ → ε → Option σ

variable (r : Reading σ ε)

def replay : List ε → Option σ
  | [] => none
  | e :: log => (r.begin e).bind (fun s => log.foldlM r.after s)

variable {r} {s : σ} {e : ε} {log : List ε}

theorem replay_single : replay r [e] = r.begin e := by
  simp [replay]

/-- One more entry. -/
theorem replay_snoc (h : replay r log = some s) : replay r (log ++ [e]) = r.after s e := by
  cases log with
  | nil => cases h
  | cons first log =>
    obtain ⟨s₀, hfirst, hrest⟩ := Option.bind_eq_some_iff.mp h
    have hlast : log.foldlM r.after s₀ = some s := hrest
    simp only [List.cons_append, replay, hfirst, Option.bind_some, List.foldlM_append, hlast]
    simp

/-- A log that can be replayed begins once: an entry that no record goes on after is its first or
is not in it. -/
theorem replay_begins (h : replay r log = some s) :
    ∃ first rest, log = first :: rest ∧ r.begin first ≠ none ∧
      ∀ e ∈ rest, ∃ t, r.after t e ≠ none := by
  cases log with
  | nil => cases h
  | cons first rest =>
    obtain ⟨s₀, hfirst, hrest⟩ := Option.bind_eq_some_iff.mp h
    refine ⟨first, rest, rfl, by simp [hfirst], ?_⟩
    clear h hfirst
    induction rest generalizing s₀ with
    | nil => exact fun e he => nomatch he
    | cons e rest ih =>
      rw [List.foldlM_cons] at hrest
      obtain ⟨t, ht, hrest⟩ := Option.bind_eq_some_iff.mp hrest
      intro e' he'
      rcases List.mem_cons.mp he' with rfl | he'
      · exact ⟨s₀, by simp [ht]⟩
      · exact ih t hrest e' he'

end Lib.Replay
