import Mathlib.Data.List.Pairwise
import Mathlib.Order.Lattice

namespace Lib.Feed

variable {α κ : Type*} [LinearOrder κ] {key : α → κ} {owed owed' : α → Prop}
  {feed more : List α} {x : α}

/-- Whoever reads the feed never reaches the key of an owed element before the element. -/
def InOrder (key : α → κ) (owed : α → Prop) : List α → Prop
  | [] => True
  | x :: feed => (∀ e, owed e → key e ≤ key x → e = x) ∧ InOrder key (fun e => owed e ∧ e ≠ x) feed

theorem InOrder.mono (h : InOrder key owed feed) (hs : ∀ e, owed' e → owed e) :
    InOrder key owed' feed := by
  induction feed generalizing owed owed' with
  | nil => trivial
  | cons x feed ih =>
    refine ⟨fun e he => h.1 e (hs e he), ih h.2 ?_⟩
    intro e he
    exact ⟨hs e he.1, he.2⟩

/-- What is appended only has to be in order for what is not already in the feed. -/
theorem inOrder_append : InOrder key owed (feed ++ more) ↔
    InOrder key owed feed ∧ InOrder key (fun e => owed e ∧ e ∉ feed) more := by
  induction feed generalizing owed with
  | nil => simp [InOrder]
  | cons x feed ih =>
    have hcongr : (fun e => (owed e ∧ e ≠ x) ∧ e ∉ feed) = fun e => owed e ∧ e ∉ x :: feed := by
      funext e
      simp only [List.mem_cons, not_or, and_assoc]
    rw [List.cons_append, InOrder, InOrder, ih, hcongr, and_assoc]

/-- A sorted run of elements is in order for what is owed if nothing is owed below its keys
but its own elements. -/
theorem inOrder_of_sorted (hs : feed.Pairwise (fun x y => key x ≤ key y))
    (hinj : ∀ x ∈ feed, ∀ y ∈ feed, key x = key y → x = y)
    (hin : ∀ e, owed e → ∀ x ∈ feed, key e ≤ key x → e ∈ feed) : InOrder key owed feed := by
  induction feed generalizing owed with
  | nil => trivial
  | cons x feed ih =>
    obtain ⟨hx, hs⟩ := List.pairwise_cons.mp hs
    refine ⟨?_, ih hs ?_ ?_⟩
    · intro e he hle
      obtain rfl | hmem := List.mem_cons.mp (hin e he x List.mem_cons_self hle)
      · rfl
      · have hkey : key e = key x := le_antisymm hle (hx e hmem)
        exact hinj e (List.mem_cons_of_mem x hmem) x List.mem_cons_self hkey
    · intro y hy z hz
      exact hinj y (List.mem_cons_of_mem x hy) z (List.mem_cons_of_mem x hz)
    · intro e he y hy hle
      obtain rfl | hmem := List.mem_cons.mp (hin e he.1 y (List.mem_cons_of_mem x hy) hle)
      · exact absurd rfl he.2
      · exact hmem

/-- An element with a key above the whole feed may come to be owed. -/
theorem InOrder.owe (h : InOrder key owed feed) (hx : ∀ y ∈ feed, key y < key x) :
    InOrder key (fun e => owed e ∨ e = x) feed := by
  induction feed generalizing owed with
  | nil => trivial
  | cons y feed ih =>
    refine ⟨?_, ?_⟩
    · intro e he hle
      obtain he | rfl := he
      · exact h.1 e he hle
      · exact absurd hle (not_le.mpr (hx y List.mem_cons_self))
    · have hrest := ih h.2 fun z hz => hx z (List.mem_cons_of_mem y hz)
      refine hrest.mono ?_
      intro e he
      obtain ⟨he | rfl, hne⟩ := he
      · exact .inl ⟨he, hne⟩
      · exact .inr rfl

end Lib.Feed
