import Mathlib.Algebra.Order.Ring.Int
import Mathlib.Data.List.Sort

namespace WaOps.Agent

/-- One pending batch. The number `uid` tells batches of all lifetimes apart; it is history
that no operation reads. -/
structure Item (α : Type) where
  sequence : Int
  samples : List α
  createdAt : Int
  uid : Nat
  deriving DecidableEq, Repr

/-- The buffer. Its counters are integers, as the ones of 64 bits show them until they come to
their ends (`enqueue64_eq`). -/
structure Limited (α : Type) where
  items : List (Item α) := []
  nextSeq : Int
  maxItems : Nat := 256
  queued : Int := 0
  maxBytes : Int
  droppedOverflow : Int := 0
  droppedExpired : Int := 0
  deriving DecidableEq, Repr

variable {α : Type}

def approxBytes (samples : List α) : Int :=
  samples.length * 256

def newLimitedAt (maxBytes startSequence : Int) : Limited α :=
  { nextSeq := if startSequence < 1 then 1 else startSequence, maxBytes }

/-- The loop of Enqueue: drop the oldest while a bound is exceeded. -/
def Limited.dropOldest (b : Limited α) : List (Item α) → Limited α
  | [] => { b with items := [] }
  | it :: rest =>
    if (it :: rest).length > b.maxItems ∨ b.queued > b.maxBytes then
      { b with
        queued := b.queued - approxBytes it.samples
        droppedOverflow := b.droppedOverflow + 1 }.dropOldest rest
    else { b with items := it :: rest }

def Limited.newItem (b : Limited α) (samples : List α) (now : Int) (uid : Nat) : Item α :=
  { sequence := b.nextSeq, samples, createdAt := now, uid }

def Limited.enqueue (b : Limited α) (samples : List α) (now : Int) (uid : Nat) : Limited α :=
  { b with
    nextSeq := b.nextSeq + 1
    queued := b.queued + approxBytes samples }.dropOldest (b.items ++ [b.newItem samples now uid])

def Limited.peekBatch (b : Limited α) (maxItems : Nat) : List α × Int :=
  match b.items with
  | [] => ([], 0)
  | first :: _ => ((b.items.take maxItems).flatMap Item.samples, first.sequence)

def Limited.ack (b : Limited α) (ackedSequence : Int) : Limited α :=
  let removed := b.items.filter (fun it => it.sequence ≤ ackedSequence)
  { b with
    items := b.items.filter (fun it => ¬ it.sequence ≤ ackedSequence)
    queued := b.queued - (removed.map (fun it => approxBytes it.samples)).sum }

def Limited.dropExpired (b : Limited α) (ttl now : Int) : Limited α :=
  let cutoff := now - ttl
  let removed := b.items.filter (fun it => it.createdAt < cutoff)
  { b with
    items := b.items.filter (fun it => ¬ it.createdAt < cutoff)
    queued := b.queued - (removed.map (fun it => approxBytes it.samples)).sum
    droppedExpired := b.droppedExpired + removed.length }

/-- The loop drops a beginning of the list and counts it. -/
theorem dropOldest_spec (b : Limited α) (items : List (Item α)) :
    ∃ dropped, items = dropped ++ (b.dropOldest items).items ∧
      (b.dropOldest items).droppedOverflow = b.droppedOverflow + dropped.length ∧
      (b.dropOldest items).nextSeq = b.nextSeq ∧
      (b.dropOldest items).droppedExpired = b.droppedExpired := by
  induction items generalizing b with
  | nil => exact ⟨[], by simp [Limited.dropOldest]⟩
  | cons it rest ih =>
    unfold Limited.dropOldest
    split
    · obtain ⟨dropped, hi, ho, hn, he⟩ := ih { b with
        queued := b.queued - approxBytes it.samples
        droppedOverflow := b.droppedOverflow + 1 }
      refine ⟨it :: dropped, ?_, ?_, hn, he⟩
      · rw [List.cons_append, ← hi]
      · rw [ho]
        simp only [List.length_cons]
        omega
    · exact ⟨[], by simp⟩

theorem enqueue_spec (b : Limited α) (samples : List α) (now : Int) (uid : Nat) :
    ∃ dropped, b.items ++ [b.newItem samples now uid] =
        dropped ++ (b.enqueue samples now uid).items ∧
      (b.enqueue samples now uid).droppedOverflow = b.droppedOverflow + dropped.length ∧
      (b.enqueue samples now uid).nextSeq = b.nextSeq + 1 ∧
      (b.enqueue samples now uid).droppedExpired = b.droppedExpired :=
  dropOldest_spec { b with
    nextSeq := b.nextSeq + 1
    queued := b.queued + approxBytes samples } _

/-- Pending batches stand in the order of their sequences, all below the next one. -/
structure Limited.Ordered (b : Limited α) : Prop where
  sorted : b.items.Pairwise (fun x y => x.sequence < y.sequence)
  below : ∀ it ∈ b.items, it.sequence < b.nextSeq

theorem Limited.Ordered.enqueue {b : Limited α} (h : b.Ordered) (samples : List α) (now : Int)
    (uid : Nat) : (b.enqueue samples now uid).Ordered := by
  obtain ⟨dropped, hi, _, hn, _⟩ := enqueue_spec b samples now uid
  have happ : (b.items ++ [b.newItem samples now uid]).Pairwise
      (fun x y => x.sequence < y.sequence) := by
    rw [List.pairwise_append]
    refine ⟨h.sorted, List.pairwise_singleton _ _, ?_⟩
    intro x hx y hy
    rw [List.mem_singleton.mp hy]
    exact h.below x hx
  rw [hi] at happ
  refine ⟨(List.pairwise_append.mp happ).2.1, ?_⟩
  intro it hit
  have hm : it ∈ b.items ++ [b.newItem samples now uid] := by
    rw [hi]
    exact List.mem_append_right _ hit
  rw [hn]
  rcases List.mem_append.mp hm with hm | hm
  · have := h.below it hm
    omega
  · rw [List.mem_singleton.mp hm]
    exact Int.lt_succ _

theorem Limited.Ordered.filter {b b' : Limited α} (h : b.Ordered) {p : Item α → Bool}
    (hi : b'.items = b.items.filter p) (hn : b'.nextSeq = b.nextSeq) : b'.Ordered := by
  refine ⟨by rw [hi]; exact h.sorted.filter _, ?_⟩
  intro it hit
  rw [hi] at hit
  rw [hn]
  exact h.below it (List.mem_filter.mp hit).1

theorem Limited.Ordered.ack {b : Limited α} (h : b.Ordered) (s : Int) : (b.ack s).Ordered :=
  h.filter rfl rfl

theorem Limited.Ordered.dropExpired {b : Limited α} (h : b.Ordered) (ttl now : Int) :
    (b.dropExpired ttl now).Ordered :=
  h.filter rfl rfl

/-- The sequence a request is sent under is the least pending one. -/
theorem Limited.Ordered.head_le {b : Limited α} (h : b.Ordered) {first : Item α}
    {rest : List (Item α)} (hf : b.items = first :: rest) :
    ∀ it ∈ b.items, first.sequence ≤ it.sequence := by
  intro it hit
  have hs := h.sorted
  rw [hf] at hs hit
  rcases List.mem_cons.mp hit with rfl | hm
  · exact Int.le_refl _
  · have := (List.pairwise_cons.mp hs).1 it hm
    omega

end WaOps.Agent
