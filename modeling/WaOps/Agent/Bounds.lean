import Mathlib.Algebra.Order.BigOperators.Group.List
import WaOps.Agent.Buffer
import WaOps.Lib.Lists
import WaOps.Lib.Runs

namespace WaOps.Agent
open Lib.Runs Lib.Lists

variable {α : Type}

/-- What Ack returns. -/
def Limited.ackResult (b : Limited α) (ackedSequence : Int) : Nat :=
  (b.items.filter (fun it => it.sequence ≤ ackedSequence)).length

def bytesOf (items : List (Item α)) : Int :=
  (items.map (fun it => approxBytes it.samples)).sum

/-- A buffer with the last reading of the clock and what its callers have seen. -/
structure Account (α : Type) where
  buf : Limited α
  clock : Int
  enqueued : Nat := 0
  acked : Nat := 0
  deriving DecidableEq, Repr

inductive Call (α : Type) where
  | enqueue (samples : List α) (now : Int)
  | peekBatch (maxItems : Nat)
  | ack (ackedSequence : Int)
  | dropExpired (ttl now : Int)
  deriving DecidableEq, Repr

/-- The clock does not run backwards. -/
def call (s : Account α) : Call α → Option (Account α)
  | .enqueue samples now =>
    if now < s.clock then none
    else some { s with
      buf := s.buf.enqueue samples now s.enqueued
      clock := now
      enqueued := s.enqueued + 1 }
  | .peekBatch _ => some s
  | .ack ackedSequence =>
    some { s with
      buf := s.buf.ack ackedSequence
      acked := s.acked + s.buf.ackResult ackedSequence }
  | .dropExpired ttl now =>
    if now < s.clock then none
    else some { s with buf := s.buf.dropExpired ttl now, clock := now }

def openAccount (maxBytes startSequence now : Int) : Account α :=
  { buf := newLimitedAt maxBytes startSequence, clock := now }

/-- The sequences of the items are consecutive and end before the next one. -/
def Consecutive (items : List (Item α)) (nextSeq : Int) : Prop :=
  ∀ (i : Nat) (it : Item α), items[i]? = some it → it.sequence = nextSeq - items.length + i

structure WithinBounds (maxBytes : Int) (s : Account α) : Prop where
  consecutive : Consecutive s.buf.items s.buf.nextSeq
  queued : s.buf.queued = bytesOf s.buf.items
  bytes : s.buf.queued ≤ maxBytes
  length : s.buf.items.length ≤ 256
  conserved : (s.enqueued : Int) =
    s.buf.items.length + s.acked + s.buf.droppedOverflow + s.buf.droppedExpired

/-- What the operations need besides: the limits stay as they were set, and the items
stand in the order of their ages. -/
structure Account.Steady (maxBytes : Int) (s : Account α) : Prop extends WithinBounds maxBytes s where
  maxItems : s.buf.maxItems = 256
  maxBytes : s.buf.maxBytes = maxBytes
  aged : s.buf.items.Pairwise (fun x y => x.createdAt ≤ y.createdAt)
  past : ∀ it ∈ s.buf.items, it.createdAt ≤ s.clock

section
variable {items dropped kept : List (Item α)} {n : Int}

theorem bytesOf_append (xs ys : List (Item α)) :
    bytesOf (xs ++ ys) = bytesOf xs + bytesOf ys := by
  simp [bytesOf]

theorem Consecutive.suffix (h : Consecutive (dropped ++ kept) n) : Consecutive kept n := by
  intro i it hi
  have hg : (dropped ++ kept)[dropped.length + i]? = some it := by
    rw [List.getElem?_append_right (Nat.le_add_right _ _), Nat.add_sub_cancel_left]
    exact hi
  have hs := h _ it hg
  simp only [List.length_append, Int.natCast_add] at hs
  omega

theorem Consecutive.concat (h : Consecutive items n) {it : Item α} (hs : it.sequence = n) :
    Consecutive (items ++ [it]) (n + 1) := by
  intro i x hi
  rw [List.getElem?_append] at hi
  simp only [List.length_append, List.length_singleton, Int.natCast_add, Int.natCast_one]
  split at hi
  · have := h i x hi
    omega
  · rename_i hlt
    have hlast : i - items.length = 0 := by
      obtain ⟨hb, -⟩ := List.getElem?_eq_some_iff.mp hi
      simp only [List.length_singleton] at hb
      omega
    rw [hlast] at hi
    cases hi
    omega

end

section
variable {maxBytes : Int} {b : Limited α} {items : List (Item α)}

theorem dropOldest_limits (b : Limited α) (items : List (Item α)) :
    (b.dropOldest items).maxItems = b.maxItems ∧ (b.dropOldest items).maxBytes = b.maxBytes := by
  induction items generalizing b with
  | nil => exact ⟨rfl, rfl⟩
  | cons it rest ih =>
    unfold Limited.dropOldest
    split
    · exact ih _
    · exact ⟨rfl, rfl⟩

/-- The loop ends within both bounds: in the worst case it empties the buffer. -/
theorem dropOldest_bounded (hq : b.queued = bytesOf items) (hb : 0 ≤ b.maxBytes) :
    (b.dropOldest items).queued = bytesOf (b.dropOldest items).items ∧
      (b.dropOldest items).queued ≤ b.maxBytes ∧
      (b.dropOldest items).items.length ≤ b.maxItems := by
  induction items generalizing b with
  | nil =>
    have hz : b.queued = 0 := hq
    simp [Limited.dropOldest, hz, hb, bytesOf]
  | cons it rest ih =>
    unfold Limited.dropOldest
    split
    · apply ih
      · simp only [hq, bytesOf, List.map_cons, List.sum_cons]
        omega
      · exact hb
    · rename_i hfits
      simp only [not_or, gt_iff_lt, not_lt] at hfits
      exact ⟨hq, hfits.2, hfits.1⟩

end

section
variable {maxBytes : Int} {s : Account α}

/-- Taking a beginning away from the items and its bytes from the count. -/
theorem Account.Steady.shorten (h : s.Steady maxBytes) (s' : Account α) {removed : List (Item α)}
    (hi : s.buf.items = removed ++ s'.buf.items)
    (hq : s'.buf.queued = s.buf.queued - bytesOf removed)
    (hn : s'.buf.nextSeq = s.buf.nextSeq) (hm : s'.buf.maxItems = s.buf.maxItems)
    (hb : s'.buf.maxBytes = s.buf.maxBytes) (hc : s.clock ≤ s'.clock)
    (hcons : (s'.enqueued : Int) =
      s'.buf.items.length + s'.acked + s'.buf.droppedOverflow + s'.buf.droppedExpired) :
    s'.Steady maxBytes := by
  have hold := h.queued
  rw [hi, bytesOf_append] at hold
  have hnonneg : 0 ≤ bytesOf removed := by
    apply List.sum_nonneg
    intro x hx
    obtain ⟨it, -, rfl⟩ := List.mem_map.mp hx
    simp only [approxBytes]
    omega
  have hlen := congrArg List.length hi
  rw [List.length_append] at hlen
  have hmem : ∀ it ∈ s'.buf.items, it ∈ s.buf.items := by
    intro it hit
    rw [hi]
    exact List.mem_append_right _ hit
  refine ⟨⟨?_, ?_, ?_, ?_, hcons⟩, hm.trans h.maxItems, hb.trans h.maxBytes, ?_, ?_⟩
  · rw [hn]
    exact Consecutive.suffix (hi ▸ h.consecutive)
  · omega
  · have := h.bytes
    omega
  · have := h.length
    omega
  · have := h.aged
    rw [hi] at this
    exact (List.pairwise_append.mp this).2.1
  · intro it hit
    exact Int.le_trans (h.past it (hmem it hit)) hc

end

section
variable {maxBytes : Int} {s : Account α}

/-- The items with the new one, before the loop drops any. -/
theorem Account.Steady.enqueue (h : s.Steady maxBytes) (hb : 0 ≤ maxBytes) (samples : List α)
    {now : Int} (hnow : s.clock ≤ now) :
    ({ s with
      buf := s.buf.enqueue samples now s.enqueued
      clock := now
      enqueued := s.enqueued + 1 } : Account α).Steady maxBytes := by
  have hgrown : bytesOf (s.buf.items ++ [s.buf.newItem samples now s.enqueued]) =
      s.buf.queued + approxBytes samples := by
    rw [bytesOf_append, ← h.queued]
    simp [bytesOf, Limited.newItem]
  obtain ⟨dropped, hi, ho, hn, he⟩ := enqueue_spec s.buf samples now s.enqueued
  obtain ⟨hm, hmb⟩ := dropOldest_limits { s.buf with
    nextSeq := s.buf.nextSeq + 1
    queued := s.buf.queued + approxBytes samples }
    (s.buf.items ++ [s.buf.newItem samples now s.enqueued])
  obtain ⟨hq, hbytes, hlen⟩ := dropOldest_bounded hgrown.symm (b := { s.buf with
    nextSeq := s.buf.nextSeq + 1
    queued := s.buf.queued + approxBytes samples }) (h.maxBytes ▸ hb)
  have hconsec : Consecutive (s.buf.items ++ [s.buf.newItem samples now s.enqueued])
      (s.buf.nextSeq + 1) := h.consecutive.concat rfl
  have haged : (s.buf.items ++ [s.buf.newItem samples now s.enqueued]).Pairwise
      (fun x y => x.createdAt ≤ y.createdAt) := by
    rw [List.pairwise_append]
    refine ⟨h.aged, List.pairwise_singleton _ _, ?_⟩
    intro x hx y hy
    rw [List.mem_singleton.mp hy]
    exact Int.le_trans (h.past x hx) hnow
  have hpast : ∀ it ∈ s.buf.items ++ [s.buf.newItem samples now s.enqueued],
      it.createdAt ≤ now := by
    intro it hit
    rcases List.mem_append.mp hit with hit | hit
    · exact Int.le_trans (h.past it hit) hnow
    · rw [List.mem_singleton.mp hit]
      exact Int.le_refl _
  have hcount := congrArg List.length hi
  simp only [List.length_append, List.length_singleton] at hcount
  rw [hi] at hconsec haged hpast
  refine ⟨⟨?_, hq, hbytes.trans (Int.le_of_eq h.maxBytes), hlen.trans (Nat.le_of_eq h.maxItems),
    ?_⟩, hm.trans h.maxItems, hmb.trans h.maxBytes, (List.pairwise_append.mp haged).2.1, ?_⟩
  · rw [hn]
    exact hconsec.suffix
  · have := h.conserved
    rw [ho, he]
    dsimp only
    omega
  · exact fun it hit => hpast it (List.mem_append_right _ hit)

theorem Account.Steady.ack (h : s.Steady maxBytes) (ackedSequence : Int) :
    ({ s with
      buf := s.buf.ack ackedSequence
      acked := s.acked + s.buf.ackResult ackedSequence } : Account α).Steady maxBytes := by
  have hsorted : s.buf.items.Pairwise (fun x y => x.sequence < y.sequence) := by
    rw [List.pairwise_iff_getElem]
    intro i j hi hj hij
    have hx := h.consecutive i _ (List.getElem?_eq_getElem hi)
    have hy := h.consecutive j _ (List.getElem?_eq_getElem hj)
    omega
  have hcut := filter_cut (p := fun it => it.sequence ≤ ackedSequence) (hsorted.imp (by
    intro x y hxy hy
    simp only [decide_eq_true_eq] at hy ⊢
    omega))
  simp only [decide_eq_true_eq] at hcut
  refine h.shorten { s with
    buf := s.buf.ack ackedSequence
    acked := s.acked + s.buf.ackResult ackedSequence } hcut rfl rfl rfl rfl
    (Int.le_refl _) ?_
  have hlen := congrArg List.length hcut
  rw [List.length_append] at hlen
  have := h.conserved
  simp only [Limited.ack, Limited.ackResult, Int.natCast_add]
  omega

theorem Account.Steady.dropExpired (h : s.Steady maxBytes) (ttl : Int) {now : Int}
    (hnow : s.clock ≤ now) :
    ({ s with buf := s.buf.dropExpired ttl now, clock := now } : Account α).Steady maxBytes := by
  have hcut := filter_cut (p := fun it => it.createdAt < now - ttl) (h.aged.imp (by
    intro x y hxy hy
    simp only [decide_eq_true_eq] at hy ⊢
    omega))
  simp only [decide_eq_true_eq] at hcut
  refine h.shorten { s with buf := s.buf.dropExpired ttl now, clock := now }
    hcut rfl rfl rfl rfl hnow ?_
  have hlen := congrArg List.length hcut
  rw [List.length_append] at hlen
  have := h.conserved
  simp only [Limited.dropExpired]
  omega

theorem call_steady (hb : 0 ≤ maxBytes) (s : Account α) (a : Call α) (t : Account α)
    (h : s.Steady maxBytes) (hs : call s a = some t) : t.Steady maxBytes := by
  cases a with
  | enqueue samples now =>
    simp only [call] at hs
    split at hs
    · contradiction
    · rename_i hnow
      cases hs
      exact h.enqueue hb samples (not_lt.mp hnow)
  | peekBatch maxItems =>
    cases hs
    exact h
  | ack ackedSequence =>
    cases hs
    exact h.ack ackedSequence
  | dropExpired ttl now =>
    simp only [call] at hs
    split at hs
    · contradiction
    · rename_i hnow
      cases hs
      exact h.dropExpired ttl (not_lt.mp hnow)

theorem openAccount_steady (hb : 0 ≤ maxBytes) (startSequence now : Int) :
    (openAccount maxBytes startSequence now : Account α).Steady maxBytes := by
  refine ⟨⟨?_, rfl, hb, Nat.zero_le _, rfl⟩, rfl, rfl, List.Pairwise.nil, ?_⟩
  · intro i it hi
    cases hi
  · intro it hit
    cases hit

end

section
variable {s t : Account α}

/-- The counter of sequences counts what is enqueued. -/
theorem call_nextSeq {a : Call α} (hs : call s a = some t) :
    t.buf.nextSeq = s.buf.nextSeq + t.enqueued - s.enqueued ∧ s.enqueued ≤ t.enqueued := by
  cases a with
  | enqueue samples now =>
    simp only [call] at hs
    split at hs
    · contradiction
    · cases hs
      obtain ⟨-, -, -, hn, -⟩ := enqueue_spec s.buf samples now s.enqueued
      refine ⟨?_, Nat.le_succ _⟩
      dsimp only
      rw [hn]
      push_cast
      omega
  | peekBatch maxItems =>
    cases hs
    simp
  | ack ackedSequence =>
    cases hs
    simp [Limited.ack]
  | dropExpired ttl now =>
    simp only [call] at hs
    split at hs
    · contradiction
    · cases hs
      simp [Limited.dropExpired]

end

end WaOps.Agent
