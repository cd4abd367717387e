import Mathlib.Algebra.Order.BigOperators.Group.List
import Mathlib.Data.Int.ModEq
import Mathlib.Tactic.Linarith
import WaOps.Agent.Bounds

namespace WaOps.Agent
open Lib.Runs Lib.Lists

variable {α : Type}

/-- What a counter of 64 bits shows after counting to `n`. -/
def int64 (n : Int) : Int := n.bmod (2 ^ 64)

/-- A slice of more pointers does not fit the address space of 2^48 bytes. -/
def maxSlice : Nat := 2 ^ 45

/-- The loop of Enqueue on the 64-bit counters. -/
def Limited.dropOldest64 (b : Limited α) : List (Item α) → Limited α
  | [] => { b with items := [] }
  | it :: rest =>
    if (it :: rest).length > b.maxItems ∨ b.queued > b.maxBytes then
      { b with
        queued := int64 (b.queued - approxBytes it.samples)
        droppedOverflow := int64 (b.droppedOverflow + 1) }.dropOldest64 rest
    else { b with items := it :: rest }

def Limited.enqueue64 (b : Limited α) (samples : List α) (now : Int) (uid : Nat) : Limited α :=
  { b with
    nextSeq := int64 (b.nextSeq + 1)
    queued := int64 (b.queued + approxBytes samples) }.dropOldest64
      (b.items ++ [b.newItem samples now uid])

def Limited.ack64 (b : Limited α) (ackedSequence : Int) : Limited α :=
  { b.ack ackedSequence with queued := int64 (b.ack ackedSequence).queued }

/-- The least duration is its own negation. -/
def negated (ttl : Int) : Int := int64 (-ttl)

def Limited.dropExpired64 (b : Limited α) (ttl now : Int) : Limited α :=
  let b := b.dropExpired (-negated ttl) now
  { b with queued := int64 b.queued, droppedExpired := int64 b.droppedExpired }

/-- A call on the buffer with Go's counters. -/
def call64 (s : Account α) : Call α → Option (Account α)
  | .enqueue samples now =>
    if now < s.clock ∨ maxSlice < samples.length then none
    else some { s with
      buf := s.buf.enqueue64 samples now s.enqueued
      clock := now
      enqueued := s.enqueued + 1 }
  | .peekBatch _ => some s
  | .ack ackedSequence =>
    some { s with
      buf := s.buf.ack64 ackedSequence
      acked := s.acked + s.buf.ackResult ackedSequence }
  | .dropExpired ttl now =>
    if now < s.clock then none
    else some { s with buf := s.buf.dropExpired64 ttl now, clock := now }

/-- The batches that the buffer still has or has counted. -/
def Account.counted (s : Account α) : Int :=
  s.buf.items.length + s.acked + s.buf.droppedOverflow + s.buf.droppedExpired

/-- The counter of sequences has not come to its end. -/
def Account.Numbered (startSequence : Int) (s : Account α) : Prop :=
  max startSequence 1 + s.enqueued < 2 ^ 63

/-- What holds of the buffer with counters of 64 bits. -/
structure WithinCounters (maxBytes startSequence : Int) (s : Account α) : Prop where
  queued : s.buf.queued = bytesOf s.buf.items
  bytes : s.buf.queued ≤ maxBytes
  length : s.buf.items.length ≤ 256
  modulo : s.enqueued ≡ s.counted [ZMOD 2 ^ 64]
  conserved : s.enqueued < 2 ^ 63 → s.enqueued = s.counted
  consecutive : s.Numbered startSequence → Consecutive s.buf.items s.buf.nextSeq

section
variable {n : Int}

theorem int64_eq (hl : -2 ^ 63 ≤ n) (hu : n < 2 ^ 63) : int64 n = n :=
  Int.bmod_eq_of_le (by omega) (by omega)

theorem int64_add_left (n m : Int) : int64 (int64 n + m) = int64 (n + m) :=
  Int.bmod_add_bmod

theorem int64_modEq (n : Int) : int64 n ≡ n [ZMOD 2 ^ 64] :=
  Int.bmod_emod

end

section
variable {items : List (Item α)}

theorem approxBytes_nonneg (samples : List α) : 0 ≤ approxBytes samples := by
  unfold approxBytes
  omega

theorem bytesOf_nonneg (items : List (Item α)) : 0 ≤ bytesOf items := by
  apply List.sum_nonneg
  intro x hx
  obtain ⟨it, -, rfl⟩ := List.mem_map.mp hx
  exact approxBytes_nonneg _

/-- No sum of the bytes of pending batches comes near the end of its counter. -/
theorem bytesOf_lt (hlen : items.length ≤ 256)
    (hsmall : ∀ it ∈ items, it.samples.length ≤ maxSlice) : bytesOf items ≤ 2 ^ 61 := by
  have hbound : bytesOf items ≤ (items.map (fun it => approxBytes it.samples)).length • 2 ^ 53 := by
    apply List.sum_le_card_nsmul
    intro x hx
    obtain ⟨it, hit, rfl⟩ := List.mem_map.mp hx
    have := hsmall it hit
    simp only [maxSlice] at this
    simp only [approxBytes]
    omega
  rw [List.length_map, nsmul_eq_mul] at hbound
  omega

theorem bytesOf_filter (items : List (Item α)) (p : Item α → Prop) [DecidablePred p] :
    bytesOf (items.filter (fun it => ¬ p it)) =
      bytesOf items - bytesOf (items.filter (fun it => p it)) := by
  have hperm := (List.filter_append_perm (fun it => decide (p it)) items).map
    (fun it => approxBytes it.samples)
  have hsum := hperm.sum_eq
  rw [List.map_append, List.sum_append] at hsum
  simp only [bytesOf, decide_not]
  omega

end

/-- What the counters of 64 bits show of a buffer whose counters have no end. -/
def Limited.shown (g : Limited α) : Limited α :=
  { g with
    nextSeq := int64 g.nextSeq
    droppedOverflow := int64 g.droppedOverflow
    droppedExpired := int64 g.droppedExpired }

section
variable {b g : Limited α} {items : List (Item α)}

theorem shown_eq (hn : -2 ^ 63 ≤ b.nextSeq ∧ b.nextSeq < 2 ^ 63)
    (ho : 0 ≤ b.droppedOverflow ∧ b.droppedOverflow < 2 ^ 63)
    (he : 0 ≤ b.droppedExpired ∧ b.droppedExpired < 2 ^ 63) : b.shown = b := by
  unfold Limited.shown
  rw [int64_eq hn.1 hn.2, int64_eq (by omega) ho.2, int64_eq (by omega) he.2]

theorem dropOldest64_shown (hq : g.queued = bytesOf items) (hlt : bytesOf items < 2 ^ 63) :
    g.shown.dropOldest64 items = (g.dropOldest items).shown := by
  induction items generalizing g with
  | nil => rfl
  | cons it rest ih =>
    have hcons : bytesOf (it :: rest) = approxBytes it.samples + bytesOf rest := by
      simp [bytesOf]
    have hit := approxBytes_nonneg it.samples
    have hrest := bytesOf_nonneg rest
    have hbytes : int64 (g.queued - approxBytes it.samples) = g.queued - approxBytes it.samples :=
      int64_eq (by omega) (by omega)
    unfold Limited.dropOldest64 Limited.dropOldest
    by_cases hover : (it :: rest).length > g.maxItems ∨ g.queued > g.maxBytes
    · have hrec := ih (g := { g with
        queued := g.queued - approxBytes it.samples
        droppedOverflow := g.droppedOverflow + 1 }) (by dsimp only; omega) (by omega)
      simp only [Limited.shown, int64_add_left, hbytes, hover, if_true] at hrec ⊢
      exact hrec
    · simp only [Limited.shown, hover, if_false]

/-- Enqueue with the counters of 64 bits; the new batch is numbered by what they show. -/
theorem enqueue64_shown (samples : List α) (now : Int) (uid : Nat)
    (hq : g.queued = bytesOf g.items) (hlt : bytesOf g.items + approxBytes samples < 2 ^ 63) :
    g.shown.enqueue64 samples now uid =
      ({ g with
        nextSeq := g.nextSeq + 1
        queued := g.queued + approxBytes samples }.dropOldest
          (g.items ++ [g.shown.newItem samples now uid])).shown := by
  have hbytes : int64 (g.queued + approxBytes samples) = g.queued + approxBytes samples := by
    have := bytesOf_nonneg g.items
    have := approxBytes_nonneg samples
    exact int64_eq (by omega) (by omega)
  have hgrown : bytesOf (g.items ++ [g.shown.newItem samples now uid]) =
      bytesOf g.items + approxBytes samples := by
    rw [bytesOf_append]
    simp [bytesOf, Limited.newItem]
  rw [← dropOldest64_shown (by rw [hgrown, ← hq]) (by omega)]
  simp only [Limited.enqueue64, Limited.shown, int64_add_left, hbytes]

/-- While no counter has come to its end, Enqueue counts as with integers. -/
theorem enqueue64_eq (samples : List α) (now : Int) (uid : Nat)
    (hq : b.queued = bytesOf b.items) (hlt : bytesOf b.items + approxBytes samples < 2 ^ 63)
    (hn : 0 ≤ b.nextSeq ∧ b.nextSeq + 1 < 2 ^ 63)
    (ho : 0 ≤ b.droppedOverflow ∧ b.droppedOverflow + b.items.length + 1 < 2 ^ 63)
    (he : 0 ≤ b.droppedExpired ∧ b.droppedExpired < 2 ^ 63) :
    b.enqueue64 samples now uid = b.enqueue samples now uid := by
  have hshown : b.shown = b := shown_eq (by omega) (by omega) he
  obtain ⟨dropped, hi, hdo, hdn, hde⟩ := enqueue_spec b samples now uid
  have hlen := congrArg List.length hi
  simp only [List.length_append, List.length_singleton] at hlen
  calc b.enqueue64 samples now uid = b.shown.enqueue64 samples now uid := by rw [hshown]
    _ = (b.enqueue samples now uid).shown := by
      rw [enqueue64_shown samples now uid hq hlt, hshown]
      rfl
    _ = b.enqueue samples now uid := shown_eq (by omega) (by omega) (by omega)

end

section
variable {b : Limited α}

/-- The bytes left after a filter are counted exactly. -/
theorem filtered_bytes (hq : b.queued = bytesOf b.items) (hlt : bytesOf b.items < 2 ^ 63)
    (p : Item α → Prop) [DecidablePred p] :
    int64 (b.queued - bytesOf (b.items.filter (fun it => p it))) =
      b.queued - bytesOf (b.items.filter (fun it => p it)) := by
  have hkept := bytesOf_filter b.items p
  have hnonneg := bytesOf_nonneg (b.items.filter (fun it => ¬ p it))
  have hremoved := bytesOf_nonneg (b.items.filter (fun it => p it))
  exact int64_eq (by omega) (by omega)

theorem ack64_eq (hq : b.queued = bytesOf b.items) (hlt : bytesOf b.items < 2 ^ 63)
    (ackedSequence : Int) : b.ack64 ackedSequence = b.ack ackedSequence := by
  have hbytes := filtered_bytes hq hlt (fun it => it.sequence ≤ ackedSequence)
  unfold bytesOf at hbytes
  simp only [Limited.ack64, Limited.ack, hbytes]

theorem dropExpired64_eq (hq : b.queued = bytesOf b.items) (hlt : bytesOf b.items < 2 ^ 63)
    (he : 0 ≤ b.droppedExpired ∧ b.droppedExpired + b.items.length < 2 ^ 63) (ttl now : Int) :
    b.dropExpired64 ttl now = b.dropExpired (-negated ttl) now := by
  have hbytes := filtered_bytes hq hlt (fun it => it.createdAt < now - -negated ttl)
  have hlen := List.length_filter_le (fun it => decide (it.createdAt < now - -negated ttl)) b.items
  have hexpired := int64_eq (n := b.droppedExpired +
    (b.items.filter (fun it => it.createdAt < now - -negated ttl)).length) (by omega) (by omega)
  unfold bytesOf at hbytes
  simp only [Limited.dropExpired64, Limited.dropExpired, hbytes, hexpired]

end

/-- The buffer shows what one with endless counters has counted. -/
structure Account.Counted (maxBytes : Int) (g : Limited α) (s : Account α) : Prop where
  shown : s.buf = g.shown
  limits : g.maxItems = 256 ∧ g.maxBytes = maxBytes
  small : ∀ it ∈ g.items, it.samples.length ≤ maxSlice
  queued : g.queued = bytesOf g.items
  bytes : g.queued ≤ maxBytes
  length : g.items.length ≤ 256
  overflow : 0 ≤ g.droppedOverflow
  expired : 0 ≤ g.droppedExpired
  conserved : (s.enqueued : Int) =
    g.items.length + s.acked + g.droppedOverflow + g.droppedExpired

section
variable {maxBytes startSequence now : Int} {g : Limited α} {s t : Account α} {a : Call α}

/-- What a filter leaves, with the batches it takes away counted. -/
theorem Account.Counted.filter (h : s.Counted maxBytes g) (p : Item α → Prop) [DecidablePred p]
    {g' : Limited α} (hi : g'.items = g.items.filter (fun it => ¬ p it))
    (hq : g'.queued = g.queued - bytesOf (g.items.filter (fun it => p it)))
    (hlimits : g'.maxItems = g.maxItems ∧ g'.maxBytes = g.maxBytes)
    (ho : 0 ≤ g'.droppedOverflow) (he : 0 ≤ g'.droppedExpired) (ht : t.buf = g'.shown)
    (hcons : (t.enqueued : Int) =
      g'.items.length + t.acked + g'.droppedOverflow + g'.droppedExpired) :
    t.Counted maxBytes g' := by
  have hsub : g'.items.Sublist g.items := hi ▸ List.filter_sublist
  have hremoved := bytesOf_nonneg (g.items.filter (fun it => p it))
  have hbytes := h.bytes
  refine ⟨ht, ⟨hlimits.1.trans h.limits.1, hlimits.2.trans h.limits.2⟩, ?_, ?_, ?_,
    hsub.length_le.trans h.length, ho, he, hcons⟩
  · exact fun it hit => h.small it (hsub.subset hit)
  · rw [hq, hi, bytesOf_filter, h.queued]
  · omega

theorem Account.Counted.enqueue (h : s.Counted maxBytes g) (hb : 0 ≤ maxBytes)
    {samples : List α} (hsize : samples.length ≤ maxSlice) (now : Int) :
    ∃ g', ({ s with
      buf := s.buf.enqueue64 samples now s.enqueued
      clock := now
      enqueued := s.enqueued + 1 } : Account α).Counted maxBytes g' := by
  have hbound := bytesOf_lt h.length h.small
  have hsamples : approxBytes samples ≤ 2 ^ 53 := by
    simp only [maxSlice] at hsize
    simp only [approxBytes]
    omega
  have hgrown : g.queued + approxBytes samples =
      bytesOf (g.items ++ [g.shown.newItem samples now s.enqueued]) := by
    rw [bytesOf_append, h.queued]
    simp [bytesOf, Limited.newItem]
  have hshown := enqueue64_shown samples now s.enqueued h.queued (by omega)
  rw [← h.shown] at hshown
  set e : Limited α := { g with
    nextSeq := g.nextSeq + 1
    queued := g.queued + approxBytes samples } with he
  set items := g.items ++ [s.buf.newItem samples now s.enqueued] with hitems
  obtain ⟨dropped, hi, ho, -, hx⟩ := dropOldest_spec e items
  obtain ⟨hmi, hmb⟩ := dropOldest_limits e items
  have hcounted : e.queued = bytesOf items := by
    rw [hitems, h.shown]
    exact hgrown
  obtain ⟨hq, hbytes, hlen⟩ := dropOldest_bounded hcounted (h.limits.2 ▸ hb)
  have hcount := congrArg List.length hi
  have hone : items.length = g.items.length + 1 := by simp [hitems]
  have hkept : e.droppedOverflow = g.droppedOverflow ∧ e.droppedExpired = g.droppedExpired :=
    ⟨rfl, rfl⟩
  rw [hone, List.length_append] at hcount
  refine ⟨e.dropOldest items, hshown, ⟨hmi.trans h.limits.1, hmb.trans h.limits.2⟩, ?_, hq,
    hbytes.trans (Int.le_of_eq h.limits.2), hlen.trans (Nat.le_of_eq h.limits.1), ?_, ?_, ?_⟩
  · intro it hit
    have hmem : it ∈ items := hi ▸ List.mem_append_right _ hit
    rcases List.mem_append.mp hmem with hold | hnew
    · exact h.small it hold
    · rw [List.mem_singleton.mp hnew]
      exact hsize
  · have := h.overflow
    omega
  · have := h.expired
    omega
  · have := h.conserved
    push_cast
    omega

theorem Account.Counted.ack (h : s.Counted maxBytes g) (ackedSequence : Int) :
    ({ s with
      buf := s.buf.ack64 ackedSequence
      acked := s.acked + s.buf.ackResult ackedSequence } : Account α).Counted maxBytes
        (g.ack ackedSequence) := by
  have hbound := bytesOf_lt h.length h.small
  have hlen := (List.filter_append_perm
    (fun it => decide (it.sequence ≤ ackedSequence)) g.items).length_eq
  have hbytes := filtered_bytes h.queued (by omega) (fun it => it.sequence ≤ ackedSequence)
  have hitems : s.buf.items = g.items := by
    rw [h.shown]
    rfl
  have hconserved := h.conserved
  rw [List.length_append] at hlen
  unfold bytesOf at hbytes
  refine h.filter (fun it => it.sequence ≤ ackedSequence) rfl rfl ⟨rfl, rfl⟩ h.overflow h.expired
    ?_ ?_
  · simp only [h.shown, Limited.ack64, Limited.ack, Limited.shown, hbytes]
  · simp only [Limited.ack, Limited.ackResult, hitems, decide_not]
    push_cast
    omega

theorem Account.Counted.dropExpired (h : s.Counted maxBytes g) (ttl now : Int) :
    ({ s with buf := s.buf.dropExpired64 ttl now, clock := now } : Account α).Counted maxBytes
      (g.dropExpired (-negated ttl) now) := by
  have hbound := bytesOf_lt h.length h.small
  have hlen := (List.filter_append_perm
    (fun it => decide (it.createdAt < now - -negated ttl)) g.items).length_eq
  have hbytes := filtered_bytes h.queued (by omega)
    (fun it => it.createdAt < now - -negated ttl)
  have hconserved := h.conserved
  have hexpired := h.expired
  rw [List.length_append] at hlen
  unfold bytesOf at hbytes
  refine h.filter (fun it => it.createdAt < now - -negated ttl) rfl rfl ⟨rfl, rfl⟩ h.overflow
    ?_ ?_ ?_
  · simp only [Limited.dropExpired]
    omega
  · simp only [h.shown, Limited.dropExpired64, Limited.dropExpired, Limited.shown,
      int64_add_left, hbytes]
  · simp only [Limited.dropExpired, decide_not]
    omega

theorem call64_counted (hb : 0 ≤ maxBytes) (h : s.Counted maxBytes g) (hs : call64 s a = some t) :
    ∃ g', t.Counted maxBytes g' := by
  cases a with
  | enqueue samples now =>
    simp only [call64] at hs
    split at hs
    · contradiction
    · rename_i hen
      cases hs
      exact h.enqueue hb (by omega) now
  | peekBatch maxItems =>
    cases hs
    exact ⟨g, h⟩
  | ack ackedSequence =>
    cases hs
    exact ⟨_, h.ack ackedSequence⟩
  | dropExpired ttl now =>
    simp only [call64] at hs
    split at hs
    · contradiction
    · cases hs
      exact ⟨_, h.dropExpired ttl now⟩

theorem call64_enqueued (hs : call64 s a = some t) : s.enqueued ≤ t.enqueued := by
  cases a with
  | enqueue samples now =>
    simp only [call64] at hs
    split at hs
    · contradiction
    · cases hs
      exact Nat.le_succ _
  | peekBatch maxItems =>
    cases hs
    exact Nat.le_refl _
  | ack ackedSequence =>
    cases hs
    exact Nat.le_refl _
  | dropExpired ttl now =>
    simp only [call64] at hs
    split at hs
    · contradiction
    · cases hs
      exact Nat.le_refl _

/-- Until its counters come to their ends the buffer takes the steps of the one that counts with
integers. -/
theorem call64_exact (h : s.Counted maxBytes g) (hn : 0 ≤ s.buf.nextSeq)
    (hs : call64 s a = some t) (hrange : s.buf.nextSeq + t.enqueued - s.enqueued < 2 ^ 63)
    (hcount : (t.enqueued : Int) < 2 ^ 63) : ∃ a', call s a' = some t := by
  have hmono := call64_enqueued hs
  have hconserved := h.conserved
  have hg := h.overflow
  have hge := h.expired
  have hbound := bytesOf_lt h.length h.small
  have hitems : s.buf.items = g.items := by
    rw [h.shown]
    rfl
  have hq : s.buf.queued = bytesOf s.buf.items := by
    rw [h.shown]
    exact h.queued
  have ho : s.buf.droppedOverflow = g.droppedOverflow := by
    rw [h.shown]
    exact int64_eq (by omega) (by omega)
  have he : s.buf.droppedExpired = g.droppedExpired := by
    rw [h.shown]
    exact int64_eq (by omega) (by omega)
  rw [← hitems] at hbound hconserved
  cases a with
  | enqueue samples now =>
    by_cases hen : now < s.clock ∨ maxSlice < samples.length
    · simp only [call64, hen, if_true] at hs
      cases hs
    · simp only [call64, hen, if_false] at hs
      have hnext : t.enqueued = s.enqueued + 1 := by
        cases hs
        rfl
      refine ⟨.enqueue samples now, ?_⟩
      have hsamples : approxBytes samples ≤ 2 ^ 53 := by
        simp only [maxSlice] at hen
        simp only [approxBytes]
        omega
      have heq := enqueue64_eq samples now s.enqueued hq (by omega) (by omega) (by omega) (by omega)
      have hnow : ¬ now < s.clock := fun hlt => hen (.inl hlt)
      rw [← hs]
      simp only [call, hnow, if_false, heq]
  | peekBatch maxItems =>
    exact ⟨.peekBatch maxItems, hs⟩
  | ack ackedSequence =>
    refine ⟨.ack ackedSequence, ?_⟩
    rw [← hs]
    simp only [call, call64, ack64_eq hq (by omega)]
  | dropExpired ttl now =>
    refine ⟨.dropExpired (-negated ttl) now, ?_⟩
    rw [← hs]
    simp only [call, call64, dropExpired64_eq hq (by omega) (by omega) ttl now]

/-- What every step keeps: the buffer shows the counts, and until the counter of sequences comes
to its end the buffer is that of the integers. -/
structure Account.Kept (maxBytes startSequence : Int) (s : Account α) : Prop where
  counted : ∃ g, s.Counted maxBytes g
  steady : s.Numbered startSequence →
    s.Steady maxBytes ∧ s.buf.nextSeq = max startSequence 1 + s.enqueued

theorem call64_kept (hb : 0 ≤ maxBytes) (s : Account α) (a : Call α) (t : Account α)
    (h : s.Kept maxBytes startSequence) (hs : call64 s a = some t) :
    t.Kept maxBytes startSequence := by
  obtain ⟨g, hg⟩ := h.counted
  refine ⟨call64_counted hb hg hs, ?_⟩
  intro ht
  have hmono := call64_enqueued hs
  unfold Account.Numbered at ht
  obtain ⟨hsteady, hnext⟩ := h.steady (by unfold Account.Numbered; omega)
  obtain ⟨a', hcall⟩ := call64_exact hg (by omega) hs (by omega) (by omega)
  have hcounted := (call_nextSeq hcall).1
  exact ⟨call_steady hb s a' t hsteady hcall, by omega⟩

theorem openAccount_kept (hb : 0 ≤ maxBytes) (hstart : startSequence < 2 ^ 63) (now : Int) :
    (openAccount maxBytes startSequence now : Account α).Kept maxBytes startSequence := by
  have hfirst : (newLimitedAt maxBytes startSequence : Limited α).nextSeq = max startSequence 1 := by
    simp only [newLimitedAt]
    split <;> omega
  have hshown : (newLimitedAt maxBytes startSequence : Limited α).shown =
      newLimitedAt maxBytes startSequence :=
    shown_eq (by omega) ⟨Int.le_refl 0, Int.pow_pos (by decide)⟩
      ⟨Int.le_refl 0, Int.pow_pos (by decide)⟩
  refine ⟨⟨newLimitedAt maxBytes startSequence, hshown.symm, ⟨rfl, rfl⟩, ?_, rfl, hb,
    Nat.zero_le _, Int.le_refl _, Int.le_refl _, rfl⟩, ?_⟩
  · intro it hit
    cases hit
  · intro _
    refine ⟨openAccount_steady hb startSequence now, ?_⟩
    simpa [openAccount] using hfirst

theorem Account.Kept.within (h : s.Kept maxBytes startSequence) :
    WithinCounters maxBytes startSequence s := by
  obtain ⟨g, hg⟩ := h.counted
  have hconserved := hg.conserved
  have ho := hg.overflow
  have he := hg.expired
  have hcounted : s.counted =
      g.items.length + s.acked + int64 g.droppedOverflow + int64 g.droppedExpired := by
    rw [Account.counted, hg.shown]
    rfl
  refine ⟨?_, ?_, ?_, ?_, ?_, fun hn => (h.steady hn).1.consecutive⟩
  · rw [hg.shown]
    exact hg.queued
  · rw [hg.shown]
    exact hg.bytes
  · rw [hg.shown]
    exact hg.length
  · rw [hcounted, hconserved]
    exact (((Int.ModEq.refl _).add (int64_modEq _)).add (int64_modEq _)).symm
  · intro hlt
    rw [hcounted, int64_eq (by omega) (by omega), int64_eq (by omega) (by omega), hconserved]

/-- After every operation the bytes are counted and both bounds are kept, every batch given is
pending or counted once as far as the counters reach, and until the counter of sequences has
come to its end the sequences have no gap. -/
theorem counters_within_bounds (hb : 0 ≤ maxBytes) (hstart : startSequence < 2 ^ 63) (now : Int)
    (as : List (Call α)) :
    Always call64 (WithinCounters maxBytes startSequence)
      (openAccount maxBytes startSequence now) as :=
  (always_of_inv (call64_kept hb) (openAccount_kept hb hstart now)).mono
    (fun _ h => h.within)

theorem three_batches_counted : Always call64 (WithinCounters 600 7) (openAccount 600 7 0)
    [.enqueue ["a"] 1, .enqueue ["b"] 2, .enqueue ["c"] 2, .peekBatch 100, .ack 8,
      .dropExpired 5 10] :=
  counters_within_bounds (by decide) (by decide) 0 _

/-- A buffer without room for a batch drops each, and counts them. -/
theorem exec_drained (n : Nat) :
    exec call64 (openAccount 0 1 0) (List.replicate n (.enqueue [()] 0)) =
      some {
        buf := { nextSeq := int64 (1 + n), maxBytes := 0, droppedOverflow := int64 n }
        clock := 0
        enqueued := n } := by
  induction n with
  | zero => rfl
  | succ n ih =>
    have hseq : int64 (1 + n + 1) = int64 (1 + (n + 1)) := by rw [Int.add_assoc]
    rw [List.replicate_succ']
    refine exec_snoc ih ?_
    simp [call64, Limited.enqueue64, Limited.newItem, Limited.dropOldest64, approxBytes, maxSlice,
      int64_add_left, int64_eq, hseq]

/-- After the largest sequence comes the least one, and after 2^63 lost batches their count is
negative. -/
theorem counters_run_out :
    ¬ Always call64 (WithinBounds 1024) (openAccount 1024 9223372036854775807 0)
      [.enqueue ["a"] 0, .enqueue ["b"] 0] ∧
    ¬ Always call64 (WithinBounds 0) (openAccount 0 1 0)
      (List.replicate (2 ^ 63) (.enqueue [()] 0)) := by
  constructor
  · intro h
    have hrun : exec call64 (openAccount 1024 9223372036854775807 0)
        [.enqueue ["a"] 0, .enqueue ["b"] 0] = some {
          buf := {
            items := [⟨9223372036854775807, ["a"], 0, 0⟩, ⟨-9223372036854775808, ["b"], 0, 1⟩]
            nextSeq := -9223372036854775807
            queued := 512
            maxBytes := 1024 }
          clock := 0
          enqueued := 2 } := by decide
    have hfirst := (h.last hrun).consecutive 0 _ rfl
    exact absurd hfirst (by decide)
  · intro h
    have hconserved := (h.last (exec_drained (2 ^ 63))).conserved
    have hlost : int64 ((2 ^ 63 : Nat) : Int) = -2 ^ 63 := by decide
    simp only [hlost] at hconserved
    norm_num at hconserved

end

end WaOps.Agent
