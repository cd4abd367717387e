import WaOps.Agent.Bounds
import WaOps.Agent.Session

namespace WaOps.Agent
open Lib.Runs

/-- What one attempt of a flush meets. -/
structure Attempt where
  /-- ShouldThrottle says so. -/
  throttled : Bool := false
  gate : Gate
  /-- SendMetrics fails without an answer, whatever the gateway did. -/
  lost : Bool := false
  /-- The context ends while the flush sleeps. -/
  cancelled : Bool := false
  deriving DecidableEq, Repr

structure Tick (α : Type) where
  host : List α
  hostAt : Int
  /-- What collectDocker gathers; nothing without the capability or where the list fails. -/
  docker : List α := []
  dockerAt : Int
  attempts : Nat → Attempt

structure Scheduler (α : Type) where
  agentId : String
  buf : Limited α
  /-- The jobs of ingest.metrics. -/
  jobs : List (Job α) := []
  /-- History: how many batches the buffer was given. -/
  enqueued : Nat := 0
  deriving DecidableEq, Repr

variable {α : Type}

def Scheduler.enqueue (s : Scheduler α) (samples : List α) (now : Int) : Scheduler α :=
  if samples.length > 0 then
    { s with buf := s.buf.enqueue samples now s.enqueued, enqueued := s.enqueued + 1 }
  else s

def Scheduler.collectAndQueue (s : Scheduler α) (t : Tick α) : Scheduler α :=
  (s.enqueue t.host t.hostAt).enqueue t.docker t.dockerAt

def Scheduler.request (s : Scheduler α) : Request α :=
  { agentId := s.agentId
    sequence := (s.buf.peekBatch maxItems).2
    batches := s.buf.items.take maxItems }

/-- The buffer is above the drain threshold, where a failed attempt is not slept over. -/
def Limited.draining (b : Limited α) : Bool :=
  4 * b.maxBytes < 5 * b.queued

/-- The attempts of a flush that are left, the next one first. -/
def Scheduler.flush (attempts : Nat → Attempt) : Nat → Scheduler α → Scheduler α
  | 0, s => s
  | left + 1, s =>
    let a := attempts (4 - left)
    if a.throttled then s
    else if (s.buf.peekBatch maxItems).1.length = 0 then s
    else
      let (jobs, reply) := metrics a.gate s.request s.jobs
      match if a.lost then .error 0 else reply with
      | .acked sequence => { s with buf := s.buf.ack sequence, jobs }
      | .error _ =>
        if !s.buf.draining && a.cancelled then { s with jobs }
        else { s with jobs }.flush attempts left

def Scheduler.tick (s : Scheduler α) (t : Tick α) : Scheduler α :=
  (s.collectAndQueue t).flush t.attempts 5

def collectTick (s : Scheduler α) (t : Tick α) : Option (Scheduler α) :=
  some (s.tick t)

def newScheduler (agentId : String) (maxBytes startSequence : Int) (jobs : List (Job α)) :
    Scheduler α :=
  { agentId, buf := newLimitedAt maxBytes startSequence, jobs }

/-- The batches a tick enqueues. -/
def Tick.batches (t : Tick α) : List (List α) :=
  [t.host, t.docker].filter (fun samples => samples.length > 0)

/-- The tick's SendMetrics succeeds; the gateway answers with the sequence it was sent. -/
def Tick.Healthy (agentId : String) (t : Tick α) : Prop :=
  t.attempts 0 = { gate := { identity := some agentId } }

/-- Pending batches of these samples stay within the buffer's bounds. -/
def Fits (maxBytes : Int) (pending : List (List α)) : Prop :=
  pending.length ≤ 256 ∧ (pending.map approxBytes).sum ≤ maxBytes

instance Fits.decidable (maxBytes : Int) (pending : List (List α)) :
    Decidable (Fits maxBytes pending) :=
  inferInstanceAs (Decidable (_ ∧ _))

/-- No batch was dropped by overflow and the pending ones are few. -/
def Lossless (s : Scheduler α) : Prop :=
  s.buf.items.length ≤ 256 ∧ s.buf.droppedOverflow = 0

/-- The samples of the pending batches. -/
def Scheduler.pending (s : Scheduler α) : List (List α) :=
  s.buf.items.map Item.samples

/-- What a tick enqueues of one source. -/
def kept (samples : List α) : List (List α) :=
  [samples].filter (fun samples => samples.length > 0)

/-- What holds of the buffer between ticks. -/
structure Scheduler.Sound (agentId : String) (maxBytes : Int) (s : Scheduler α) : Prop where
  own : s.agentId = agentId
  ordered : s.buf.Ordered
  queued : s.buf.queued = (s.pending.map approxBytes).sum
  maxItems : s.buf.maxItems = 256
  maxBytes : s.buf.maxBytes = maxBytes
  nonempty : ∀ samples ∈ s.pending, samples ≠ []

section
variable {agentId : String} {maxBytes : Int} {s : Scheduler α} {samples : List α} {now : Int}

theorem sizes_nonneg (batches : List (List α)) : 0 ≤ (batches.map approxBytes).sum := by
  apply List.sum_nonneg
  intro n hn
  obtain ⟨samples, -, rfl⟩ := List.mem_map.mp hn
  unfold approxBytes
  omega

theorem Fits.front {front rest : List (List α)} (h : Fits maxBytes (front ++ rest)) :
    Fits maxBytes front := by
  obtain ⟨hlen, hbytes⟩ := h
  have := sizes_nonneg rest
  simp only [List.length_append, List.map_append, List.sum_append] at hlen hbytes
  exact ⟨by omega, by omega⟩

theorem Fits.suffix {whole part : List (List α)} (h : Fits maxBytes whole)
    (hs : part <:+ whole) : Fits maxBytes part := by
  obtain ⟨front, rfl⟩ := hs
  obtain ⟨hlen, hbytes⟩ := h
  have := sizes_nonneg front
  simp only [List.length_append, List.map_append, List.sum_append] at hlen hbytes
  exact ⟨by omega, by omega⟩

/-- The loop of Enqueue keeps items that fit, and drops one where they do not. -/
theorem dropOldest_fits {b : Limited α} {items : List (Item α)} (hm : b.maxItems = 256)
    (hb : b.maxBytes = maxBytes) (hq : b.queued = ((items.map Item.samples).map approxBytes).sum)
    (hf : Fits maxBytes (items.map Item.samples)) : b.dropOldest items = { b with items } := by
  obtain ⟨hlen, hbytes⟩ := hf
  rw [List.length_map] at hlen
  cases items with
  | nil => rfl
  | cons it rest =>
    unfold Limited.dropOldest
    split
    · rename_i hover
      omega
    · rfl

theorem dropOldest_spills {b : Limited α} {it : Item α} {rest : List (Item α)}
    (hm : b.maxItems = 256) (hb : b.maxBytes = maxBytes)
    (hq : b.queued = (((it :: rest).map Item.samples).map approxBytes).sum)
    (hf : ¬ Fits maxBytes ((it :: rest).map Item.samples)) :
    b.droppedOverflow < (b.dropOldest (it :: rest)).droppedOverflow := by
  unfold Limited.dropOldest
  split
  · obtain ⟨dropped, -, ho, -, -⟩ := dropOldest_spec { b with
      queued := b.queued - approxBytes it.samples
      droppedOverflow := b.droppedOverflow + 1 } rest
    rw [ho]
    dsimp only
    omega
  · rename_i hover
    refine absurd ⟨?_, ?_⟩ hf
    · rw [List.length_map]
      omega
    · omega

theorem enqueue_overflow_le (s : Scheduler α) (samples : List α) (now : Int) :
    s.buf.droppedOverflow ≤ (s.enqueue samples now).buf.droppedOverflow := by
  unfold Scheduler.enqueue
  split
  · obtain ⟨dropped, -, ho, -, -⟩ := enqueue_spec s.buf samples now s.enqueued
    dsimp only
    omega
  · exact Int.le_refl _

theorem Scheduler.Sound.enqueue (h : s.Sound agentId maxBytes) (samples : List α) (now : Int)
    (hf : Fits maxBytes (s.pending ++ kept samples)) :
    (s.enqueue samples now).Sound agentId maxBytes ∧
      (s.enqueue samples now).pending = s.pending ++ kept samples ∧
      (s.enqueue samples now).buf.droppedOverflow = s.buf.droppedOverflow := by
  unfold Scheduler.enqueue
  split
  · rename_i hne
    have hkept : kept samples = [samples] := by simp [kept, hne]
    rw [hkept] at hf ⊢
    have hgrown : (s.buf.items ++ [s.buf.newItem samples now s.enqueued]).map Item.samples =
        s.pending ++ [samples] := by
      simp [Scheduler.pending, Limited.newItem]
    have hbuf : s.buf.enqueue samples now s.enqueued = { s.buf with
        nextSeq := s.buf.nextSeq + 1
        queued := s.buf.queued + approxBytes samples
        items := s.buf.items ++ [s.buf.newItem samples now s.enqueued] } :=
      dropOldest_fits (b := { s.buf with
        nextSeq := s.buf.nextSeq + 1
        queued := s.buf.queued + approxBytes samples }) h.maxItems h.maxBytes
        (by rw [hgrown]; simp [h.queued]) (hgrown ▸ hf)
    have hpending : ({ s with
        buf := s.buf.enqueue samples now s.enqueued
        enqueued := s.enqueued + 1 } : Scheduler α).pending = s.pending ++ [samples] := by
      rw [Scheduler.pending, hbuf]
      exact hgrown
    refine ⟨⟨h.own, h.ordered.enqueue samples now s.enqueued, ?_, ?_, ?_, ?_⟩, hpending, ?_⟩
    · rw [hpending, hbuf]
      simp [h.queued]
    · rw [hbuf]
      exact h.maxItems
    · rw [hbuf]
      exact h.maxBytes
    · rw [hpending]
      intro batch hm
      rcases List.mem_append.mp hm with hm | hm
      · exact h.nonempty batch hm
      · rw [List.mem_singleton.mp hm]
        exact List.length_pos_iff.mp hne
    · rw [hbuf]
  · rename_i hempty
    have hkept : kept samples = [] := by simp [kept, hempty]
    rw [hkept, List.append_nil]
    exact ⟨h, rfl, rfl⟩

theorem Scheduler.Sound.enqueue_spills (h : s.Sound agentId maxBytes) (samples : List α)
    (now : Int) (hold : Fits maxBytes s.pending)
    (hf : ¬ Fits maxBytes (s.pending ++ kept samples)) :
    s.buf.droppedOverflow < (s.enqueue samples now).buf.droppedOverflow := by
  unfold Scheduler.enqueue
  split
  · rename_i hne
    have hkept : kept samples = [samples] := by simp [kept, hne]
    rw [hkept] at hf
    have hgrown : (s.buf.items ++ [s.buf.newItem samples now s.enqueued]).map Item.samples =
        s.pending ++ [samples] := by
      simp [Scheduler.pending, Limited.newItem]
    obtain ⟨it, rest, hcons⟩ : ∃ it rest,
        s.buf.items ++ [s.buf.newItem samples now s.enqueued] = it :: rest := by
      cases s.buf.items <;> simp
    rw [hcons] at hgrown
    simp only [Limited.enqueue, hcons]
    exact dropOldest_spills (b := { s.buf with
      nextSeq := s.buf.nextSeq + 1
      queued := s.buf.queued + approxBytes samples }) h.maxItems h.maxBytes
      (by rw [hgrown]; simp [h.queued]) (hgrown ▸ hf)
  · rename_i hempty
    have hkept : kept samples = [] := by simp [kept, hempty]
    rw [hkept, List.append_nil] at hf
    exact absurd hold hf

/-- An acknowledgement of the first pending sequence takes the first batch alone. -/
theorem ack_first {b : Limited α} (h : b.Ordered) {first : Item α} {rest : List (Item α)}
    (hi : b.items = first :: rest) : b.ack first.sequence =
      { b with items := rest, queued := b.queued - approxBytes first.samples } := by
  have hs := h.sorted
  rw [hi] at hs
  have hlater := (List.pairwise_cons.mp hs).1
  have hnone : rest.filter (fun it => it.sequence ≤ first.sequence) = [] := by
    rw [List.filter_eq_nil_iff]
    simpa using hlater
  simpa [Limited.ack, hi, hnone] using hlater

/-- A flush that succeeds removes one batch, however many it has sent. -/
theorem Scheduler.Sound.flush (h : s.Sound agentId maxBytes) {attempts : Nat → Attempt}
    (ha : attempts 0 = { gate := { identity := some agentId } }) :
    (s.flush attempts 5).Sound agentId maxBytes ∧
      (s.flush attempts 5).pending = s.pending.tail ∧
      (s.flush attempts 5).buf.droppedOverflow = s.buf.droppedOverflow := by
  cases hi : s.buf.items with
  | nil =>
    have hsame : s.flush attempts 5 = s := by
      simp [Scheduler.flush, ha, Limited.peekBatch, hi]
    rw [hsame]
    exact ⟨h, by simp [Scheduler.pending, hi], rfl⟩
  | cons first rest =>
    have hsent : (s.buf.peekBatch Agent.maxItems).1.length ≠ 0 := by
      have hne := h.nonempty first.samples (by simp [Scheduler.pending, hi])
      simp [Limited.peekBatch, hi, Agent.maxItems, hne]
    have hacked : s.flush attempts 5 = { s with
        buf := { s.buf with items := rest, queued := s.buf.queued - approxBytes first.samples }
        jobs := addJob s.jobs s.request.job } := by
      have hgate : metrics { identity := some agentId } s.request s.jobs =
          (addJob s.jobs s.request.job, .acked first.sequence) := by
        simp [metrics, Scheduler.request, Request.job, h.own, Limited.peekBatch, hi]
      rw [← ack_first h.ordered hi]
      simp [Scheduler.flush, ha, hsent, hgate]
    rw [hacked]
    have hpending : s.pending = first.samples :: rest.map Item.samples := by
      simp [Scheduler.pending, hi]
    refine ⟨⟨h.own, ⟨?_, ?_⟩, ?_, h.maxItems, h.maxBytes, ?_⟩, ?_, rfl⟩
    · have hs := h.ordered.sorted
      rw [hi] at hs
      exact (List.pairwise_cons.mp hs).2
    · intro it hit
      exact h.ordered.below it (by rw [hi]; exact List.mem_cons_of_mem _ hit)
    · have hq := h.queued
      rw [hpending] at hq
      simp only [List.map_cons, List.sum_cons] at hq
      simp only [Scheduler.pending]
      omega
    · intro batch hm
      refine h.nonempty batch ?_
      rw [hpending]
      exact List.mem_cons_of_mem _ hm
    · rw [hpending]
      rfl

/-- While everything fits, a healthy tick adds its batches and removes one. -/
theorem Scheduler.Sound.tick (h : s.Sound agentId maxBytes) {t : Tick α}
    (ht : t.Healthy agentId) (hf : Fits maxBytes (s.pending ++ t.batches)) :
    (s.tick t).Sound agentId maxBytes ∧ (s.tick t).pending = (s.pending ++ t.batches).tail ∧
      (s.tick t).buf.droppedOverflow = s.buf.droppedOverflow := by
  have hbatches : t.batches = kept t.host ++ kept t.docker :=
    List.filter_append [t.host] [t.docker]
  rw [hbatches, ← List.append_assoc] at hf ⊢
  obtain ⟨h₁, hp₁, ho₁⟩ := h.enqueue t.host t.hostAt hf.front
  obtain ⟨h₂, hp₂, ho₂⟩ := h₁.enqueue t.docker t.dockerAt (hp₁ ▸ hf)
  obtain ⟨h₃, hp₃, ho₃⟩ := h₂.flush ht
  refine ⟨h₃, ?_, ho₃.trans (ho₂.trans ho₁)⟩
  rw [← hp₁, ← hp₂]
  exact hp₃

theorem flush_overflow {attempts : Nat → Attempt} {left : Nat} (s : Scheduler α) :
    (s.flush attempts left).buf.droppedOverflow = s.buf.droppedOverflow := by
  induction left generalizing s with
  | zero => rfl
  | succ left ih =>
    simp only [Scheduler.flush]
    split
    · rfl
    · split
      · rfl
      · split
        · rfl
        · split
          · rfl
          · exact ih _

theorem Scheduler.Sound.tick_spills (h : s.Sound agentId maxBytes) {t : Tick α}
    (hold : Fits maxBytes s.pending) (hf : ¬ Fits maxBytes (s.pending ++ t.batches)) :
    s.buf.droppedOverflow < (s.tick t).buf.droppedOverflow := by
  have hbatches : t.batches = kept t.host ++ kept t.docker :=
    List.filter_append [t.host] [t.docker]
  rw [hbatches, ← List.append_assoc] at hf
  unfold Scheduler.tick
  rw [flush_overflow]
  unfold Scheduler.collectAndQueue
  by_cases hhost : Fits maxBytes (s.pending ++ kept t.host)
  · obtain ⟨h₁, hp₁, ho₁⟩ := h.enqueue t.host t.hostAt hhost
    rw [← hp₁] at hhost hf
    have := h₁.enqueue_spills t.docker t.dockerAt hhost hf
    omega
  · have hspilt := h.enqueue_spills t.host t.hostAt hold hhost
    have := enqueue_overflow_le (s.enqueue t.host t.hostAt) t.docker t.dockerAt
    omega

end

/-- The backlog fits at every tick of the run. -/
def Roomy (maxBytes : Int) : List (List α) → List (Tick α) → Prop
  | _, [] => True
  | backlog, t :: ts =>
    Fits maxBytes (backlog ++ t.batches) ∧ Roomy maxBytes (backlog ++ t.batches).tail ts

/-- What a stretch of ticks enqueues, less one batch for each flush but the last. -/
def surplus (stretch : List (Tick α)) : List (List α) :=
  (stretch.flatMap Tick.batches).drop (stretch.length - 1)

/-- No stretch of consecutive ticks enqueues more than its flushes and the buffer take. -/
def Sustainable (maxBytes : Int) (ticks : List (Tick α)) : Prop :=
  ∀ stretch, stretch <:+: ticks → Fits maxBytes (surplus stretch)

section
variable {agentId : String} {maxBytes : Int} {s : Scheduler α}

theorem lossless_iff_roomy {ticks : List (Tick α)} (h : s.Sound agentId maxBytes)
    (hl : Lossless s) (hold : Fits maxBytes s.pending)
    (ht : ∀ t ∈ ticks, t.Healthy agentId) :
    Always collectTick Lossless s ticks ↔ Roomy maxBytes s.pending ticks := by
  induction ticks generalizing s with
  | nil => exact ⟨fun _ => trivial, fun _ => hl⟩
  | cons t ts ih =>
    have hhead := ht t List.mem_cons_self
    have hts := fun t hm => ht t (List.mem_cons_of_mem _ hm)
    simp only [Always, collectTick, Option.some.injEq, forall_eq', Roomy]
    by_cases hf : Fits maxBytes (s.pending ++ t.batches)
    · obtain ⟨h', hp', ho'⟩ := h.tick hhead hf
      have hfits : Fits maxBytes (s.tick t).pending := by
        rw [hp']
        exact hf.suffix (List.tail_suffix _)
      have hl' : Lossless (s.tick t) := by
        refine ⟨?_, ho'.trans hl.2⟩
        simpa [Scheduler.pending] using hfits.1
      have hrest := ih h' hl' hfits hts
      rw [hp'] at hrest
      simp only [hl, hf, true_and]
      exact hrest
    · have hspilt := h.tick_spills hold hf
      simp only [hf, false_and, iff_false]
      rintro ⟨-, hrest⟩
      have hzero := hrest.head.2
      have := hl.2
      omega

theorem drop_append_suffix {β : Type} (xs ys : List β) (n : Nat) :
    ys.drop n <:+ (xs ++ ys).drop n := by
  rw [List.drop_append]
  exact (List.drop_suffix_drop_left ys (Nat.sub_le _ _)).trans (List.suffix_append _ _)

/-- The backlog of a tick is what a stretch of ticks before it has left over: the stretch that
began with the run, or a later one. -/
theorem roomy_iff {backlog : List (List α)} {ticks : List (Tick α)} :
    Roomy maxBytes backlog ticks ↔
      (∀ front, front <+: ticks → front ≠ [] →
        Fits maxBytes ((backlog ++ front.flatMap Tick.batches).drop (front.length - 1))) ∧
      (∀ stretch, stretch <:+: ticks → stretch ≠ [] → Fits maxBytes (surplus stretch)) := by
  induction ticks generalizing backlog with
  | nil => simp [Roomy]
  | cons t ts ih =>
    simp only [Roomy, ih]
    -- one flush later the same stretch counts from the first tick
    have hshift : ∀ (y : List α) (ys : List (List α)) (front : List (Tick α)), front ≠ [] →
        backlog ++ t.batches = y :: ys →
        (backlog ++ (t :: front).flatMap Tick.batches).drop ((t :: front).length - 1) =
          (ys ++ front.flatMap Tick.batches).drop (front.length - 1) := by
      intro y ys front hne hx
      obtain ⟨n, hn⟩ := Nat.exists_eq_succ_of_ne_zero (List.length_pos_iff.mpr hne).ne'
      rw [List.flatMap_cons, ← List.append_assoc, hx, List.length_cons, hn]
      rfl
    constructor
    · rintro ⟨hfits, hfronts, hstretches⟩
      have hfront : ∀ front, front <+: t :: ts → front ≠ [] →
          Fits maxBytes ((backlog ++ front.flatMap Tick.batches).drop (front.length - 1)) := by
        intro front hf hne
        rcases List.prefix_cons_iff.mp hf with rfl | ⟨front, rfl, hrest⟩
        · exact absurd rfl hne
        · by_cases hnil : front = []
          · subst hnil
            simpa using hfits
          · cases hx : backlog ++ t.batches with
            | nil =>
              refine (hstretches front hrest.isInfix hnil).suffix ?_
              rw [List.flatMap_cons, ← List.append_assoc, hx]
              exact List.drop_suffix_drop_left _ (Nat.pred_le _)
            | cons y ys =>
              rw [hshift y ys front hnil hx]
              have := hfronts front hrest hnil
              rwa [hx] at this
      refine ⟨hfront, ?_⟩
      intro stretch hs hne
      rcases List.infix_cons_iff.mp hs with hs | hs
      · exact (hfront stretch hs hne).suffix (drop_append_suffix _ _ _)
      · exact hstretches stretch hs hne
    · rintro ⟨hfronts, hstretches⟩
      refine ⟨?_, ?_, ?_⟩
      · have := hfronts [t] (by simp) (by simp)
        simpa using this
      · intro front hf hne
        have hcons : t :: front <+: t :: ts := List.cons_prefix_cons.mpr ⟨rfl, hf⟩
        cases hx : backlog ++ t.batches with
        | nil => exact hstretches front (List.infix_cons_iff.mpr (.inr hf.isInfix)) hne
        | cons y ys =>
          have := hfronts (t :: front) hcons (by simp)
          rwa [hshift y ys front hne hx] at this
      · intro stretch hs hne
        exact hstretches stretch (List.infix_cons_iff.mpr (.inr hs)) hne

theorem roomy_iff_sustainable {ticks : List (Tick α)} (hb : 0 ≤ maxBytes) :
    Roomy maxBytes [] ticks ↔ Sustainable maxBytes ticks := by
  rw [roomy_iff]
  constructor
  · rintro ⟨-, hstretches⟩ stretch hs
    by_cases hne : stretch = []
    · subst hne
      exact ⟨by simp [surplus], by simpa [surplus] using hb⟩
    · exact hstretches stretch hs hne
  · intro h
    refine ⟨?_, fun stretch hs _ => h stretch hs⟩
    intro front hf _
    exact h front hf.isInfix

theorem newScheduler_sound (startSequence : Int) (jobs : List (Job α)) :
    (newScheduler agentId maxBytes startSequence jobs).Sound agentId maxBytes := by
  refine ⟨rfl, ⟨List.Pairwise.nil, ?_⟩, rfl, rfl, rfl, ?_⟩
  · intro it hit
    cases hit
  · intro samples hm
    cases hm

theorem lossless_iff (hb : 0 ≤ maxBytes) (startSequence : Int) (jobs : List (Job α))
    {ticks : List (Tick α)} (ht : ∀ t ∈ ticks, t.Healthy agentId) :
    Always collectTick Lossless (newScheduler agentId maxBytes startSequence jobs) ticks ↔
      Sustainable maxBytes ticks := by
  have hempty : (newScheduler agentId maxBytes startSequence jobs).pending = [] := rfl
  rw [lossless_iff_roomy (newScheduler_sound startSequence jobs) ⟨Nat.zero_le _, rfl⟩
    ⟨by simp [hempty], by simpa [hempty] using hb⟩ ht, hempty]
  exact roomy_iff_sustainable hb

/-- One batch a tick is sustained for ever. -/
theorem sustainable_of_single {ticks : List (Tick α)} (hb : 0 ≤ maxBytes)
    (h : ∀ t ∈ ticks, t.batches.length ≤ 1 ∧ Fits maxBytes t.batches) :
    Sustainable maxBytes ticks := by
  intro stretch hs
  have hin : ∀ t ∈ stretch, t.batches.length ≤ 1 ∧ Fits maxBytes t.batches :=
    fun t hm => h t (hs.subset hm)
  clear hs
  unfold surplus
  induction stretch with
  | nil => exact ⟨by simp, by simpa using hb⟩
  | cons t stretch ih =>
    obtain ⟨hlen, hfits⟩ := hin t List.mem_cons_self
    have hrest := fun t hm => hin t (List.mem_cons_of_mem _ hm)
    by_cases hnil : stretch = []
    · subst hnil
      simpa using hfits
    · obtain ⟨n, hn⟩ := Nat.exists_eq_succ_of_ne_zero (List.length_pos_iff.mpr hnil).ne'
      refine (ih hrest).suffix ?_
      rw [List.flatMap_cons, List.length_cons, hn, Nat.add_sub_cancel, List.drop_append,
        List.drop_eq_nil_of_le (by omega), List.nil_append]
      exact List.drop_suffix_drop_left _ (by omega)

end

/-- In a run of healthy ticks no batch is dropped by overflow exactly when no stretch of ticks
enqueues more batches than it flushes, one for each flush, and the buffer holds. -/
theorem lossless_iff_sustainable (agentId : String) (maxBytes startSequence : Int)
    (jobs : List (Job α)) (ticks : List (Tick α)) (hb : 0 ≤ maxBytes)
    (ht : ∀ t ∈ ticks, t.Healthy agentId) :
    Always collectTick Lossless (newScheduler agentId maxBytes startSequence jobs) ticks ↔
      Sustainable maxBytes ticks :=
  lossless_iff hb startSequence jobs ht

def healthyTick (host docker : List String) : Tick String :=
  { host, hostAt := 0, docker, dockerAt := 0
    attempts := fun _ => { gate := { identity := some "agt_1" } } }

theorem two_ticks_lossless_iff : Always collectTick Lossless (newScheduler "agt_1" 8388608 1 [])
      [healthyTick ["cpu"] ["web"], healthyTick ["cpu"] []] ↔
    Sustainable 8388608 [healthyTick ["cpu"] ["web"], healthyTick ["cpu"] []] := by
  apply lossless_iff_sustainable
  · decide
  · intro t hm
    rcases List.mem_cons.mp hm with rfl | hm
    · rfl
    · rw [List.mem_singleton.mp hm]
      rfl

theorem surplus_replicate_length (n : Nat) (t : Tick α) :
    (surplus (List.replicate n t)).length = n * t.batches.length - (n - 1) := by
  simp [surplus, List.length_flatMap]

/-- Two small batches a tick overflow the default buffer at the 256th tick. -/
theorem two_batches_overflow : ∃ ticks : List (Tick String),
    (∀ t ∈ ticks, t.Healthy "agt_1") ∧
      (∀ a ∈ ticks, ∀ b ∈ ticks, ∀ c ∈ ticks,
        Fits 8388608 (a.batches ++ b.batches ++ c.batches)) ∧
      ¬ Always collectTick Lossless (newScheduler "agt_1" 8388608 1 []) ticks := by
  have hone : ∀ t ∈ List.replicate 256 (healthyTick ["cpu"] ["web"]),
      t = healthyTick ["cpu"] ["web"] := fun t hm => List.eq_of_mem_replicate hm
  have hhealthy : ∀ t ∈ List.replicate 256 (healthyTick ["cpu"] ["web"]), t.Healthy "agt_1" := by
    intro t hm
    rw [hone t hm]
    rfl
  refine ⟨List.replicate 256 (healthyTick ["cpu"] ["web"]), hhealthy, ?_, ?_⟩
  · intro a ha b hb c hc
    rw [hone a ha, hone b hb, hone c hc]
    decide
  · rw [lossless_iff (by decide) 1 [] hhealthy]
    intro h
    obtain ⟨hlen, -⟩ := h _ (List.infix_refl _)
    rw [surplus_replicate_length] at hlen
    exact absurd hlen (by decide)

end WaOps.Agent
