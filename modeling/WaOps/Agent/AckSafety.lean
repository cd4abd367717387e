import WaOps.Agent.Effects

namespace WaOps.Agent
open Lib.Runs

variable {α : Type}

/-- Acknowledging `q` now would delete only batches that some job holds, and will not reach
a batch that is enqueued later. -/
def Ackable (s : Session α) (q : Int) : Prop :=
  q < s.buf.nextSeq ∧ ∀ it ∈ s.buf.items, it.sequence ≤ q → ∃ j ∈ s.jobs, it ∈ j.batches

/-- A request of this process names a batch that it carries, and nothing older is pending. -/
structure Good (s : Session α) (r : Request α) : Prop where
  agent : r.agentId = s.agentId
  below : r.sequence < s.buf.nextSeq
  oldest : ∀ it ∈ s.buf.items, r.sequence ≤ it.sequence
  head : ∃ it ∈ r.batches, it ∈ s.enqueued ∧ it.sequence = r.sequence

structure Inv (s : Session α) : Prop where
  ordered : s.buf.Ordered
  kept : ∀ it ∈ s.buf.items, it ∈ s.enqueued
  unique : ∀ x ∈ s.enqueued, ∀ y ∈ s.enqueued, x.sequence = y.sequence → x = y
  range : ∀ it ∈ s.enqueued, s.start ≤ it.sequence ∧ it.sequence < s.buf.nextSeq
  low : s.start ≤ s.buf.nextSeq
  ids : s.firstReq ≤ s.nextReq
  own : ∀ p ∈ s.inflight, s.firstReq ≤ p.1 → Good s p.2
  /-- Requests of earlier processes may still be under way. -/
  old : ∀ p ∈ s.inflight, p.1 < s.firstReq → p.2.agentId = s.agentId → p.2.sequence < s.start
  named : ∀ j ∈ s.jobs, j.agentId = s.agentId → s.start ≤ j.sequence →
    ∃ it ∈ j.batches, it ∈ s.enqueued ∧ it.sequence = j.sequence
  answers : ∀ p ∈ s.replies, s.firstReq ≤ p.1 → ∀ q, p.2 = .acked q → Ackable s q
  waiting : ∀ th n req, s.pc th = .waiting n req → s.firstReq ≤ req
  acking : ∀ th q, s.pc th = .acking q → Ackable s q

section
variable {s t : Session α} {a : Action α} {r : Request α} {q : Int}

theorem Delta.nextSeq_le (d : Delta s a t) : s.buf.nextSeq ≤ t.buf.nextSeq := by
  rcases d.enqueued with ⟨_, hn, _⟩ | ⟨samples, now, _, hn, _⟩
  · omega
  · omega

theorem Delta.enqueued_mono (d : Delta s a t) : ∀ it ∈ s.enqueued, it ∈ t.enqueued := by
  intro it hit
  rcases d.enqueued with ⟨he, _, _⟩ | ⟨samples, now, he, _, _⟩
  · exact he ▸ hit
  · rw [he]
    exact List.mem_append_left _ hit

theorem Delta.jobs_mono (d : Delta s a t) : ∀ j ∈ s.jobs, j ∈ t.jobs := by
  intro j hj
  rcases d.jobs with h | ⟨p, _, h⟩
  · exact h ▸ hj
  · rw [h]
    exact addJob_mem _ _ j hj

theorem Delta.nextReq_le (d : Delta s a t) : s.nextReq ≤ t.nextReq := by
  rcases d.requests with ⟨_, _, h⟩ | ⟨th, _, _, _, _, h⟩
  · omega
  · omega

theorem Ackable.step (h : Ackable s q) (d : Delta s a t) : Ackable t q := by
  refine ⟨Int.lt_of_lt_of_le h.1 d.nextSeq_le, ?_⟩
  intro it hit hq
  rcases d.items it hit with hold | ⟨_, hnew, _⟩
  · obtain ⟨j, hj, hm⟩ := h.2 it hold hq
    exact ⟨j, d.jobs_mono j hj, hm⟩
  · have := h.1
    omega

theorem Good.step (h : Good s r) (d : Delta s a t) : Good t r := by
  refine ⟨h.agent.trans d.agentId.symm, Int.lt_of_lt_of_le h.below d.nextSeq_le, ?_, ?_⟩
  · intro it hit
    rcases d.items it hit with hold | ⟨_, hnew, _⟩
    · exact h.oldest it hold
    · have := h.below
      omega
  · obtain ⟨it, hm, he, hs⟩ := h.head
    exact ⟨it, hm, d.enqueued_mono it he, hs⟩

/-- A new request names the oldest pending batch, which it carries. -/
theorem nextRequest_good (h : Inv s) (hb : s.buf.items ≠ []) : Good s s.nextRequest := by
  obtain ⟨first, rest, hb⟩ := List.exists_cons_of_ne_nil hb
  have hm : first ∈ s.buf.items := by simp [hb]
  have hseq : s.nextRequest.sequence = first.sequence := by
    simp [Session.nextRequest, Limited.peekBatch, hb]
  refine ⟨rfl, ?_, ?_, first, ?_, h.kept first hm, hseq.symm⟩
  · rw [hseq]
    exact h.ordered.below first hm
  · rw [hseq]
    exact h.ordered.head_le hb
  · simp [Session.nextRequest, hb, maxItems]

/-- The job that answers a request of this process holds every pending batch the
acknowledgement covers, although its payload may be that of an earlier attempt. -/
theorem acked_ackable (h : Inv s) (d : Delta s a t) (hr : Good s r)
    (hjobs : t.jobs = addJob s.jobs r.job) : Ackable t r.sequence := by
  refine ⟨Int.lt_of_lt_of_le hr.below d.nextSeq_le, ?_⟩
  intro it hit hle
  rcases d.items it hit with hit | ⟨_, hnew, _⟩
  · obtain ⟨j, hj, hag, hseq⟩ := addJob_present s.jobs r.job
    have heq : it.sequence = r.sequence := Int.le_antisymm hle (hr.oldest it hit)
    obtain ⟨first, hfm, hfe, hfs⟩ := hr.head
    have hfirst : it = first := h.unique it (h.kept it hit) first hfe (heq.trans hfs.symm)
    refine ⟨j, by rw [hjobs]; exact hj, ?_⟩
    rcases mem_addJob hj with hold | rfl
    · -- an earlier attempt was accepted under this id: it named the same batch
      have hjs : j.sequence = it.sequence := hseq.trans heq.symm
      have hlow : s.start ≤ j.sequence := by
        rw [hjs]
        exact (h.range it (h.kept it hit)).1
      obtain ⟨it', hm, he, hs⟩ := h.named j hold (hag.trans hr.agent) hlow
      have : it' = it := h.unique it' he it (h.kept it hit) (hs.trans hjs)
      exact this ▸ hm
    · exact hfirst ▸ hfm
  · have := hr.below
    omega

theorem unique_step (h : Inv s) (d : Delta s a t) :
    ∀ x ∈ t.enqueued, ∀ y ∈ t.enqueued, x.sequence = y.sequence → x = y := by
  rcases d.enqueued with ⟨he, _, _⟩ | ⟨samples, now, he, _, _⟩
  · rw [he]
    exact h.unique
  · rw [he]
    intro x hx y hy hxy
    have hnew : (s.buf.newItem samples now s.nextUid).sequence = s.buf.nextSeq := rfl
    rcases List.mem_append.mp hx with hx | hx <;> rcases List.mem_append.mp hy with hy | hy
    · exact h.unique x hx y hy hxy
    · have := (h.range x hx).2
      rw [List.mem_singleton.mp hy] at hxy
      omega
    · have := (h.range y hy).2
      rw [List.mem_singleton.mp hx] at hxy
      omega
    · rw [List.mem_singleton.mp hx, List.mem_singleton.mp hy]

theorem range_step (h : Inv s) (d : Delta s a t) :
    ∀ it ∈ t.enqueued, t.start ≤ it.sequence ∧ it.sequence < t.buf.nextSeq := by
  intro it hit
  rw [d.start]
  rcases d.enqueued with ⟨he, hn, _⟩ | ⟨samples, now, he, hn, _⟩
  · rw [hn]
    exact h.range it (he ▸ hit)
  · rw [hn]
    rw [he] at hit
    rcases List.mem_append.mp hit with hit | hit
    · have := h.range it hit
      exact ⟨this.1, by omega⟩
    · rw [List.mem_singleton.mp hit]
      exact ⟨h.low, Int.lt_succ _⟩

theorem own_step (h : Inv s) (d : Delta s a t) :
    ∀ p ∈ t.inflight, t.firstReq ≤ p.1 → Good t p.2 := by
  intro p hp hid
  rw [d.firstReq] at hid
  rcases d.requests with ⟨hsub, _, _⟩ | ⟨th, _, hb, hi, _, _⟩
  · exact (h.own p (hsub hp) hid).step d
  · rw [hi] at hp
    rcases List.mem_append.mp hp with hp | hp
    · exact (h.own p hp hid).step d
    · rw [List.mem_singleton.mp hp]
      exact (nextRequest_good h hb).step d

theorem old_step (h : Inv s) (d : Delta s a t) : ∀ p ∈ t.inflight, p.1 < t.firstReq →
    p.2.agentId = t.agentId → p.2.sequence < t.start := by
  intro p hp hid hag
  rw [d.firstReq] at hid
  rw [d.agentId] at hag
  rw [d.start]
  rcases d.requests with ⟨hsub, _, _⟩ | ⟨th, _, _, hi, _, _⟩
  · exact h.old p (hsub hp) hid hag
  · rw [hi] at hp
    rcases List.mem_append.mp hp with hp | hp
    · exact h.old p hp hid hag
    · rw [List.mem_singleton.mp hp] at hid
      have := h.ids
      omega

theorem named_step (h : Inv s) (d : Delta s a t) : ∀ j ∈ t.jobs, j.agentId = t.agentId →
    t.start ≤ j.sequence → ∃ it ∈ j.batches, it ∈ t.enqueued ∧ it.sequence = j.sequence := by
  intro j hj hag hlow
  rw [d.agentId] at hag
  rw [d.start] at hlow
  have hold : j ∈ s.jobs →
      ∃ it ∈ j.batches, it ∈ t.enqueued ∧ it.sequence = j.sequence := by
    intro hj
    obtain ⟨it, hm, he, hs⟩ := h.named j hj hag hlow
    exact ⟨it, hm, d.enqueued_mono it he, hs⟩
  rcases d.jobs with hjobs | ⟨p, hp, hjobs⟩
  · exact hold (hjobs ▸ hj)
  · rw [hjobs] at hj
    rcases mem_addJob hj with hj | rfl
    · exact hold hj
    · -- the job was made of a request of this process, since an older one is below start
      by_cases hid : s.firstReq ≤ p.1
      · obtain ⟨it, hm, he, hs⟩ := (h.own p hp hid).head
        exact ⟨it, hm, d.enqueued_mono it he, hs⟩
      · have hlt := h.old p hp (by omega) hag
        have hle : s.start ≤ p.2.sequence := hlow
        omega

theorem answers_step (h : Inv s) (d : Delta s a t) :
    ∀ p ∈ t.replies, t.firstReq ≤ p.1 → ∀ q, p.2 = .acked q → Ackable t q := by
  intro p hp hid q hq
  rw [d.firstReq] at hid
  rcases d.replies p hp with hold | ⟨r, hr, hack⟩
  · exact (h.answers p hold hid q hq).step d
  · obtain ⟨rfl, hjobs⟩ := hack q hq
    exact acked_ackable h d (h.own _ hr hid) hjobs

theorem waiting_step (h : Inv s) (d : Delta s a t) :
    ∀ th n req, t.pc th = .waiting n req → t.firstReq ≤ req := by
  intro th n req hw
  rw [d.firstReq]
  rcases d.pcs th with hold | hplain | ⟨m, hm⟩ | ⟨_, _, q, _, _, hq⟩
  · exact h.waiting th n req (hold ▸ hw)
  · rw [hw] at hplain
    contradiction
  · rw [hw] at hm
    cases hm
    exact h.ids
  · rw [hw] at hq
    contradiction

theorem acking_step (h : Inv s) (d : Delta s a t) :
    ∀ th q, t.pc th = .acking q → Ackable t q := by
  intro th q ha
  rcases d.pcs th with hold | hplain | ⟨m, hm⟩ | ⟨n, req, q', hw, hr, hq⟩
  · exact (h.acking th q (hold ▸ ha)).step d
  · rw [ha] at hplain
    contradiction
  · rw [ha] at hm
    contradiction
  · rw [ha] at hq
    cases hq
    exact (h.answers _ hr (h.waiting th n req hw) q rfl).step d

theorem delta_inv (h : Inv s) (d : Delta s a t) : Inv t where
  ordered := d.ordered h.ordered
  kept := by
    intro it hit
    rcases d.items it hit with hold | ⟨hnew, _⟩
    · exact d.enqueued_mono it (h.kept it hold)
    · exact hnew
  unique := unique_step h d
  range := range_step h d
  low := by
    rw [d.start]
    exact Int.le_trans h.low d.nextSeq_le
  ids := by
    rw [d.firstReq]
    exact Nat.le_trans h.ids d.nextReq_le
  own := own_step h d
  old := old_step h d
  named := named_step h d
  answers := answers_step h d
  waiting := waiting_step h d
  acking := acking_step h d

end

/-- A queue that a process with these credentials may start with: none of its jobs is
under an id the process is going to use. -/
def Unused (creds : Creds) (jobs : List (Job α)) : Prop :=
  ∀ j ∈ jobs, j.agentId = creds.agentId → j.sequence < max creds.sequence 1

theorem newLimitedAt_nextSeq (maxBytes saved : Int) :
    (newLimitedAt maxBytes (max saved 1) : Limited α).nextSeq = max saved 1 := by
  unfold newLimitedAt
  dsimp only
  split <;> omega

/-- A process that has done nothing yet, with nothing of its own in the network or the
queue. -/
theorem blank_inv {s : Session α} (hb : s.buf.items = []) (hstart : s.start = s.buf.nextSeq)
    (he : s.enqueued = []) (hids : s.firstReq = s.nextReq) (hpc : ∀ th, s.pc th = .idle)
    (hin : ∀ p ∈ s.inflight, p.1 < s.nextReq ∧
      (p.2.agentId = s.agentId → p.2.sequence < s.start))
    (hrep : ∀ p ∈ s.replies, p.1 < s.nextReq)
    (hjobs : ∀ j ∈ s.jobs, j.agentId = s.agentId → j.sequence < s.start) : Inv s where
  ordered := ⟨by simp [hb], by simp [hb]⟩
  kept := by simp [hb]
  unique := by simp [he]
  range := by simp [he]
  low := by omega
  ids := by omega
  own := by
    intro p hp hid
    have := (hin p hp).1
    omega
  old := fun p hp _ hag => (hin p hp).2 hag
  named := by
    intro j hj hag hlow
    have := hjobs j hj hag
    omega
  answers := by
    intro p hp hid
    have := hrep p hp
    omega
  waiting := by
    intro th n req hw
    rw [hpc th] at hw
    contradiction
  acking := by
    intro th q ha
    rw [hpc th] at ha
    contradiction

theorem boot_inv {creds : Creds} {maxBytes : Int} {jobs : List (Job α)} {nextUid : Nat}
    (h : Unused creds jobs) : Inv (boot creds maxBytes jobs nextUid) := by
  apply blank_inv rfl rfl rfl rfl
  · intro th
    cases th <;> rfl
  · simp [boot]
  · simp [boot]
  · intro j hj hag
    have hlt := h j hj hag
    have hstart : (boot creds maxBytes jobs nextUid).start = max creds.sequence 1 :=
      newLimitedAt_nextSeq (α := α) maxBytes creds.sequence
    omega

/-- Where a batch can be once it was enqueued. -/
def Located (s : Session α) (it : Item α) : Prop :=
  it ∈ s.buf.items ∨ it ∈ s.overflowed ∨ it ∈ s.expired ∨ ∃ j ∈ s.jobs, it ∈ j.batches

def Accounted (s : Session α) : Prop :=
  ∀ it ∈ s.enqueued, Located s it

/-- The two counters count exactly the batches that were dropped. -/
def Counted (s : Session α) : Prop :=
  s.buf.droppedOverflow = s.overflowed.length ∧ s.buf.droppedExpired = s.expired.length

/-- What may become of the batches of a buffer in one step. -/
structure Fate (s t : Session α) : Prop where
  given : ∀ it ∈ t.enqueued, it ∈ s.enqueued ∨ it ∈ t.buf.items ∨ it ∈ t.overflowed
  items : ∀ it ∈ s.buf.items, it ∈ t.buf.items ∨ it ∈ t.overflowed ∨ it ∈ t.expired ∨
    ∃ th q, s.pc th = .acking q ∧ it.sequence ≤ q
  overflowed : ∀ it ∈ s.overflowed, it ∈ t.overflowed
  expired : ∀ it ∈ s.expired, it ∈ t.expired
  counted : Counted s → Counted t

theorem Fate.quiet {s t : Session α} (he : t.enqueued = s.enqueued) (hb : t.buf = s.buf)
    (ho : t.overflowed = s.overflowed) (hx : t.expired = s.expired) : Fate s t where
  given := fun it hit => .inl (he ▸ hit)
  items := fun it hit => .inl (hb ▸ hit)
  overflowed := fun it hit => ho ▸ hit
  expired := fun it hit => hx ▸ hit
  counted := by
    unfold Counted
    rw [hb, ho, hx]
    exact id

/-- The batches an enqueue drops are the ones it takes off the front. -/
theorem enqueue_overflowed (s : Session α) (samples : List α) (now : Int) :
    ∃ dropped, s.buf.items ++ [s.buf.newItem samples now s.nextUid] =
        dropped ++ (s.enqueue samples now).buf.items ∧
      (s.enqueue samples now).overflowed = s.overflowed ++ dropped ∧
      (s.enqueue samples now).buf.droppedOverflow = s.buf.droppedOverflow + dropped.length ∧
      (s.enqueue samples now).buf.droppedExpired = s.buf.droppedExpired := by
  obtain ⟨dropped, hi, ho, _, he⟩ := enqueue_spec s.buf samples now s.nextUid
  refine ⟨dropped, hi, ?_, ho, he⟩
  have hlen : (s.buf.items ++ [s.buf.newItem samples now s.nextUid]).length -
      (s.buf.enqueue samples now s.nextUid).items.length = dropped.length := by
    rw [hi, List.length_append]
    omega
  simp only [Session.enqueue, hlen]
  rw [hi, List.take_left]

theorem enqueue_fate (s : Session α) (samples : List α) (now : Int) :
    Fate s (s.enqueue samples now) := by
  obtain ⟨dropped, hd, ho, hdo, hde⟩ := enqueue_overflowed s samples now
  have hloc : ∀ it ∈ s.buf.items ++ [s.buf.newItem samples now s.nextUid],
      it ∈ (s.enqueue samples now).buf.items ∨ it ∈ (s.enqueue samples now).overflowed := by
    intro it hit
    rw [hd] at hit
    rcases List.mem_append.mp hit with hit | hit
    · right
      rw [ho]
      exact List.mem_append_right _ hit
    · exact .inl hit
  refine ⟨?_, ?_, ?_, fun it hit => hit, ?_⟩
  · intro it hit
    rcases List.mem_append.mp hit with hit | hit
    · exact .inl hit
    · exact .inr (hloc it (List.mem_append_right _ hit))
  · intro it hit
    rcases hloc it (List.mem_append_left _ hit) with h | h
    · exact .inl h
    · exact .inr (.inl h)
  · intro it hit
    rw [ho]
    exact List.mem_append_left _ hit
  · rintro ⟨hco, hcx⟩
    refine ⟨?_, hde.trans hcx⟩
    rw [hdo, ho, hco]
    simp

theorem dropExpired_fate (s : Session α) (ttl now : Int) : Fate s (s.dropExpired ttl now) where
  given := fun it hit => .inl hit
  items := by
    intro it hit
    by_cases hc : it.createdAt < now - ttl
    · right; right; left
      exact List.mem_append_right _ (List.mem_filter.mpr ⟨hit, by simpa using hc⟩)
    · left
      exact List.mem_filter.mpr ⟨hit, by simpa using hc⟩
  overflowed := fun it hit => hit
  expired := fun it hit => List.mem_append_left _ hit
  counted := by
    rintro ⟨ho, hx⟩
    refine ⟨ho, ?_⟩
    simp only [Session.dropExpired, Limited.dropExpired, hx, List.length_append]
    simp

theorem effect_fate {s t : Session α} {a : Action α} (he : Effect s a t) : Fate s t := by
  cases he with
  | enqueue => exact enqueue_fate _ _ _
  | dropExpired => exact dropExpired_fate _ _ _
  | goto _ | store _ _ _ | receive _ _ =>
    exact Fate.quiet (by simp) (by simp) (by simp) (by simp)
  | send _ _ =>
    exact Fate.quiet (by simp [Session.send]) (by simp [Session.send]) (by simp [Session.send])
      (by simp [Session.send])
  | handle _ | loseRequest | loseReply => exact Fate.quiet rfl rfl rfl rfl
  | @ack th q hp =>
    refine ⟨by simp +contextual, ?_, by simp, by simp, by simp [Counted, Limited.ack]⟩
    intro it hit
    by_cases hq : it.sequence ≤ q
    · exact .inr (.inr (.inr ⟨th, q, hp, hq⟩))
    · left
      exact List.mem_filter.mpr ⟨hit, by simpa using hq⟩

theorem fate_accounted {s t : Session α} {a : Action α} (hi : Inv s) (h : Accounted s)
    (d : Delta s a t) (f : Fate s t) : Accounted t := by
  intro it hit
  rcases f.given it hit with hold | hnew | hnew
  · rcases h it hold with hb | ho | he | ⟨j, hj, hm⟩
    · rcases f.items it hb with hb | ho | he | ⟨th, q, hp, hq⟩
      · exact .inl hb
      · exact .inr (.inl ho)
      · exact .inr (.inr (.inl he))
      · obtain ⟨j, hj, hm⟩ := (hi.acking th q hp).2 it hb hq
        exact .inr (.inr (.inr ⟨j, d.jobs_mono j hj, hm⟩))
    · exact .inr (.inl (f.overflowed it ho))
    · exact .inr (.inr (.inl (f.expired it he)))
    · exact .inr (.inr (.inr ⟨j, d.jobs_mono j hj, hm⟩))
  · exact .inl hnew
  · exact .inr (.inl hnew)

/-- A job that was made of a batch carries its samples side by side. -/
theorem samples_infix {j : Job α} {it : Item α} (h : it ∈ j.batches) :
    it.samples <:+: j.samples := by
  obtain ⟨pre, post, he⟩ := List.append_of_mem h
  refine ⟨pre.flatMap Item.samples, post.flatMap Item.samples, ?_⟩
  simp [Job.samples, he]

/-- Everything the invariant of one process says, kept together. -/
structure Sound (s : Session α) : Prop where
  inv : Inv s
  accounted : Accounted s
  counted : Counted s

theorem step_sound (s : Session α) (a : Action α) (t : Session α) (h : Sound s)
    (hs : step s a = some t) : Sound t := by
  have d := step_delta hs
  have f := effect_fate (step_effect hs)
  exact ⟨delta_inv h.inv d, fate_accounted h.inv h.accounted d f, f.counted h.counted⟩

theorem boot_sound {creds : Creds} {maxBytes : Int} {jobs : List (Job α)} {nextUid : Nat}
    (h : Unused creds jobs) : Sound (boot creds maxBytes jobs nextUid) where
  inv := boot_inv h
  accounted := by
    intro it hit
    cases hit
  counted := ⟨rfl, rfl⟩

/-- Everything a process has enqueued is pending, was dropped and counted, or has its
samples in the queue, whatever is lost or refused and however the two flushes overlap. -/
theorem enqueued_located {creds : Creds} {maxBytes : Int} {jobs : List (Job α)} {nextUid : Nat}
    (hq : Unused creds jobs) {as : List (Action α)} {s : Session α}
    (hrun : exec step (boot creds maxBytes jobs nextUid) as = some s) :
    (∀ it ∈ s.enqueued, it ∈ s.buf.items ∨ it ∈ s.overflowed ∨ it ∈ s.expired ∨
      ∃ j ∈ s.jobs, it ∈ j.batches ∧ it.samples <:+: j.samples) ∧
    s.buf.droppedOverflow = s.overflowed.length ∧ s.buf.droppedExpired = s.expired.length := by
  have h := exec_inv step_sound (boot_sound hq) hrun
  refine ⟨?_, h.counted⟩
  intro it hit
  rcases h.accounted it hit with hi | ho | he | ⟨j, hj, hm⟩
  · exact .inl hi
  · exact .inr (.inl ho)
  · exact .inr (.inr (.inl he))
  · exact .inr (.inr (.inr ⟨j, hj, hm, samples_infix hm⟩))

def enrolled : Creds := { agentId := "agt_1", sequence := 1 }

/-- Two batches wait; the answer to the first attempt is lost, the second is a duplicate. -/
def retriedRun : List (Action Nat) :=
  [.enqueue [7] 0, .enqueue [8] 0, .begin .scheduler, .peek .scheduler,
   .handle 0 { identity := some "agt_1", closeFails := true }, .receive .scheduler,
   .peek .scheduler, .handle 1 { identity := some "agt_1" }, .receive .scheduler,
   .ack .scheduler]

theorem retried_run_located :
    ∃ s, exec step (boot enrolled 65536 [] 0) retriedRun = some s ∧
      (∀ it ∈ s.enqueued, it ∈ s.buf.items ∨ it ∈ s.overflowed ∨ it ∈ s.expired ∨
        ∃ j ∈ s.jobs, it ∈ j.batches ∧ it.samples <:+: j.samples) ∧
      s.buf.droppedOverflow = s.overflowed.length ∧
      s.buf.droppedExpired = s.expired.length := by
  have hrun : some ((exec step (boot enrolled 65536 [] 0) retriedRun).get (by decide)) =
      exec step (boot enrolled 65536 [] 0) retriedRun := Option.some_get _
  have hq : Unused enrolled ([] : List (Job Nat)) := by
    intro j hj
    cases hj
  exact ⟨_, hrun.symm, enqueued_located hq hrun.symm⟩

end WaOps.Agent
