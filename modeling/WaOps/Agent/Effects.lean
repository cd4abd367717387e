import WaOps.Agent.Session

namespace WaOps.Agent

variable {α : Type}

/-- A place of the flush that holds neither a request nor an answer. -/
def Pc.plain : Pc → Bool
  | .waiting _ _ | .acking _ => false
  | _ => true

theorem retry_plain (attempt : Nat) : (retry attempt).plain = true := by
  unfold retry
  split <;> rfl

/-- All a step can do. -/
inductive Effect (s : Session α) : Action α → Session α → Prop
  | enqueue : Effect s (.enqueue samples now) (s.enqueue samples now)
  | dropExpired : Effect s (.dropExpired ttl now) (s.dropExpired ttl now)
  | goto (hp : p.plain = true) : Effect s a (s.setPc th p)
  | store {th : Thread} {p : Pc} (hp : p.plain = true) (sequence : Int) (file : Creds) :
    Effect s a { s.setPc th p with sequence, file }
  | send (hp : s.pc th = .ready n) (hb : s.buf.items ≠ []) : Effect s (.peek th) (s.send th n)
  | handle (hl : s.inflight.lookup req = some r) : Effect s (.handle req g) (s.handle req g r)
  | loseRequest :
    Effect s (.loseRequest req) { s with inflight := s.inflight.filter (fun p => p.1 ≠ req) }
  | loseReply :
    Effect s (.loseReply req) { s with replies := s.replies.filter (fun p => p.1 ≠ req) }
  | receive (hp : s.pc th = .waiting n req) (hr : s.replies.lookup req = some (.acked q)) :
    Effect s (.receive th) (s.setPc th (.acking q))
  | ack (hp : s.pc th = .acking q) :
    Effect s (.ack th) { s.setPc th .flushed with buf := s.buf.ack q }

theorem peek_effect {s : Session α} {th : Thread} {n : Nat} (hp : s.pc th = .ready n) :
    Effect s (.peek th) (s.peek th n) := by
  unfold Session.peek
  split
  · exact .goto rfl
  · rename_i hne
    apply Effect.send hp
    intro hb
    simp [Limited.peekBatch, hb] at hne

theorem step_effect {s t : Session α} {a : Action α} (h : step s a = some t) :
    Effect s a t := by
  cases a with
  | enqueue samples now =>
    cases h
    exact .enqueue
  | dropExpired ttl now =>
    cases h
    exact .dropExpired
  | begin th =>
    simp only [step] at h
    split at h
    · cases h
      exact .goto rfl
    · contradiction
  | skip th =>
    simp only [step] at h
    split at h
    · cases h
      exact .goto rfl
    · contradiction
  | peek th =>
    simp only [step] at h
    split at h
    · rename_i hp
      cases h
      exact peek_effect hp
    · contradiction
  | handle req g =>
    simp only [step, Option.map_eq_some_iff] at h
    obtain ⟨r, hl, rfl⟩ := h
    exact .handle hl
  | loseRequest req =>
    cases h
    exact .loseRequest
  | loseReply req =>
    cases h
    exact .loseReply
  | receive th =>
    simp only [step] at h
    split at h
    · rename_i hp
      split at h
      · rename_i hr
        cases h
        exact .receive hp hr
      · cases h
        exact .goto (retry_plain _)
      · contradiction
    · contradiction
  | giveUp th =>
    simp only [step] at h
    split at h
    · cases h
      exact .goto (retry_plain _)
    · contradiction
  | ack th =>
    simp only [step] at h
    split at h
    · rename_i hp
      cases h
      exact .ack hp
    · contradiction
  | readNext th =>
    simp only [step] at h
    split at h
    · cases h
      exact .goto rfl
    · cases h
      exact .goto rfl
    · contradiction
  | compare th =>
    simp only [step] at h
    split at h
    · cases h
      refine .goto ?_
      split <;> rfl
    · contradiction
  | assign th =>
    simp only [step] at h
    split at h
    · cases h
      exact .store (p := .saving) rfl _ _
    · contradiction
  | save th w =>
    simp only [step] at h
    split at h
    · cases h
      exact .store (p := .idle) rfl _ _
    · contradiction

theorem addJob_mem (jobs : List (Job α)) (job : Job α) : ∀ j ∈ jobs, j ∈ addJob jobs job := by
  intro j hj
  unfold addJob
  split
  · exact hj
  · exact List.mem_append_left _ hj

theorem mem_addJob {jobs : List (Job α)} {job j : Job α} (h : j ∈ addJob jobs job) :
    j ∈ jobs ∨ j = job := by
  unfold addJob at h
  split at h
  · exact .inl h
  · rcases List.mem_append.mp h with h | h
    · exact .inl h
    · exact .inr (List.mem_singleton.mp h)

/-- After an add the queue has a job under that id, old or new. -/
theorem addJob_present (jobs : List (Job α)) (job : Job α) :
    ∃ j ∈ addJob jobs job, j.agentId = job.agentId ∧ j.sequence = job.sequence := by
  unfold addJob
  split
  · rename_i h
    obtain ⟨j, hj, he⟩ := List.any_eq_true.mp h
    exact ⟨j, hj, by simpa using he⟩
  · exact ⟨job, by simp, rfl, rfl⟩

/-- The handler leaves the queue alone, or adds the request's batches under the request's
agent and sequence. -/
theorem metrics_jobs (g : Gate) (r : Request α) (jobs : List (Job α)) :
    (metrics g r jobs).1 = jobs ∨ (metrics g r jobs).1 = addJob jobs r.job := by
  unfold metrics
  split
  · exact .inl rfl
  · split
    · exact .inl rfl
    · split
      · exact .inl rfl
      · split
        · exact .inl rfl
        · rename_i hid
          simp only [ne_eq, Decidable.not_not] at hid
          subst hid
          split
          · exact .inl rfl
          · split <;> exact .inr rfl

/-- It acknowledges only after an add, and the sequence it was sent. -/
theorem metrics_acked {g : Gate} {r : Request α} {jobs : List (Job α)} {q : Int}
    (h : (metrics g r jobs).2 = .acked q) :
    q = r.sequence ∧ (metrics g r jobs).1 = addJob jobs r.job := by
  unfold metrics at h ⊢
  split at h
  · contradiction
  · split at h
    · contradiction
    · split at h
      · contradiction
      · split at h
        · contradiction
        · rename_i hl hp hid
          simp only [ne_eq, Decidable.not_not] at hid
          subst hid
          split at h
          · contradiction
          · rename_i ha
            split at h
            · contradiction
            · rename_i hc
              cases h
              simp [hl, hp, ha, hc, Request.job]

theorem mem_of_lookup {β : Type} {l : List (Nat × β)} {k : Nat} {v : β}
    (h : l.lookup k = some v) : (k, v) ∈ l := by
  obtain ⟨pre, post, he, _⟩ := List.lookup_eq_some_iff.mp h
  simp [he]

/-- What a step adds to each part of the session. -/
structure Delta (s : Session α) (a : Action α) (t : Session α) : Prop where
  agentId : t.agentId = s.agentId
  start : t.start = s.start
  firstReq : t.firstReq = s.firstReq
  ordered : s.buf.Ordered → t.buf.Ordered
  enqueued : (t.enqueued = s.enqueued ∧ t.buf.nextSeq = s.buf.nextSeq ∧ t.nextUid = s.nextUid) ∨
    ∃ samples now, t.enqueued = s.enqueued ++ [s.buf.newItem samples now s.nextUid] ∧
      t.buf.nextSeq = s.buf.nextSeq + 1 ∧ t.nextUid = s.nextUid + 1
  items : ∀ it ∈ t.buf.items, it ∈ s.buf.items ∨
    (it ∈ t.enqueued ∧ it.sequence = s.buf.nextSeq ∧ it.uid = s.nextUid ∧ s.nextUid < t.nextUid)
  requests : (t.inflight ⊆ s.inflight ∧ t.sent = s.sent ∧ t.nextReq = s.nextReq) ∨
    ∃ th, a = .peek th ∧ s.buf.items ≠ [] ∧
      t.inflight = s.inflight ++ [(s.nextReq, s.nextRequest)] ∧
      t.sent = s.sent ++ [s.nextRequest] ∧ t.nextReq = s.nextReq + 1
  jobs : t.jobs = s.jobs ∨ ∃ p ∈ s.inflight, t.jobs = addJob s.jobs p.2.job
  replies : ∀ p ∈ t.replies, p ∈ s.replies ∨ ∃ r, (p.1, r) ∈ s.inflight ∧
    ∀ q, p.2 = .acked q → q = r.sequence ∧ t.jobs = addJob s.jobs r.job
  pcs : ∀ th, t.pc th = s.pc th ∨ (t.pc th).plain = true ∨
    (∃ n, t.pc th = .waiting n s.nextReq) ∨
    ∃ n req q, s.pc th = .waiting n req ∧ (req, .acked q) ∈ s.replies ∧ t.pc th = .acking q

/-- A step that only moves a flush and may delete batches or store the sequence. -/
theorem Delta.quiet {s : Session α} {a : Action α} {th : Thread} {p : Pc} {buf : Limited α}
    {sequence : Int} {file : Creds} (ho : s.buf.Ordered → buf.Ordered)
    (hn : buf.nextSeq = s.buf.nextSeq) (hi : ∀ it ∈ buf.items, it ∈ s.buf.items)
    (hp : p.plain = true ∨ ∃ n req q, s.pc th = .waiting n req ∧ (req, .acked q) ∈ s.replies ∧
      p = .acking q) :
    Delta s a { s.setPc th p with buf, sequence, file } where
  agentId := by simp
  start := by simp
  firstReq := by simp
  ordered := ho
  enqueued := .inl (by simp [hn])
  items := fun it hit => .inl (hi it hit)
  requests := .inl (by simp)
  jobs := .inl (by simp)
  replies := fun q hq => .inl (by simpa using hq)
  pcs := by
    intro th'
    have hpc : ({ s.setPc th p with buf, sequence, file } : Session α).pc th' =
        if th' = th then p else s.pc th' := by
      rw [← setPc_pc]
      cases th' <;> rfl
    rw [hpc]
    split
    · rename_i heq
      subst heq
      rcases hp with hp | hp
      · exact .inr (.inl hp)
      · exact .inr (.inr (.inr hp))
    · exact .inl rfl

theorem setPc_eta (s : Session α) (th : Thread) (p : Pc) :
    s.setPc th p = { s.setPc th p with buf := s.buf, sequence := s.sequence, file := s.file } := by
  cases th <;> rfl

theorem enqueue_delta (s : Session α) (samples : List α) (now : Int) :
    Delta s (.enqueue samples now) (s.enqueue samples now) := by
  obtain ⟨dropped, hi, _, hn, _⟩ := enqueue_spec s.buf samples now s.nextUid
  refine ⟨rfl, rfl, rfl, fun h => h.enqueue _ _ _, .inr ⟨samples, now, rfl, hn, rfl⟩, ?_,
    .inl ⟨List.Subset.refl _, rfl, rfl⟩, .inl rfl, fun p hp => .inl hp, ?_⟩
  · intro it hit
    have hm : it ∈ s.buf.items ++ [s.buf.newItem samples now s.nextUid] := by
      rw [hi]
      exact List.mem_append_right _ hit
    rcases List.mem_append.mp hm with hm | hm
    · exact .inl hm
    · refine .inr ⟨List.mem_append_right _ hm, ?_⟩
      rw [List.mem_singleton.mp hm]
      exact ⟨rfl, rfl, Nat.lt_succ_self _⟩
  · intro th
    left
    cases th <;> rfl

theorem send_delta (s : Session α) (th : Thread) (n : Nat) (hb : s.buf.items ≠ []) :
    Delta s (.peek th) (s.send th n) where
  agentId := by simp [Session.send]
  start := by simp [Session.send]
  firstReq := by simp [Session.send]
  ordered := by simp [Session.send]
  enqueued := .inl (by simp [Session.send])
  items := fun it hit => .inl (by simpa [Session.send] using hit)
  requests := .inr ⟨th, rfl, hb, rfl, rfl, rfl⟩
  jobs := .inl (by simp [Session.send])
  replies := fun p hp => .inl (by simpa [Session.send] using hp)
  pcs := by
    intro th'
    rw [send_pc]
    split
    · exact .inr (.inr (.inl ⟨n, rfl⟩))
    · exact .inl rfl

theorem handle_delta {s : Session α} {req : Nat} {r : Request α} (g : Gate)
    (hl : s.inflight.lookup req = some r) : Delta s (.handle req g) (s.handle req g r) := by
  have hm : (req, r) ∈ s.inflight := mem_of_lookup hl
  refine ⟨rfl, rfl, rfl, id, .inl ⟨rfl, rfl, rfl⟩, fun it hit => .inl hit,
    .inl ⟨List.filter_subset_self _, rfl, rfl⟩, ?_, ?_, ?_⟩
  · rcases metrics_jobs g r s.jobs with h | h
    · exact .inl h
    · exact .inr ⟨_, hm, h⟩
  · intro p hp
    rcases List.mem_append.mp hp with hp | hp
    · exact .inl hp
    · right
      rw [List.mem_singleton.mp hp]
      exact ⟨r, hm, fun q hq => metrics_acked hq⟩
  · intro th
    left
    cases th <;> rfl

theorem effect_delta {s t : Session α} {a : Action α} (h : Effect s a t) : Delta s a t := by
  cases h with
  | enqueue => exact enqueue_delta _ _ _
  | dropExpired =>
    refine ⟨rfl, rfl, rfl, fun h => h.dropExpired _ _, .inl ⟨rfl, rfl, rfl⟩, ?_,
      .inl ⟨List.Subset.refl _, rfl, rfl⟩, .inl rfl, fun p hp => .inl hp, ?_⟩
    · intro it hit
      exact .inl (List.mem_filter.mp hit).1
    · intro th
      left
      cases th <;> rfl
  | goto hp =>
    rw [setPc_eta]
    exact Delta.quiet id rfl (fun it h => h) (.inl hp)
  | @store _ th p hp sequence file =>
    have heq : ({ s.setPc th p with sequence, file } : Session α) =
        { s.setPc th p with buf := s.buf, sequence, file } := by cases th <;> rfl
    rw [heq]
    exact Delta.quiet id rfl (fun it h => h) (.inl hp)
  | send hp hb => exact send_delta _ _ _ hb
  | handle hl => exact handle_delta _ hl
  | loseRequest =>
    refine ⟨rfl, rfl, rfl, id, .inl ⟨rfl, rfl, rfl⟩, fun it h => .inl h,
      .inl ⟨List.filter_subset_self _, rfl, rfl⟩, .inl rfl, fun p hp => .inl hp, ?_⟩
    intro th
    left
    cases th <;> rfl
  | loseReply =>
    refine ⟨rfl, rfl, rfl, id, .inl ⟨rfl, rfl, rfl⟩, fun it h => .inl h,
      .inl ⟨List.Subset.refl _, rfl, rfl⟩, .inl rfl, ?_, ?_⟩
    · intro p hp
      exact .inl (List.mem_filter.mp hp).1
    · intro th
      left
      cases th <;> rfl
  | receive hp hr =>
    rw [setPc_eta]
    exact Delta.quiet id rfl (fun it h => h) (.inr ⟨_, _, _, hp, mem_of_lookup hr, rfl⟩)
  | @ack th q hp =>
    have heq : ({ s.setPc th .flushed with buf := s.buf.ack q } : Session α) =
        { s.setPc th .flushed with
          buf := s.buf.ack q, sequence := s.sequence, file := s.file } := by
      cases th <;> rfl
    rw [heq]
    refine Delta.quiet (fun h => h.ack q) rfl ?_ (.inl rfl)
    intro it hit
    exact (List.mem_filter.mp hit).1

theorem step_delta {s t : Session α} {a : Action α} (h : step s a = some t) : Delta s a t :=
  effect_delta (step_effect h)

end WaOps.Agent
