import WaOps.Agent.AckSafety

namespace WaOps.Agent
open Lib.Runs

variable {α : Type}

/-- A crash forgets everything but agent-state.json, while the network and the queue live on. -/
structure Machine (α : Type) where
  session : Session α
  running : Bool := false
  deriving DecidableEq, Repr

/-- An answer of the enrollment endpoint, and how the Save after it ends. -/
structure Enrolled where
  agentId : String
  saved : Write
  deriving DecidableEq, Repr

inductive Life (α : Type) where
  | run (a : Action α)
  | crash
  /-- `Run` is called; without a token there is no enrollment. -/
  | start (maxBytes : Int) (enrolled : Option Enrolled)
  deriving DecidableEq, Repr

/-- Steps of the gateway and the network need no running agent. -/
def Action.remote : Action α → Bool
  | .handle _ _ | .loseRequest _ | .loseReply _ => true
  | _ => false

/-- A new process in the surroundings its predecessor left. -/
def Session.begin (s : Session α) (creds file : Creds) (maxBytes : Int) : Session α :=
  { boot creds maxBytes s.jobs s.nextUid with
    file
    inflight := s.inflight
    replies := s.replies
    nextReq := s.nextReq
    firstReq := s.nextReq
    sent := s.sent }

/-- The state that is loaded, with the agent id an enrollment gives it. -/
def Machine.creds (m : Machine α) (enrolled : Option Enrolled) : Creds :=
  let creds := m.session.file
  match enrolled with
  | some e => if creds.agentId = "" then { creds with agentId := e.agentId } else creds
  | none => creds

def Machine.start (m : Machine α) (maxBytes : Int) (enrolled : Option Enrolled) : Machine α :=
  let file := m.session.file
  let creds := m.creds enrolled
  match enrolled with
  | some e =>
    if file.agentId = "" then
      -- Enroll returns the error of its Save, and then `Run` does
      { session := m.session.begin creds (e.saved.file file creds) maxBytes
        running := e.saved = .stored }
    else { session := m.session.begin creds file maxBytes, running := true }
  | none => { session := m.session.begin creds file maxBytes, running := true }

def lifeStep (m : Machine α) : Life α → Option (Machine α)
  | .run a =>
    if m.running ∨ a.remote then (step m.session a).map (fun s => { m with session := s })
    else none
  | .crash => if m.running then some { m with running := false } else none
  | .start maxBytes enrolled => if m.running then none else some (m.start maxBytes enrolled)

/-- A machine the agent was never started on. -/
def installed : Machine α :=
  { session := boot {} 0 [] 0 }

/-- No two batches were ever sent under the same agent id and sequence. -/
def NoReuse (s : Session α) : Prop :=
  ∀ r ∈ s.sent, ∀ r' ∈ s.sent, r.agentId = r'.agentId →
    ∀ x ∈ r.batches, ∀ y ∈ r'.batches, x.sequence = y.sequence → x = y

/-- A lifetime starts above every sequence that was sent before under its agent id. -/
def Continues (m : Machine α) : Life α → Prop
  | .start _ enrolled => ∀ r ∈ m.session.sent, r.agentId = (m.creds enrolled).agentId →
    ∀ it ∈ r.batches, it.sequence < max m.session.file.sequence 1
  | _ => True

section
variable [DecidableEq α]

instance (s : Session α) : Decidable (NoReuse s) :=
  inferInstanceAs (Decidable (∀ r ∈ s.sent, _))

instance (s : Session α) (it : Item α) : Decidable (Located s it) :=
  inferInstanceAs (Decidable (_ ∨ _ ∨ _ ∨ _))

instance (s : Session α) : Decidable (Accounted s) :=
  inferInstanceAs (Decidable (∀ it ∈ s.enqueued, _))

instance (m : Machine α) (a : Life α) : Decidable (Continues m a) := by
  unfold Continues
  cases a <;> infer_instance

end

/-- What the requests of all lifetimes leave behind. -/
structure History (s : Session α) : Prop where
  noReuse : NoReuse s
  inflight : ∀ p ∈ s.inflight, p.1 < s.nextReq ∧ p.2 ∈ s.sent
  replies : ∀ p ∈ s.replies, p.1 < s.nextReq
  jobs : ∀ j ∈ s.jobs, ∃ r ∈ s.sent, j = r.job
  head : ∀ r ∈ s.sent, ∃ it ∈ r.batches, it.sequence = r.sequence
  own : ∀ r ∈ s.sent, r.agentId = s.agentId → ∀ it ∈ r.batches,
    it ∈ s.enqueued ∨ it.sequence < s.start

section
variable {s t : Session α} {a : Action α}

theorem nextRequest_kept (hi : Inv s) : ∀ it ∈ s.nextRequest.batches, it ∈ s.enqueued :=
  fun it hit => hi.kept it (List.mem_of_mem_take hit)

/-- The batches of a new request are of this lifetime: they meet neither an older sequence
nor another batch of their own. -/
theorem send_noReuse (hi : Inv s) (h : History s) :
    ∀ r ∈ s.sent, r.agentId = s.agentId → ∀ x ∈ s.nextRequest.batches, ∀ y ∈ r.batches,
      x.sequence = y.sequence → x = y := by
  intro r hr hag x hx y hy hxy
  have hxe := nextRequest_kept hi x hx
  rcases h.own r hr hag y hy with hye | hlow
  · exact hi.unique x hxe y hye hxy
  · have := (hi.range x hxe).1
    omega

theorem noReuse_step (hi : Inv s) (h : History s) (d : Delta s a t) : NoReuse t := by
  rcases d.requests with ⟨_, hsent, _⟩ | ⟨th, _, _, _, hsent, _⟩
  · unfold NoReuse
    rw [hsent]
    exact h.noReuse
  · intro r hr r' hr' hag x hx y hy hxy
    rw [hsent] at hr hr'
    rcases List.mem_append.mp hr with hr | hr <;> rcases List.mem_append.mp hr' with hr' | hr'
    · exact h.noReuse r hr r' hr' hag x hx y hy hxy
    · rw [List.mem_singleton.mp hr'] at hag hy
      exact (send_noReuse hi h r hr hag y hy x hx hxy.symm).symm
    · rw [List.mem_singleton.mp hr] at hag hx
      exact send_noReuse hi h r' hr' hag.symm x hx y hy hxy
    · rw [List.mem_singleton.mp hr] at hx
      rw [List.mem_singleton.mp hr'] at hy
      exact hi.unique x (nextRequest_kept hi x hx) y (nextRequest_kept hi y hy) hxy

theorem Delta.sent_mono (d : Delta s a t) : ∀ r ∈ s.sent, r ∈ t.sent := by
  intro r hr
  rcases d.requests with ⟨_, hsent, _⟩ | ⟨th, _, _, _, hsent, _⟩
  · exact hsent ▸ hr
  · rw [hsent]
    exact List.mem_append_left _ hr

theorem delta_history (hi : Inv s) (h : History s) (d : Delta s a t) : History t where
  noReuse := noReuse_step hi h d
  inflight := by
    intro p hp
    have hle := d.nextReq_le
    have hold : p ∈ s.inflight → p.1 < t.nextReq ∧ p.2 ∈ t.sent := by
      intro hp
      obtain ⟨hlt, hsent⟩ := h.inflight p hp
      exact ⟨by omega, d.sent_mono _ hsent⟩
    rcases d.requests with ⟨hsub, _, _⟩ | ⟨th, _, _, hin, hsent, hnext⟩
    · exact hold (hsub hp)
    · rw [hin] at hp
      rcases List.mem_append.mp hp with hp | hp
      · exact hold hp
      · rw [List.mem_singleton.mp hp, hsent, hnext]
        exact ⟨Nat.lt_succ_self _, by simp⟩
  replies := by
    intro p hp
    have hle := d.nextReq_le
    rcases d.replies p hp with hold | ⟨r, hr, _⟩
    · have := h.replies p hold
      omega
    · have := (h.inflight _ hr).1
      dsimp only at this
      omega
  jobs := by
    intro j hj
    rcases d.jobs with hjobs | ⟨p, hp, hjobs⟩
    · obtain ⟨r, hr, hjr⟩ := h.jobs j (hjobs ▸ hj)
      exact ⟨r, d.sent_mono r hr, hjr⟩
    · rw [hjobs] at hj
      rcases mem_addJob hj with hj | hj
      · obtain ⟨r, hr, hjr⟩ := h.jobs j hj
        exact ⟨r, d.sent_mono r hr, hjr⟩
      · exact ⟨p.2, d.sent_mono _ (h.inflight p hp).2, hj⟩
  head := by
    intro r hr
    rcases d.requests with ⟨_, hsent, _⟩ | ⟨th, _, hb, _, hsent, _⟩
    · exact h.head r (hsent ▸ hr)
    · rw [hsent] at hr
      rcases List.mem_append.mp hr with hr | hr
      · exact h.head r hr
      · rw [List.mem_singleton.mp hr]
        obtain ⟨it, hm, _, hs⟩ := (nextRequest_good hi hb).head
        exact ⟨it, hm, hs⟩
  own := by
    intro r hr hag it hit
    rw [d.agentId] at hag
    rw [d.start]
    have hold : r ∈ s.sent → it ∈ t.enqueued ∨ it.sequence < s.start := by
      intro hr
      rcases h.own r hr hag it hit with he | hlow
      · exact .inl (d.enqueued_mono it he)
      · exact .inr hlow
    rcases d.requests with ⟨_, hsent, _⟩ | ⟨th, _, _, _, hsent, _⟩
    · exact hold (hsent ▸ hr)
    · rw [hsent] at hr
      rcases List.mem_append.mp hr with hr | hr
      · exact hold hr
      · rw [List.mem_singleton.mp hr] at hit
        exact .inl (d.enqueued_mono it (nextRequest_kept hi it hit))

/-- Every sequence sent under the id is below the saved one. -/
def Above (s : Session α) (creds : Creds) : Prop :=
  ∀ r ∈ s.sent, r.agentId = creds.agentId → ∀ it ∈ r.batches,
    it.sequence < max creds.sequence 1

theorem sent_below (h : History s) {creds : Creds} (ha : Above s creds) {r : Request α}
    (hr : r ∈ s.sent) (hag : r.agentId = creds.agentId) : r.sequence < max creds.sequence 1 := by
  obtain ⟨it, hm, hs⟩ := h.head r hr
  have := ha r hr hag it hm
  omega

theorem begin_start (creds file : Creds) (maxBytes : Int) :
    (s.begin creds file maxBytes).start = max creds.sequence 1 :=
  newLimitedAt_nextSeq (α := α) maxBytes creds.sequence

theorem begin_sound (h : History s) {creds file : Creds} {maxBytes : Int} (ha : Above s creds) :
    Sound (s.begin creds file maxBytes) where
  inv := by
    apply blank_inv rfl rfl rfl rfl
    · intro th
      cases th <;> rfl
    · intro p hp
      obtain ⟨hlt, hsent⟩ := h.inflight p hp
      refine ⟨hlt, ?_⟩
      intro hag
      rw [begin_start]
      exact sent_below h ha hsent hag
    · exact h.replies
    · intro j hj hag
      obtain ⟨r, hr, rfl⟩ := h.jobs j hj
      rw [begin_start]
      exact sent_below h ha hr hag
  accounted := by
    intro it hit
    cases hit
  counted := ⟨rfl, rfl⟩

theorem begin_history (h : History s) {creds file : Creds} {maxBytes : Int} (ha : Above s creds) :
    History (s.begin creds file maxBytes) where
  noReuse := h.noReuse
  inflight := h.inflight
  replies := h.replies
  jobs := h.jobs
  head := h.head
  own := by
    intro r hr hag it hit
    right
    rw [begin_start]
    exact ha r hr hag it hit

end

structure Lasting (m : Machine α) : Prop where
  sound : Sound m.session
  history : History m.session

theorem start_session (m : Machine α) (maxBytes : Int) (enrolled : Option Enrolled) :
    ∃ file, (m.start maxBytes enrolled).session =
      m.session.begin (m.creds enrolled) file maxBytes := by
  unfold Machine.start
  split
  · dsimp only
    split
    · exact ⟨_, rfl⟩
    · exact ⟨_, rfl⟩
  · exact ⟨_, rfl⟩

@[simp] theorem creds_sequence (m : Machine α) (enrolled : Option Enrolled) :
    (m.creds enrolled).sequence = m.session.file.sequence := by
  unfold Machine.creds
  split
  · dsimp only
    split <;> rfl
  · rfl

theorem lifeStep_lasting (m : Machine α) (a : Life α) (m' : Machine α) (h : Lasting m)
    (hc : Continues m a) (hs : lifeStep m a = some m') : Lasting m' := by
  cases a with
  | run a =>
    simp only [lifeStep] at hs
    split at hs
    · simp only [Option.map_eq_some_iff] at hs
      obtain ⟨t, ht, rfl⟩ := hs
      exact ⟨step_sound _ a t h.sound ht, delta_history h.sound.inv h.history (step_delta ht)⟩
    · contradiction
  | crash =>
    simp only [lifeStep] at hs
    split at hs
    · cases hs
      exact ⟨h.sound, h.history⟩
    · contradiction
  | start maxBytes enrolled =>
    simp only [lifeStep] at hs
    split at hs
    · contradiction
    · cases hs
      obtain ⟨file, hf⟩ := start_session m maxBytes enrolled
      have ha : Above m.session (m.creds enrolled) := by
        intro r hr hag it hit
        rw [creds_sequence]
        exact hc r hr hag it hit
      exact ⟨hf ▸ begin_sound h.history ha, hf ▸ begin_history h.history ha⟩

theorem installed_lasting : Lasting (installed : Machine α) where
  sound := boot_sound (by intro j hj; cases hj)
  history := by refine ⟨?_, ?_, ?_, ?_, ?_, ?_⟩ <;> simp [NoReuse, installed, boot]

/-- As long as every lifetime starts above what was sent before, no sequence ever names two
batches, and no batch is acknowledged away. -/
theorem no_reuse_of_continues {as : List (Life α)} (hm : Meets lifeStep Continues installed as) :
    Always lifeStep (fun m => NoReuse m.session ∧ Accounted m.session) installed as :=
  (always_of_meets lifeStep_lasting installed_lasting hm).mono
    fun _ h => ⟨h.history.noReuse, h.sound.accounted⟩

/-- One batch is queued, accepted and acknowledged. -/
def firstLifetime : List (Life Nat) :=
  [.start 65536 (some { agentId := "agt_1", saved := .stored }), .run (.enqueue [7] 0),
   .run (.begin .scheduler), .run (.peek .scheduler),
   .run (.handle 0 { identity := some "agt_1" }), .run (.receive .scheduler),
   .run (.ack .scheduler)]

def secondLifetime : List (Life Nat) :=
  [.crash, .start 65536 none, .run (.enqueue [8] 9), .run (.begin .scheduler),
   .run (.peek .scheduler), .run (.handle 1 { identity := some "agt_1" }),
   .run (.receive .scheduler), .run (.ack .scheduler)]

def savedSequence : List (Life Nat) :=
  [.run (.readNext .scheduler), .run (.compare .scheduler), .run (.assign .scheduler),
   .run (.save .scheduler .stored)]

theorem saved_lifetimes_no_reuse :
    Always lifeStep (fun m => NoReuse m.session ∧ Accounted m.session) installed
      (firstLifetime ++ savedSequence ++ secondLifetime) :=
  no_reuse_of_continues (by decide)

/-- A crash between the acknowledgement and the Save: the second lifetime sends its batch
under the used sequence, is told it is there, and deletes it. -/
theorem batch_absorbed : ∃ m, exec lifeStep installed (firstLifetime ++ secondLifetime) = some m ∧
    ¬ NoReuse m.session ∧ ¬ Accounted m.session := by
  refine ⟨_, (Option.some_get (by decide)).symm, ?_, ?_⟩
  · decide
  · decide

end WaOps.Agent
