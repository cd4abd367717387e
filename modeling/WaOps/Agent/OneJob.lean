import WaOps.Agent.Effects

namespace WaOps.Agent
open Lib.Runs

variable {α : Type}

/-- No two jobs hold the same batch of this process. -/
def AtMostOneJob (s : Session α) : Prop :=
  s.jobs.Pairwise (fun j k => ∀ it ∈ s.enqueued, it ∈ j.batches → it ∉ k.batches)

/-- Every job and request under way that carries the batch goes by this sequence. -/
def NamedBy (s : Session α) (it : Item α) (q : Int) : Prop :=
  (∀ j ∈ s.jobs, it ∈ j.batches → j.sequence = q) ∧
  ∀ p ∈ s.inflight, it ∈ p.2.batches → p.2.sequence = q

/-- A flush does not send a batch that a job, or a request still under way, carries under
another sequence than the one it is about to use. -/
def SameName (s : Session α) : Action α → Prop
  | .peek _ => ∀ it ∈ s.nextRequest.batches, NamedBy s it s.nextRequest.sequence
  | _ => True

section
variable [DecidableEq α] (s : Session α)

instance : Decidable (AtMostOneJob s) :=
  inferInstanceAs (Decidable (List.Pairwise _ _))

instance (it : Item α) (q : Int) : Decidable (NamedBy s it q) :=
  inferInstanceAs (Decidable (_ ∧ _))

instance (a : Action α) : Decidable (SameName s a) := by
  unfold SameName
  cases a <;> infer_instance

end

/-- BullMQ keeps one job under an id. -/
def Distinct (jobs : List (Job α)) : Prop :=
  jobs.Pairwise (fun j k => ¬ (j.agentId = k.agentId ∧ j.sequence = k.sequence))

theorem addJob_distinct {jobs : List (Job α)} (h : Distinct jobs) (job : Job α) :
    Distinct (addJob jobs job) := by
  unfold addJob
  split
  · exact h
  · rename_i hnone
    refine List.pairwise_append.mpr ⟨h, List.pairwise_singleton _ _, ?_⟩
    intro j hj k hk hid
    rw [List.mem_singleton.mp hk] at hid
    exact hnone (List.any_eq_true.mpr ⟨j, hj, by simpa using hid⟩)

/-- The batches of a queue all came before the number `nextUid`. -/
def Before (jobs : List (Job α)) (nextUid : Nat) : Prop :=
  ∀ j ∈ jobs, ∀ it ∈ j.batches, it.uid < nextUid

structure OneName (s : Session α) : Prop where
  distinct : Distinct s.jobs
  agent : ∀ p ∈ s.inflight, p.2.agentId = s.agentId
  owner : ∀ j ∈ s.jobs, ∀ it ∈ s.enqueued, it ∈ j.batches → j.agentId = s.agentId
  name : ∀ it ∈ s.enqueued, ∃ q, NamedBy s it q
  jobs : Before s.jobs s.nextUid
  inflight : ∀ p ∈ s.inflight, ∀ it ∈ p.2.batches, it.uid < s.nextUid
  items : ∀ it ∈ s.buf.items, it.uid < s.nextUid

theorem OneName.atMostOneJob {s : Session α} (h : OneName s) : AtMostOneJob s := by
  apply h.distinct.imp_of_mem
  intro j k hj hk hne it hit hitj hitk
  obtain ⟨q, hjobs, _⟩ := h.name it hit
  refine hne ⟨?_, ?_⟩
  · rw [h.owner j hj it hit hitj, h.owner k hk it hit hitk]
  · rw [hjobs j hj hitj, hjobs k hk hitk]

section
variable {s t : Session α} {a : Action α}

/-- A job of the next state is a job of this one or was made of a request under way. -/
theorem Delta.job_cases (d : Delta s a t) {j : Job α} (hj : j ∈ t.jobs) :
    j ∈ s.jobs ∨ ∃ p ∈ s.inflight, j = p.2.job := by
  rcases d.jobs with h | ⟨p, hp, h⟩
  · exact .inl (h ▸ hj)
  · rw [h] at hj
    rcases mem_addJob hj with hj | hj
    · exact .inl hj
    · exact .inr ⟨p, hp, hj⟩

theorem Delta.nextUid_le (d : Delta s a t) : s.nextUid ≤ t.nextUid := by
  rcases d.enqueued with ⟨_, _, h⟩ | ⟨_, _, _, _, h⟩
  · omega
  · omega

theorem named_mono (d : Delta s a t) (hc : SameName s a) {it : Item α} {q : Int}
    (h : NamedBy s it q) : ∃ q, NamedBy t it q := by
  have hjob : ∀ q, NamedBy s it q → ∀ j ∈ t.jobs, it ∈ j.batches → j.sequence = q := by
    intro q h j hj hm
    rcases d.job_cases hj with hj | ⟨p, hp, rfl⟩
    · exact h.1 j hj hm
    · exact h.2 p hp hm
  rcases d.requests with ⟨hsub, _, _⟩ | ⟨th, rfl, _, hi, _, _⟩
  · exact ⟨q, hjob q h, fun p hp => h.2 p (hsub hp)⟩
  · by_cases hnew : it ∈ s.nextRequest.batches
    · -- the condition makes the new request's sequence the batch's only name
      have h' := hc it hnew
      refine ⟨s.nextRequest.sequence, hjob _ h', ?_⟩
      intro p hp hm
      rw [hi] at hp
      rcases List.mem_append.mp hp with hp | hp
      · exact h'.2 p hp hm
      · rw [List.mem_singleton.mp hp]
    · refine ⟨q, hjob q h, ?_⟩
      intro p hp hm
      rw [hi] at hp
      rcases List.mem_append.mp hp with hp | hp
      · exact h.2 p hp hm
      · rw [List.mem_singleton.mp hp] at hm
        exact absurd hm hnew

theorem name_step (h : OneName s) (d : Delta s a t) (hc : SameName s a) :
    ∀ it ∈ t.enqueued, ∃ q, NamedBy t it q := by
  intro it hit
  have hold : it ∈ s.enqueued → ∃ q, NamedBy t it q := by
    intro hit
    obtain ⟨q, hq⟩ := h.name it hit
    exact named_mono d hc hq
  rcases d.enqueued with ⟨he, _, _⟩ | ⟨samples, now, he, _, hu⟩
  · exact hold (he ▸ hit)
  · rw [he] at hit
    rcases List.mem_append.mp hit with hit | hit
    · exact hold hit
    · -- no job and no request carries the new batch
      have huid : it.uid = s.nextUid := by
        rw [List.mem_singleton.mp hit]
        rfl
      apply named_mono d hc (q := 0)
      constructor
      · intro j hj hm
        have := h.jobs j hj it hm
        omega
      · intro p hp hm
        have := h.inflight p hp it hm
        omega

theorem owner_step (h : OneName s) (d : Delta s a t) :
    ∀ j ∈ t.jobs, ∀ it ∈ t.enqueued, it ∈ j.batches → j.agentId = t.agentId := by
  intro j hj it hit hm
  rw [d.agentId]
  rcases d.job_cases hj with hj | ⟨p, hp, rfl⟩
  · rcases d.enqueued with ⟨he, _, _⟩ | ⟨samples, now, he, _, _⟩
    · exact h.owner j hj it (he ▸ hit) hm
    · rw [he] at hit
      rcases List.mem_append.mp hit with hit | hit
      · exact h.owner j hj it hit hm
      · have hlt := h.jobs j hj it hm
        rw [List.mem_singleton.mp hit] at hlt
        exact absurd hlt (Nat.lt_irrefl _)
  · exact h.agent p hp

theorem delta_oneName (h : OneName s) (d : Delta s a t) (hc : SameName s a) : OneName t where
  distinct := by
    rcases d.jobs with hj | ⟨p, _, hj⟩
    · rw [hj]
      exact h.distinct
    · rw [hj]
      exact addJob_distinct h.distinct _
  agent := by
    intro p hp
    rw [d.agentId]
    rcases d.requests with ⟨hsub, _, _⟩ | ⟨th, _, _, hi, _, _⟩
    · exact h.agent p (hsub hp)
    · rw [hi] at hp
      rcases List.mem_append.mp hp with hp | hp
      · exact h.agent p hp
      · rw [List.mem_singleton.mp hp]
        rfl
  owner := owner_step h d
  name := name_step h d hc
  jobs := by
    intro j hj it hm
    have hle := d.nextUid_le
    rcases d.job_cases hj with hj | ⟨p, hp, rfl⟩
    · have := h.jobs j hj it hm
      omega
    · have := h.inflight p hp it hm
      omega
  inflight := by
    intro p hp it hm
    have hle := d.nextUid_le
    rcases d.requests with ⟨hsub, _, _⟩ | ⟨th, _, _, hi, _, _⟩
    · have := h.inflight p (hsub hp) it hm
      omega
    · rw [hi] at hp
      rcases List.mem_append.mp hp with hp | hp
      · have := h.inflight p hp it hm
        omega
      · rw [List.mem_singleton.mp hp] at hm
        have := h.items it (List.mem_of_mem_take hm)
        omega
  items := by
    intro it hit
    have hle := d.nextUid_le
    rcases d.items it hit with hold | ⟨_, _, hu, hlt⟩
    · have := h.items it hold
      omega
    · omega

end

/-- Whatever is lost and in whatever order the steps come, a batch is in at most one job as
long as no flush sends it under a second sequence. -/
theorem one_job_of_same_name {creds : Creds} {maxBytes : Int} {jobs : List (Job α)}
    {nextUid : Nat} (hd : Distinct jobs) (hb : Before jobs nextUid) {as : List (Action α)}
    (hm : Meets step SameName (boot creds maxBytes jobs nextUid) as) :
    Always step AtMostOneJob (boot creds maxBytes jobs nextUid) as := by
  have hstep : ∀ (s : Session α) a t, OneName s → SameName s a → step s a = some t →
      OneName t := fun s a t h hc hs => delta_oneName h (step_delta hs) hc
  have hboot : OneName (boot creds maxBytes jobs nextUid) := by
    refine ⟨hd, ?_, ?_, ?_, hb, ?_, ?_⟩ <;> simp [boot, newLimitedAt]
  exact (always_of_meets hstep hboot hm).mono fun _ h => h.atMostOneJob

def agentOne : Creds := { agentId := "agt_1", sequence := 1 }

def acceptedFlush (req : Nat) : List (Action Nat) :=
  [.begin .scheduler, .peek .scheduler, .handle req { identity := some "agt_1" },
   .receive .scheduler, .ack .scheduler, .readNext .scheduler, .compare .scheduler]

theorem single_batch_one_job :
    Always step AtMostOneJob (boot agentOne 65536 [] 0)
      (Action.enqueue [7] 0 :: acceptedFlush 0) := by
  apply one_job_of_same_name List.Pairwise.nil
  · intro j hj
    cases hj
  · decide

/-- The first flush sends both batches under the first sequence and deletes only the first
batch; the next flush sends the second batch again. -/
theorem batch_in_two_jobs :
    ∃ s, exec step (boot agentOne 65536 [] 0)
        ([.enqueue [7] 0, .enqueue [8] 0] ++ acceptedFlush 0 ++
          [.assign .scheduler, .save .scheduler .stored] ++ acceptedFlush 1) = some s ∧
      ¬ AtMostOneJob s := by
  refine ⟨_, (Option.some_get (by decide)).symm, ?_⟩
  decide

end WaOps.Agent
