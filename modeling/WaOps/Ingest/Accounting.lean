import Mathlib.Data.List.Basic
import WaOps.Ingest.Pipeline
import WaOps.Lib.Lists
import WaOps.Lib.Runs

namespace WaOps.Ingest
open Lib Lib.Lists Lib.Remote Lib.Runs Gateway

/-- What one insert of the job adds. -/
def State.rowsOfJob (env : Env) (s : State) (j : Nat) : List SampleRow :=
  ((s.jobs[j]?).bind fun job => rowsOf env job.data).getD []

/-- A batch as the gateway took it from a request: its credential was that of the agent, and the
body is of the schema and names the agent. -/
def Sent.Genuine (env : Env) (x : Sent) : Prop :=
  authenticateAgentByUuid env.parseUuid env.sha256 x.agents x.request.authorization =
      .ok (some x.identity) ∧
    x.request.body.bind Contracts.MetricsBatchV1 = some x.batch ∧
    x.batch.agentId = x.identity.agentId

/-- The agents that a batch was sent by still have its id and its tenant. -/
def Sent.ByAgent (agents : List Agent) (x : Sent) : Prop :=
  ∃ agent ∈ agents, agent.id = x.identity.agentId ∧ agent.tenantId = x.identity.tenantId

/-- A genuine batch has the id and the data. -/
def Owned (env : Env) (s : State) (jobId : String) (data : JobData) : Prop :=
  ∃ x ∈ s.sent, x.Genuine env ∧ x.ByAgent s.agents ∧ jobId = x.jobId env ∧ data = x.data

structure Accounted (env : Env) (s : State) : Prop where
  /-- What was inserted is there, or was dropped. -/
  rows : (s.metricSamples ++ s.expired.map Expired.row).Perm
    (s.inserts.flatMap (s.rowsOfJob env))
  expired : ∀ x ∈ s.expired, x.row.observedAt < x.droppedAt - env.retentionDays * 86400000
  owned : ∀ job ∈ s.jobs, Owned env s job.jobId job.data
  acked : ∀ x ∈ s.acked, Owned env s x.jobId x.data ∧
    ∃ job, s.jobs[x.job]? = some job ∧ job.jobId = x.jobId ∧
      job.data.agentId = x.data.agentId ∧ job.data.tenantId = x.data.tenantId ∧
      (x.added → job.data = x.data)
  copies : ∀ j job, s.jobs[j]? = some job → s.inserts.count j ≤ job.stalled + 1 ∧
    job.stalled ≤ env.maxStalledCount ∧ (job.status = .completed → 1 ≤ s.inserts.count j)
  latest : s.completed.Nodup
  /-- A batch has a second job only once the queue has forgotten the first. -/
  again : ∀ i j x y, i < j → s.jobs[i]? = some x → s.jobs[j]? = some y → x.jobId = y.jobId →
    x.status = .completed ∧ i ∈ s.completed.drop keptCompleted

/-- What stays of a job while it is worked on. -/
def Job.batch (job : Job) : String × JobData := (job.jobId, job.data)

/-- Where the rows and the jobs come from. -/
structure Sourced (env : Env) (s : State) : Prop where
  ids : (s.agents.map Agent.id).Nodup
  rows : (s.metricSamples ++ s.expired.map Expired.row).Perm
    (s.inserts.flatMap (s.rowsOfJob env))
  expired : ∀ x ∈ s.expired, x.row.observedAt < x.droppedAt - env.retentionDays * 86400000
  inserts : ∀ j ∈ s.inserts, j < s.jobs.length
  owned : ∀ job ∈ s.jobs, Owned env s job.jobId job.data
  acked : ∀ x ∈ s.acked, Owned env s x.jobId x.data ∧
    ∃ job, s.jobs[x.job]? = some job ∧ job.jobId = x.jobId ∧ (x.added → job.data = x.data)
  again : ∀ i j x y, i < j → s.jobs[i]? = some x → s.jobs[j]? = some y → x.jobId = y.jobId →
    i ∈ s.completed.drop keptCompleted

def State.attemptsAt (s : State) (j : Nat) : Nat := s.attempts.countP (fun a => a.job = j)

def State.storedAt (s : State) (j : Nat) : Nat :=
  s.attempts.countP (fun a => a.job = j && a.stored)

def Attempt.Sound (a : Attempt) : Prop :=
  (a.pc = .taken → a.stored = false) ∧ (a.pc = .inserted → a.stored = true)

/-- How often a job was taken: once for each time it was taken back, and once more unless it
waits. -/
structure Counted (env : Env) (s : State) : Prop where
  jobs : ∀ j job, s.jobs[j]? = some job → job.stalled ≤ env.maxStalledCount ∧
    s.attemptsAt j = job.stalled + (if job.status = .waiting then 0 else 1) ∧
    (job.status = .completed → 1 ≤ s.inserts.count j)
  attempts : ∀ a ∈ s.attempts, a.job < s.jobs.length ∧ a.Sound
  inserts : ∀ j, s.inserts.count j = s.storedAt j
  latest : s.completed.Nodup
  completed : ∀ j ∈ s.completed, ∃ job, s.jobs[j]? = some job ∧ job.status = .completed

variable {env : Env} {s t : State} {a : Action} {i j k : Nat} {job : Job} {attempt : Attempt}

theorem get_batch (hjobs : t.jobs.map Job.batch = s.jobs.map Job.batch)
    (h : t.jobs[i]? = some job) : ∃ x, s.jobs[i]? = some x ∧ x.batch = job.batch := by
  have hmap : (s.jobs.map Job.batch)[i]? = some job.batch := by
    rw [← hjobs, List.getElem?_map, h]
    rfl
  rw [List.getElem?_map, Option.map_eq_some_iff] at hmap
  exact hmap

theorem rowsOfJob_batch (hjobs : t.jobs.map Job.batch = s.jobs.map Job.batch) :
    t.rowsOfJob env j = s.rowsOfJob env j := by
  have hget : ∀ u : State, u.rowsOfJob env j =
      (((u.jobs.map Job.batch)[j]?).bind fun b => rowsOf env b.2).getD [] := by
    intro u
    rw [List.getElem?_map, Option.bind_map]
    rfl
  rw [hget, hget, hjobs]

/-- The history and the agents decide what is owned. -/
theorem Owned.congr {jobId : String} {data : JobData} (h : Owned env s jobId data)
    (hsent : t.sent = s.sent) (hagents : t.agents = s.agents) : Owned env t jobId data := by
  unfold Owned
  rw [hsent, hagents]
  exact h

/-- The work on the jobs leaves them where they come from. -/
theorem Sourced.work (h : Sourced env s) (hagents : t.agents = s.agents)
    (hjobs : t.jobs.map Job.batch = s.jobs.map Job.batch)
    (hrows : t.metricSamples = s.metricSamples) (hinserts : t.inserts = s.inserts)
    (hhistory : t.acked = s.acked ∧ t.sent = s.sent ∧ t.expired = s.expired)
    (hcompleted : s.completed.drop keptCompleted ⊆ t.completed.drop keptCompleted) :
    Sourced env t where
  ids := hagents ▸ h.ids
  rows := by
    have hsame : s.inserts.flatMap (t.rowsOfJob env) = s.inserts.flatMap (s.rowsOfJob env) :=
      List.flatMap_congr fun j _ => rowsOfJob_batch hjobs
    rw [hrows, hinserts, hhistory.2.2, hsame]
    exact h.rows
  expired := hhistory.2.2 ▸ h.expired
  inserts := by
    have hlength : t.jobs.length = s.jobs.length := by
      simpa using congrArg List.length hjobs
    rw [hinserts, hlength]
    exact h.inserts
  owned := by
    intro job hjob
    obtain ⟨j, hj⟩ := List.mem_iff_getElem?.mp hjob
    obtain ⟨x, hx, hbatch⟩ := get_batch hjobs hj
    obtain ⟨hid, hdata⟩ := Prod.mk.inj hbatch
    rw [← hid, ← hdata]
    exact (h.owned x (List.mem_of_getElem? hx)).congr hhistory.2.1 hagents
  acked := by
    rw [hhistory.1]
    intro x hx
    obtain ⟨howned, job, hj, hid, hdata⟩ := h.acked x hx
    obtain ⟨y, hy, hbatch⟩ := get_batch hjobs.symm hj
    obtain ⟨hid', hdata'⟩ := Prod.mk.inj hbatch
    exact ⟨howned.congr hhistory.2.1 hagents, y, hy, hid'.trans hid,
      fun hadded => hdata'.trans (hdata hadded)⟩
  again := by
    intro i j x y hij hx hy hxy
    obtain ⟨x', hx', hbx⟩ := get_batch hjobs hx
    obtain ⟨y', hy', hby⟩ := get_batch hjobs hy
    refine hcompleted (h.again i j x' y' hij hx' hy' ?_)
    rw [(Prod.mk.inj hbx).1, (Prod.mk.inj hby).1, hxy]

theorem setJob_batch {old : Job} {status : JobStatus} (hj : s.jobs[j]? = some old)
    (hbatch : job.batch = old.batch) :
    (s.setJob j job status).jobs.map Job.batch = s.jobs.map Job.batch :=
  map_set_same Job.batch hj hbatch

theorem Sourced.setAttempt (h : Sourced env s) (k : Nat) (attempt : Attempt) :
    Sourced env (s.setAttempt k attempt) :=
  h.work rfl rfl rfl rfl ⟨rfl, rfl, rfl⟩ (List.Subset.refl _)

/-- What the queue makes of an attempt's end. -/
theorem report_cases (s : State) (k j : Nat) (ok : Bool) : s.report k j ok = s ∨
    ∃ job, s.jobs[j]? = some job ∧ job.status = .active k ∧
      (ok = true ∧ s.report k j ok =
          { s.setJob j job .completed with completed := j :: s.completed } ∨
        ok = false ∧ s.report k j ok = s.setJob j job .failed) := by
  unfold State.report
  split
  · rename_i job hj
    split
    · rename_i hactive
      refine .inr ⟨job, hj, hactive, ?_⟩
      cases ok with
      | true => exact .inl ⟨rfl, rfl⟩
      | false => exact .inr ⟨rfl, rfl⟩
    · exact .inl rfl
  · exact .inl rfl

theorem Sourced.report (h : Sourced env s) (k j : Nat) (ok : Bool) :
    Sourced env (s.report k j ok) := by
  rcases report_cases s k j ok with heq | ⟨job, hj, -, ⟨-, heq⟩ | ⟨-, heq⟩⟩
  · rw [heq]
    exact h
  · rw [heq]
    refine h.work rfl (setJob_batch hj rfl) rfl rfl ⟨rfl, rfl, rfl⟩ ?_
    exact List.drop_subset_drop_left s.completed (Nat.le_succ 499)
  · rw [heq]
    exact h.work rfl (setJob_batch hj rfl) rfl rfl ⟨rfl, rfl, rfl⟩ (List.Subset.refl _)

theorem Sourced.store {rows : List SampleRow} (h : Sourced env s) (hj : s.jobs[j]? = some job)
    (hrows : rowsOf env job.data = some rows) :
    Sourced env { s with
      metricSamples := s.metricSamples ++ rows, inserts := s.inserts ++ [j] } where
  ids := h.ids
  rows := by
    have hrow : s.rowsOfJob env j = rows := by
      rw [State.rowsOfJob, hj, Option.bind_some, hrows, Option.getD_some]
    change ((s.metricSamples ++ rows) ++ s.expired.map Expired.row).Perm
      ((s.inserts ++ [j]).flatMap (s.rowsOfJob env))
    rw [List.flatMap_append, List.flatMap_singleton, hrow, List.append_assoc]
    refine ((List.perm_append_comm.append_left _).trans ?_)
    rw [← List.append_assoc]
    exact h.rows.append_right rows
  expired := h.expired
  inserts := by
    intro i hi
    rcases List.mem_append.mp hi with hi | hi
    · exact h.inserts i hi
    · obtain ⟨hlt, -⟩ := List.getElem?_eq_some_iff.mp hj
      rw [List.mem_singleton.mp hi]
      exact hlt
  owned := h.owned
  acked := h.acked
  again := h.again

/-- A row is older than the end of its chunk. -/
theorem lt_chunkEnd (row : SampleRow) : row.observedAt < row.chunkEnd := by
  unfold SampleRow.chunkEnd
  omega

/-- What the retention drops is old, and it drops nothing else. -/
theorem Sourced.retain (h : Sourced env s) (now : Int) : Sourced env (s.retain env now) where
  ids := h.ids
  rows := by
    refine List.Perm.trans ?_ h.rows
    have hsplit := List.filter_append_perm (fun row : SampleRow => row.outdated env now)
      s.metricSamples
    have hrows : ∀ rows : List SampleRow,
        (rows.map (fun row : SampleRow => ({ row, droppedAt := now } : Expired))).map Expired.row =
          rows := by
      intro rows
      rw [List.map_map]
      exact List.map_id rows
    change (_ ++ (s.expired ++ _).map Expired.row).Perm _
    rw [List.map_append, hrows]
    refine (List.perm_append_comm.append_left _).trans ?_
    rw [← List.append_assoc]
    exact (List.perm_append_comm.trans hsplit).append_right _
  expired := by
    intro x hx
    rcases List.mem_append.mp hx with hx | hx
    · exact h.expired x hx
    · obtain ⟨row, hrow, rfl⟩ := List.mem_map.mp hx
      have hold : row.chunkEnd ≤ now - env.retentionDays * 86400000 := by
        simpa [SampleRow.outdated] using (List.mem_filter.mp hrow).2
      exact (lt_chunkEnd row).trans_le hold
  inserts := h.inserts
  owned := h.owned
  acked := h.acked
  again := h.again

theorem Owned.mono {jobId : String} {data : JobData} (h : Owned env s jobId data)
    (hsent : s.sent ⊆ t.sent)
    (hagents : ∀ x ∈ s.agents, ∃ y ∈ t.agents, y.id = x.id ∧ y.tenantId = x.tenantId) :
    Owned env t jobId data := by
  obtain ⟨x, hx, hgenuine, ⟨agent, hagent, hid, htenant⟩, hjob⟩ := h
  obtain ⟨y, hy, hyid, hytenant⟩ := hagents agent hagent
  exact ⟨x, hsent hx, hgenuine, ⟨y, hy, hyid.trans hid, hytenant.trans htenant⟩, hjob⟩

theorem Sourced.agents {agents : List Agent} (h : Sourced env s)
    (hids : (agents.map Agent.id).Nodup)
    (hagents : ∀ x ∈ s.agents, ∃ y ∈ agents, y.id = x.id ∧ y.tenantId = x.tenantId) :
    Sourced env { s with agents } where
  ids := hids
  rows := h.rows
  expired := h.expired
  inserts := h.inserts
  owned job hjob := (h.owned job hjob).mono (List.Subset.refl _) hagents
  acked x hx := ⟨((h.acked x hx).1).mono (List.Subset.refl _) hagents, (h.acked x hx).2⟩
  again := h.again

/-- A batch more in the history. -/
theorem Sourced.sent (h : Sourced env s) (x : Sent) :
    Sourced env { s with sent := s.sent ++ [x] } where
  ids := h.ids
  rows := h.rows
  expired := h.expired
  inserts := h.inserts
  owned job hjob := (h.owned job hjob).mono (List.subset_append_left _ _)
    (fun agent ha => ⟨agent, ha, rfl, rfl⟩)
  acked x hx := ⟨((h.acked x hx).1).mono (List.subset_append_left _ _)
    (fun agent ha => ⟨agent, ha, rfl, rfl⟩), (h.acked x hx).2⟩
  again := h.again

section
variable {jobId : String} {data : JobData}

theorem find_some (h : s.find jobId = some j) :
    ∃ job, s.jobs[j]? = some job ∧ job.jobId = jobId := by
  have hp := List.find?_some h
  rw [Bool.and_eq_true, decide_eq_true_eq, Option.map_eq_some_iff] at hp
  exact hp.2

theorem find_none (h : s.find jobId = none) (hj : s.jobs[j]? = some job)
    (hid : job.jobId = jobId) : j ∈ s.completed.drop keptCompleted := by
  obtain ⟨hlt, -⟩ := List.getElem?_eq_some_iff.mp hj
  have hno := List.find?_eq_none.mp h j (List.mem_range.mpr hlt)
  by_contra hmem
  apply hno
  simp [State.knows, hmem, hj, hid]

theorem add_found (h : s.find jobId = some j) : s.add jobId data = s := by
  rw [State.add, h]
  rfl

theorem add_new (h : s.find jobId = none) :
    s.add jobId data = { s with jobs := s.jobs ++ [{ jobId, data }] } := by
  rw [State.add, h]
  rfl

theorem Sourced.add (h : Sourced env s) (howned : Owned env s jobId data) :
    Sourced env (s.add jobId data) := by
  cases hfind : s.find jobId with
  | some j =>
    rw [add_found hfind]
    exact h
  | none =>
    rw [add_new hfind]
    have hkept : ∀ {i : Nat} {x : Job}, s.jobs[i]? = some x →
        (s.jobs ++ [({ jobId, data } : Job)])[i]? = some x := by
      intro i x hx
      obtain ⟨hlt, -⟩ := List.getElem?_eq_some_iff.mp hx
      exact (List.getElem?_append_left hlt).trans hx
    refine ⟨h.ids, ?_, h.expired, ?_, ?_, ?_, ?_⟩
    · refine h.rows.trans (List.Perm.of_eq (List.flatMap_congr fun j hj => ?_))
      change ((s.jobs[j]?).bind _).getD [] = (((s.jobs ++ _)[j]?).bind _).getD []
      rw [List.getElem?_append_left (h.inserts j hj)]
    · intro j hj
      rw [List.length_append]
      exact Nat.lt_add_right _ (h.inserts j hj)
    · intro job hjob
      rcases List.mem_append.mp hjob with hjob | hjob
      · exact h.owned job hjob
      · rw [List.mem_singleton.mp hjob]
        exact howned
    · intro x hx
      obtain ⟨hx, job, hj, hid, hdata⟩ := h.acked x hx
      exact ⟨hx, job, hkept hj, hid, hdata⟩
    · intro i j x y hij hx hy hxy
      rcases getElem?_append_cases hy with hy | ⟨rfl, rfl⟩
      · obtain ⟨hlt, -⟩ := List.getElem?_eq_some_iff.mp hy
        rw [List.getElem?_append_left (hij.trans hlt)] at hx
        exact h.again i j x y hij hx hy hxy
      · rw [List.getElem?_append_left hij] at hx
        exact find_none (s := s) hfind hx hxy

/-- The job of an acknowledged batch. -/
theorem jobOf_holds (s : State) (jobId : String) (data : JobData) : ∃ job,
    (s.add jobId data).jobs[(s.jobOf jobId data).job]? = some job ∧ job.jobId = jobId ∧
      ((s.jobOf jobId data).added → job.data = data) := by
  unfold State.jobOf
  cases hfind : s.find jobId with
  | some j =>
    obtain ⟨job, hj, hid⟩ := find_some hfind
    rw [add_found hfind]
    exact ⟨job, hj, hid, fun hnone => by cases hnone⟩
  | none =>
    rw [add_new hfind]
    exact ⟨{ jobId, data }, by simp, rfl, fun _ => rfl⟩

theorem enqueue_cases (s : State) (jobId : String) (data : JobData) (add close : Fate Unit) :
    s.enqueue jobId data add close = s ∨
      s.enqueue jobId data add close = s.add jobId data ∨
      s.enqueue jobId data add close = { s.add jobId data with
        acked := (s.add jobId data).acked ++ [s.jobOf jobId data] } := by
  cases add with
  | answered =>
    cases close with
    | answered => exact .inr (.inr rfl)
    | refused | lost => exact .inr (.inl rfl)
  | refused => exact .inl rfl
  | lost => exact .inr (.inl rfl)

theorem Sourced.enqueue {add close : Fate Unit} (h : Sourced env s)
    (howned : Owned env s jobId data) :
    Sourced env (s.enqueue jobId data add close) := by
  have hadd := h.add howned
  rcases enqueue_cases s jobId data add close with heq | heq | heq
  · rw [heq]
    exact h
  · rw [heq]
    exact hadd
  · rw [heq]
    refine ⟨hadd.ids, hadd.rows, hadd.expired, hadd.inserts, hadd.owned, ?_, hadd.again⟩
    intro x hx
    rcases List.mem_append.mp hx with hx | hx
    · exact hadd.acked x hx
    · have hsame : (s.add jobId data).sent = s.sent ∧ (s.add jobId data).agents = s.agents := by
        unfold State.add
        split <;> exact ⟨rfl, rfl⟩
      rw [List.mem_singleton.mp hx]
      exact ⟨howned.congr hsame.1 hsame.2, jobOf_holds s jobId data⟩

end

/-- The queue's verdict on a job changes its status, and how often it was taken back. -/
theorem Counted.setJob {new : Job} {completed : List Nat} (h : Counted env s)
    (hj : s.jobs[j]? = some job) (hnot : job.status ≠ .completed)
    (hnew : new.stalled ≤ env.maxStalledCount ∧
      new.stalled + (if new.status = .waiting then 0 else 1) =
        job.stalled + (if job.status = .waiting then 0 else 1))
    (hcompleted : new.status = .completed ∧ 1 ≤ s.inserts.count j ∧ completed = j :: s.completed ∨
      new.status ≠ .completed ∧ completed = s.completed) :
    Counted env { s with jobs := s.jobs.set j new, completed } := by
  have hfresh : j ∉ s.completed := by
    intro hmem
    obtain ⟨x, hx, hstatus⟩ := h.completed j hmem
    cases hj.symm.trans hx
    exact hnot hstatus
  obtain ⟨hlt, -⟩ := List.getElem?_eq_some_iff.mp hj
  have hother : ∀ {i x}, s.jobs[i]? = some x → i ≠ j → (s.jobs.set j new)[i]? = some x :=
    fun hx hne => (List.getElem?_set_ne hne.symm).trans hx
  have hself : (s.jobs.set j new)[j]? = some new := List.getElem?_set_self hlt
  refine ⟨?_, ?_, h.inserts, ?_, ?_⟩
  · intro i x hx
    rcases getElem?_set_cases hx with ⟨rfl, rfl⟩ | ⟨-, hx⟩
    · refine ⟨hnew.1, (h.jobs i job hj).2.1.trans hnew.2.symm, fun hstatus => ?_⟩
      rcases hcompleted with ⟨-, hone, -⟩ | ⟨hne, -⟩
      · exact hone
      · exact absurd hstatus hne
    · exact h.jobs i x hx
  · intro a ha
    rw [List.length_set]
    exact h.attempts a ha
  · rcases hcompleted with ⟨-, -, rfl⟩ | ⟨-, rfl⟩
    · exact List.nodup_cons.mpr ⟨hfresh, h.latest⟩
    · exact h.latest
  · have hold : ∀ i ∈ s.completed, ∃ x, (s.jobs.set j new)[i]? = some x ∧
        x.status = .completed := by
      intro i hi
      obtain ⟨x, hx, hstatus⟩ := h.completed i hi
      exact ⟨x, hother hx (fun heq => hfresh (heq ▸ hi)), hstatus⟩
    rcases hcompleted with ⟨hstatus, -, rfl⟩ | ⟨-, rfl⟩
    · intro i hi
      rcases List.mem_cons.mp hi with rfl | hi
      · exact ⟨new, hself, hstatus⟩
      · exact hold i hi
    · exact hold

theorem Counted.report {ok : Bool} (h : Counted env s)
    (hstored : ok = true → 1 ≤ s.inserts.count j) : Counted env (s.report k j ok) := by
  rcases report_cases s k j ok with heq | ⟨job, hj, hactive, ⟨hok, heq⟩ | ⟨-, heq⟩⟩
  · rw [heq]
    exact h
  · rw [heq]
    have hle := (h.jobs j job hj).1
    refine h.setJob hj (by rw [hactive]; nofun) ⟨hle, ?_⟩ (.inl ⟨rfl, hstored hok, rfl⟩)
    simp [hactive]
  · rw [heq]
    have hle := (h.jobs j job hj).1
    refine h.setJob hj (by rw [hactive]; nofun) ⟨hle, ?_⟩ (.inr ⟨nofun, rfl⟩)
    simp [hactive]

/-- An attempt that is over counts as before. -/
theorem Counted.over {stored : Bool} (h : Counted env s) (hk : s.attempts[k]? = some attempt)
    (hstored : stored = attempt.stored) :
    Counted env (s.setAttempt k { attempt with pc := .over, stored }) where
  jobs := by
    intro j job hj
    obtain ⟨hle, hattempts, hcompleted⟩ := h.jobs j job hj
    refine ⟨hle, Eq.trans ?_ hattempts, hcompleted⟩
    exact countP_set_same hk rfl
  attempts := by
    intro a ha
    rcases mem_set_cases ha with rfl | ha
    · exact ⟨(h.attempts attempt (List.mem_of_getElem? hk)).1, nofun, nofun⟩
    · exact h.attempts a ha
  inserts := by
    intro j
    subst hstored
    refine (h.inserts j).trans (Eq.symm ?_)
    exact countP_set_same hk rfl
  latest := h.latest
  completed := h.completed

/-- An attempt that inserts its job's rows has not done so before. -/
theorem Counted.store {pc : AttemptPc} {rows : List SampleRow} (h : Counted env s)
    (hk : s.attempts[k]? = some attempt) (hnot : attempt.stored = false) (hpc : pc ≠ .taken) :
    Counted env ({ s with
      metricSamples := s.metricSamples ++ rows
      inserts := s.inserts ++ [attempt.job] }.setAttempt k
        { attempt with pc, stored := true }) where
  jobs := by
    intro j job hj
    obtain ⟨hle, hattempts, hcompleted⟩ := h.jobs j job hj
    refine ⟨hle, Eq.trans ?_ hattempts, fun hstatus => ?_⟩
    · exact countP_set_same hk rfl
    · change 1 ≤ (s.inserts ++ [attempt.job]).count j
      rw [List.count_append]
      exact Nat.le_add_right_of_le (hcompleted hstatus)
  attempts := by
    intro a ha
    rcases mem_set_cases ha with rfl | ha
    · refine ⟨(h.attempts attempt (List.mem_of_getElem? hk)).1, fun htaken => ?_, fun _ => rfl⟩
      exact absurd htaken hpc
    · exact h.attempts a ha
  inserts := by
    intro j
    change (s.inserts ++ [attempt.job]).count j = (s.attempts.set k _).countP _
    rw [countP_set_add hk (by rw [hnot, Bool.and_false]), List.count_append, h.inserts j,
      List.count_singleton]
    simp [State.storedAt]
  latest := h.latest
  completed := h.completed

/-- A job that is taken has one attempt more, and waits no longer. -/
theorem Counted.take (h : Counted env s) (hj : s.jobs[j]? = some job)
    (hwaiting : job.status = .waiting) :
    Counted env { s.setJob j job (.active s.attempts.length) with
      attempts := s.attempts ++ [{ job := j }] } := by
  obtain ⟨hlt, -⟩ := List.getElem?_eq_some_iff.mp hj
  refine ⟨?_, ?_, ?_, h.latest, ?_⟩
  · intro i x hx
    have hattempts : (s.attempts ++ [({ job := j } : Attempt)]).countP (fun a => a.job = i) =
        s.attemptsAt i + if j = i then 1 else 0 := by
      rw [List.countP_append]
      simp [State.attemptsAt, List.countP_cons]
    change _ ∧ (s.attempts ++ [({ job := j } : Attempt)]).countP (fun a => a.job = i) = _ ∧ _
    rw [hattempts]
    rcases getElem?_set_cases hx with ⟨rfl, rfl⟩ | ⟨hne, hx⟩
    · obtain ⟨hle, hcount, -⟩ := h.jobs i job hj
      refine ⟨hle, ?_, nofun⟩
      rw [hwaiting] at hcount
      simpa using hcount
    · rw [if_neg (Ne.symm hne)]
      exact h.jobs i x hx
  · intro a ha
    change a.job < (s.jobs.set j _).length ∧ a.Sound
    rw [List.length_set]
    rcases List.mem_append.mp ha with ha | ha
    · exact h.attempts a ha
    · rw [List.mem_singleton.mp ha]
      exact ⟨hlt, fun _ => rfl, nofun⟩
  · intro i
    refine (h.inserts i).trans ?_
    change _ = (s.attempts ++ [({ job := j } : Attempt)]).countP (fun a => a.job = i && a.stored)
    rw [List.countP_append]
    simp [State.storedAt]
  · intro i hi
    obtain ⟨x, hx, hstatus⟩ := h.completed i hi
    refine ⟨x, ?_, hstatus⟩
    rw [← hx]
    refine List.getElem?_set_ne fun heq => ?_
    subst heq
    cases hj.symm.trans hx
    rw [hwaiting] at hstatus
    cases hstatus

theorem Counted.add {jobId : String} {data : JobData} (h : Counted env s) :
    Counted env (s.add jobId data) := by
  cases hfind : s.find jobId with
  | some j =>
    rw [add_found hfind]
    exact h
  | none =>
    rw [add_new hfind]
    refine ⟨?_, ?_, h.inserts, h.latest, ?_⟩
    · intro i x hx
      rcases getElem?_append_cases hx with hx | ⟨rfl, rfl⟩
      · exact h.jobs i x hx
      · refine ⟨Nat.zero_le _, ?_, nofun⟩
        refine List.countP_eq_zero.mpr fun a ha => ?_
        have := (h.attempts a ha).1
        simp only [decide_eq_true_eq]
        exact this.ne
    · intro a ha
      rw [List.length_append]
      exact ⟨Nat.lt_add_right _ (h.attempts a ha).1, (h.attempts a ha).2⟩
    · intro i hi
      obtain ⟨x, hx, hstatus⟩ := h.completed i hi
      obtain ⟨hlt, -⟩ := List.getElem?_eq_some_iff.mp hx
      exact ⟨x, (List.getElem?_append_left hlt).trans hx, hstatus⟩

theorem Counted.enqueue {jobId : String} {data : JobData} {add close : Fate Unit}
    (h : Counted env s) : Counted env (s.enqueue jobId data add close) := by
  have hadd : Counted env (s.add jobId data) := h.add
  rcases enqueue_cases s jobId data add close with heq | heq | heq
  · rw [heq]
    exact h
  · rw [heq]
    exact hadd
  · rw [heq]
    exact ⟨hadd.jobs, hadd.attempts, hadd.inserts, hadd.latest, hadd.completed⟩

/-- What the gateway is about to add is genuine. -/
theorem received_genuine {request : Request} {now : ℚ} {identity : AgentIdentity}
    {batch : Contracts.MetricsBatch}
    (h : (received env s request now).1 = .ok (identity, batch)) :
    ({ request, agents := s.agents, identity, batch } : Sent).Genuine env := by
  unfold received at h
  split at h
  · cases h
  · cases h
  · rename_i found hauth
    simp only at h
    split at h
    · cases h
    · split at h
      · cases h
      · rename_i b hbody
        split at h
        · rename_i hagent
          cases h
          exact ⟨hauth, hbody, hagent⟩
        · cases h

theorem genuine_agent {x : Sent} (h : x.Genuine env) : x.ByAgent x.agents := by
  obtain ⟨-, -, agent, -, -, hfind, -, -, htenant⟩ := authenticate_iff.mp h.1
  have hid : agent.id = x.identity.agentId := by simpa using List.find?_some hfind
  exact ⟨agent, List.mem_of_find?_eq_some hfind, hid, htenant⟩

theorem Sourced.insert {createMany : Fate Unit} (h : Sourced env s)
    (hj : s.jobs[attempt.job]? = some job) :
    Sourced env (s.insert env k attempt job createMany) := by
  unfold State.insert
  split
  · exact (h.setAttempt k _).report k attempt.job false
  · rename_i rows hrows
    have hstore : Sourced env (if createMany.effective then
        { s with
          metricSamples := s.metricSamples ++ rows
          inserts := s.inserts ++ [attempt.job] }
      else s) := by
      split
      · exact h.store hj hrows
      · exact h
    cases createMany with
    | answered => exact hstore.setAttempt k _
    | refused | lost => exact (hstore.setAttempt k _).report k attempt.job false

theorem Counted.insert {createMany : Fate Unit} (h : Counted env s)
    (hk : s.attempts[k]? = some attempt) (htaken : attempt.pc = .taken) :
    Counted env (s.insert env k attempt job createMany) := by
  have hnot : attempt.stored = false := (h.attempts attempt (List.mem_of_getElem? hk)).2.1 htaken
  unfold State.insert
  split
  · exact (h.over hk rfl).report (fun hok => by cases hok)
  · cases createMany with
    | answered => exact h.store hk hnot (by nofun)
    | refused e => exact (h.over hk hnot.symm).report (fun hok => by cases hok)
    | lost e => exact (h.store hk hnot (by nofun)).report (fun hok => by cases hok)

theorem step_sourced (h : Sourced env s) (hs : step env s a = some t) : Sourced env t := by
  cases a with
  | enroll agent =>
    simp only [step] at hs
    split at hs
    · cases hs
    · rename_i hfresh
      cases hs
      refine h.agents ?_ fun x hx => ⟨x, List.mem_append_left _ hx, rfl, rfl⟩
      rw [List.map_append, List.map_singleton, List.nodup_append]
      refine ⟨h.ids, List.nodup_singleton _, ?_⟩
      intro id hid id' hid' heq
      obtain ⟨x, hx, rfl⟩ := List.mem_map.mp hid
      rw [List.mem_singleton] at hid'
      apply hfresh
      exact List.any_eq_true.mpr ⟨x, hx, by simp [heq, hid']⟩
  | edit edit =>
    cases hs
    refine h.agents ?_ fun x hx =>
      ⟨edit.edit x, List.mem_map_of_mem hx, edit.id x, edit.tenantId x⟩
    rw [List.map_map]
    exact (List.map_congr_left fun x _ => edit.id x) ▸ h.ids
  | metrics request now add close =>
    simp only [step] at hs
    split at hs
    · cases hs
      exact h.work rfl rfl rfl rfl ⟨rfl, rfl, rfl⟩ (List.Subset.refl _)
    · rename_i identity batch hreceived
      cases hs
      have hs' : Sourced env { s with rateBuckets := (received env s request now).2 } :=
        h.work rfl rfl rfl rfl ⟨rfl, rfl, rfl⟩ (List.Subset.refl _)
      have hgenuine := received_genuine hreceived
      exact (hs'.sent _).enqueue
        ⟨_, List.mem_append_right _ List.mem_cons_self, hgenuine, genuine_agent hgenuine, rfl, rfl⟩
  | take j =>
    simp only [step] at hs
    split at hs
    · rename_i job hj
      split at hs
      · cases hs
        exact h.work rfl (setJob_batch hj rfl) rfl rfl ⟨rfl, rfl, rfl⟩ (List.Subset.refl _)
      · cases hs
    · cases hs
  | insert k createMany =>
    simp only [step] at hs
    split at hs
    · split at hs
      · obtain ⟨job, hj, rfl⟩ := Option.map_eq_some_iff.mp hs
        exact h.insert hj
      · cases hs
    · cases hs
  | finish k ok =>
    simp only [step] at hs
    split at hs
    · split at hs
      · cases hs
        exact (h.setAttempt k _).report k _ ok
      · cases hs
    · cases hs
  | die k =>
    simp only [step] at hs
    split at hs
    · cases hs
      exact h.setAttempt k _
    · cases hs
  | stall j =>
    simp only [step] at hs
    split at hs
    · rename_i job hj
      split at hs
      · split at hs <;> cases hs
        · exact h.work rfl (setJob_batch hj rfl) rfl rfl ⟨rfl, rfl, rfl⟩ (List.Subset.refl _)
        · exact h.work rfl (setJob_batch hj rfl) rfl rfl ⟨rfl, rfl, rfl⟩ (List.Subset.refl _)
      · cases hs
    · cases hs
  | retain now =>
    cases hs
    exact h.retain now

theorem step_counted (h : Counted env s) (hs : step env s a = some t) : Counted env t := by
  cases a with
  | enroll agent =>
    simp only [step] at hs
    split at hs <;> cases hs
    exact ⟨h.jobs, h.attempts, h.inserts, h.latest, h.completed⟩
  | edit edit =>
    cases hs
    exact ⟨h.jobs, h.attempts, h.inserts, h.latest, h.completed⟩
  | metrics request now add close =>
    have hs' : Counted env { s with rateBuckets := (received env s request now).2 } :=
      ⟨h.jobs, h.attempts, h.inserts, h.latest, h.completed⟩
    simp only [step] at hs
    split at hs
    · cases hs
      exact hs'
    · cases hs
      refine Counted.enqueue ?_
      exact ⟨hs'.jobs, hs'.attempts, hs'.inserts, hs'.latest, hs'.completed⟩
  | take j =>
    simp only [step] at hs
    split at hs
    · rename_i job hj
      split at hs
      · rename_i hwaiting
        cases hs
        exact h.take hj hwaiting
      · cases hs
    · cases hs
  | insert k createMany =>
    simp only [step] at hs
    split at hs
    · rename_i attempt hk
      split at hs
      · rename_i htaken
        obtain ⟨job, hj, rfl⟩ := Option.map_eq_some_iff.mp hs
        exact h.insert hk htaken
      · cases hs
    · cases hs
  | finish k ok =>
    simp only [step] at hs
    split at hs
    · rename_i attempt hk
      split at hs
      · rename_i hinserted
        cases hs
        have hmem := List.mem_of_getElem? hk
        refine (h.over hk rfl).report fun _ => ?_
        change 1 ≤ s.inserts.count attempt.job
        rw [h.inserts]
        refine List.countP_pos_iff.mpr ⟨attempt, hmem, ?_⟩
        simp [(h.attempts attempt hmem).2.2 hinserted]
      · cases hs
    · cases hs
  | die k =>
    simp only [step] at hs
    split at hs
    · rename_i attempt hk
      cases hs
      exact h.over hk rfl
    · cases hs
  | stall j =>
    simp only [step] at hs
    split at hs
    · rename_i job hj
      split at hs
      · rename_i holder hactive
        have hle := (h.jobs j job hj).1
        split at hs <;> cases hs
        · rename_i hlt
          refine h.setJob hj (by rw [hactive]; nofun) ⟨hlt, ?_⟩ (.inr ⟨nofun, rfl⟩)
          simp [hactive]
        · refine h.setJob hj (by rw [hactive]; nofun) ⟨hle, ?_⟩ (.inr ⟨nofun, rfl⟩)
          simp [hactive]
      · cases hs
    · cases hs
  | retain now =>
    cases hs
    exact ⟨h.jobs, h.attempts, h.inserts, h.latest, h.completed⟩

theorem jobIdOf_agent {id id' : String} {m n : Int}
    (htext : ∀ n, '_' ∉ (env.numberText n).toList)
    (h : jobIdOf env id m = jobIdOf env id' n) : id = id' := by
  have hlist := congrArg (List.reverse ∘ String.toList) h
  simp only [jobIdOf, Function.comp_apply, String.toList_append, List.reverse_append,
    List.append_assoc] at hlist
  have hplain : ∀ n, '_' ∉ (env.numberText n).toList.reverse := fun n => by
    rw [List.mem_reverse]
    exact htext n
  obtain ⟨-, hrest⟩ := append_cons_inj (hplain m) (hplain n) hlist
  have hid : id.toList.reverse = id'.toList.reverse := List.append_cancel_right hrest
  exact String.toList_inj.mp (List.reverse_injective hid)

theorem Owned.same {jobId : String} {data data' : JobData}
    (htext : ∀ n, '_' ∉ (env.numberText n).toList) (hids : (s.agents.map Agent.id).Nodup)
    (h : Owned env s jobId data) (h' : Owned env s jobId data') :
    data.agentId = data'.agentId ∧ data.tenantId = data'.tenantId := by
  obtain ⟨x, -, -, ⟨agent, hagent, hid, htenant⟩, hjob, rfl⟩ := h
  obtain ⟨y, -, -, ⟨agent', hagent', hid', htenant'⟩, hjob', rfl⟩ := h'
  have hxy : x.identity.agentId = y.identity.agentId :=
    jobIdOf_agent htext (hjob.symm.trans hjob')
  have hsame : agent = agent' :=
    List.inj_on_of_nodup_map hids hagent hagent' (by rw [hid, hid', hxy])
  refine ⟨hxy, ?_⟩
  change x.identity.tenantId = y.identity.tenantId
  rw [← htenant, ← htenant', hsame]

theorem accounted (htext : ∀ n, '_' ∉ (env.numberText n).toList) (h : Sourced env s)
    (hcounted : Counted env s) : Accounted env s where
  rows := h.rows
  expired := h.expired
  owned := h.owned
  acked := by
    intro x hx
    obtain ⟨howned, job, hj, hid, hdata⟩ := h.acked x hx
    have hjob := h.owned job (List.mem_of_getElem? hj)
    rw [hid] at hjob
    obtain ⟨hagent, htenant⟩ := hjob.same htext h.ids howned
    exact ⟨howned, job, hj, hid, hagent, htenant, hdata⟩
  copies := by
    intro j job hj
    obtain ⟨hle, hattempts, hcompleted⟩ := hcounted.jobs j job hj
    refine ⟨?_, hle, hcompleted⟩
    have hstored : s.storedAt j ≤ s.attemptsAt j :=
      List.countP_mono_left fun a _ ha => (Bool.and_eq_true_iff.mp ha).1
    rw [hcounted.inserts]
    split at hattempts <;> omega
  latest := hcounted.latest
  again := by
    intro i j x y hij hx hy hxy
    have hdrop := h.again i j x y hij hx hy hxy
    obtain ⟨job, hj, hstatus⟩ := hcounted.completed i (List.mem_of_mem_drop hdrop)
    cases hx.symm.trans hj
    exact ⟨hstatus, hdrop⟩

/-- In every run each row of metric_samples is of a batch an agent of the tenant has sent, each
batch that was acknowledged has its job, a job is inserted whole, once where it is completed, and
once more at most for each time the queue has taken it back, and only old rows are dropped. -/
theorem samples_accounted (env : Env) (htext : ∀ n, '_' ∉ (env.numberText n).toList)
    (as : List Action) : Always (step env) (Accounted env) {} as := by
  have hsourced : Sourced env {} :=
    ⟨List.nodup_nil, .refl _, nofun, nofun, nofun, nofun, nofun⟩
  have hcounted : Counted env {} := ⟨nofun, nofun, fun _ => rfl, List.nodup_nil, nofun⟩
  have hrun : Always (step env) (fun s => Sourced env s ∧ Counted env s) {} as :=
    always_of_inv (fun s a t h hs => ⟨step_sourced h.1 hs, step_counted h.2 hs⟩)
      ⟨hsourced, hcounted⟩
  exact hrun.mono fun s h => accounted htext h.1 h.2

def agentRow : Agent :=
  { id := agentOne, tenantId := "t", name := "waagent", version := none, protocolVersion := 1
    status := .online, credentialHash := some (hashAgentCredential digest agentOne secretOne)
    capabilities := [], origin := "k1" }

def batchOne : Js.Json := .object [
  ("protocol_version", .number (.finite 1)), ("agent_id", .string agentOne),
  ("sequence", .number (.finite 7)), ("samples", .array [.object [
    ("metric", .string "host.cpu.usage"), ("resource_id", .string "host_1"),
    ("observed_at", .string "1970-01-01T00:00:00Z"), ("value", .number (.finite 5))]])]

def decimals : Env where
  parseUuid := hyphenated
  sha256 := digest
  numberText n := Nat.repr n.toNat
  parseDate text := if text = "1970-01-01T00:00:00Z" then some 0 else none

def requestOne : Request :=
  { authorization := some ("Bearer waops_" ++ agentOne ++ "_" ++ secretOne)
    body := some batchOne }

def takenBack : List Action :=
  [.enroll agentRow, .metrics requestOne 0 .answered .answered, .take 0, .insert 0 .answered,
   .stall 0, .metrics requestOne 1 .answered .answered, .take 0, .insert 1 .answered,
   .finish 1 true, .retain 3196800000]

theorem taken_back_accounted : Always (step decimals) (Accounted decimals) {} takenBack ∧
    (exec (step decimals) {} takenBack).map (fun t =>
        (t.inserts, t.acked.map Acked.added, t.metricSamples.length, t.expired.length)) =
      some ([0, 0], [true, false], 0, 2) :=
  ⟨samples_accounted decimals (fun n => by
      change '_' ∉ (Nat.repr n.toNat).toList
      rw [Nat.toList_repr]
      exact Nat.underscore_not_in_toDigits) takenBack,
    by decide +kernel⟩

end WaOps.Ingest
