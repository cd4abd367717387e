import WaOps.Gateway.Effects

namespace WaOps.Gateway
open Lib.Runs

/-- A revoked agent's row says so, and none of its credentials authenticates. -/
def Dead (sha256 : String → String) (s : State) : Prop :=
  ∀ id ∈ s.revoked, (∀ a ∈ s.agents, a.id = id → a.status = .revoked) ∧
    ∀ header identity, authenticateAgent sha256 s.agents header = some identity →
      identity.agentId ≠ id

/-- No heartbeat that authenticated earlier writes its update after its agent's revoke. -/
def Timely (s : State) : Action → Prop
  | .beat i outcome => outcome ≠ .aborted → ∀ identity parsed,
      s.calls[i]? = some (.heartbeat identity parsed) → identity.agentId ∉ s.revoked
  | _ => True

/-- Every agent a call is about, and every revoked one, has a row. -/
structure Present (s : State) : Prop where
  revoked : ∀ id ∈ s.revoked, ∃ a ∈ s.agents, a.id = id
  heartbeat : ∀ identity parsed, .heartbeat identity parsed ∈ s.calls →
    ∃ a ∈ s.agents, a.id = identity.agentId
  revoking : ∀ id, .revoking id ∈ s.calls → ∃ a ∈ s.agents, a.id = id

def RowsDead (s : State) : Prop :=
  ∀ id ∈ s.revoked, ∀ a ∈ s.agents, a.id = id → a.status = .revoked

section
variable {sha256 : String → String} {s t : State}

/-- Authentication reads the row, so the rows decide. -/
theorem dead_iff_rows : Dead sha256 s ↔ RowsDead s := by
  constructor
  · intro h id hid
    exact (h id hid).1
  · intro h id hid
    refine ⟨h id hid, ?_⟩
    rintro header identity hauth heq
    obtain ⟨a, ha, haid, hlive⟩ := authenticate_row hauth
    exact hlive (h id hid a ha (haid.trans heq))

/-- Rows are added and rewritten under their ids, and never deleted. -/
theorem Present.grow (h : Present s)
    (hrow : ∀ id, (∃ a ∈ s.agents, a.id = id) → ∃ a ∈ t.agents, a.id = id)
    (hrev : ∀ id ∈ t.revoked, id ∈ s.revoked ∨ .revoking id ∈ s.calls)
    (hcalls : ∀ c ∈ t.calls, c ∈ s.calls ∨ c.Grounded s) : Present t where
  revoked := by
    intro id hid
    rcases hrev id hid with hold | hnew
    · exact hrow id (h.revoked id hold)
    · exact hrow id (h.revoking id hnew)
  heartbeat := by
    intro identity parsed hc
    rcases hcalls _ hc with hold | hnew
    · exact hrow _ (h.heartbeat identity parsed hold)
    · exact hrow _ hnew
  revoking := by
    intro id hc
    rcases hcalls _ hc with hold | hnew
    · exact hrow _ (h.revoking id hold)
    · exact hrow _ hnew

theorem update_rows {p : Agent → Bool} {f : Agent → Agent} (hf : ∀ a, (f a).id = a.id) {id : String}
    (h : ∃ a ∈ s.agents, a.id = id) : ∃ a ∈ (s.updateAgents p f).agents, a.id = id := by
  obtain ⟨a, ha, hid⟩ := h
  refine ⟨_, List.mem_map_of_mem ha, ?_⟩
  split
  · exact (hf a).trans hid
  · exact hid

theorem step_present (s : State) (a : Action) (t : State) (h : Present s)
    (hs : step sha256 s a = some t) : Present t := by
  cases step_effect hs with
  | quiet now jobs _ hc => exact h.grow (fun _ h => h) (fun _ h => .inl h) hc
  | mint _ _ =>
    exact h.grow (fun _ h => h) (fun _ h => .inl h) fun c hc => mem_setCall (c := .ended) trivial hc
  | @claim body token tokenHash calls outcome hv he hash hc =>
    refine ⟨h.revoked, ?_, ?_⟩
    · intro identity parsed hm
      rcases hc with rfl | ⟨rfl, _⟩
      · exact h.heartbeat identity parsed hm
      · exact h.heartbeat identity parsed (by simpa using hm)
    · intro id hm
      rcases hc with rfl | ⟨rfl, _⟩
      · exact h.revoking id hm
      · exact h.revoking id (by simpa using hm)
  | create _ _ _ hc =>
    refine h.grow ?_ (fun _ h => .inl h) ?_
    · rintro id ⟨a, ha, hid⟩
      exact ⟨a, List.mem_append_left _ ha, hid⟩
    · intro d hd
      refine mem_setCall ?_ hd
      rcases hc with rfl | rfl <;> trivial
  | rollback =>
    exact h.grow (fun _ h => h) (fun _ h => .inl h) fun c hc => mem_setCall (c := .ended) trivial hc
  | beat _ _ =>
    refine h.grow ?_ (fun _ h => .inl h) fun c hc => mem_setCall (c := .ended) trivial hc
    intro id hid
    apply update_rows ?_ hid
    exact fun _ => rfl
  | bridge =>
    refine h.grow ?_ (fun _ h => .inl h) (fun _ h => .inl h)
    intro id hid
    apply update_rows ?_ hid
    exact fun _ => rfl
  | revoke hcall =>
    refine h.grow ?_ ?_ fun c hc => mem_setCall (c := .ended) trivial hc
    · intro id hid
      apply update_rows ?_ hid
      exact fun _ => rfl
    · intro id hid
      rcases List.mem_append.mp hid with hid | hid
      · exact .inl hid
      · rw [List.mem_singleton.mp hid]
        exact .inr (List.mem_of_getElem? hcall)

/-- A heartbeat's update leaves the revoked agents dead exactly when its agent is none of
them. -/
theorem beat_dead_iff {identity : AgentIdentity} {parsed : Heartbeat} (h : RowsDead s)
    (hrow : ∃ a ∈ s.agents, a.id = identity.agentId) (i : Nat) :
    RowsDead ((s.updateAgents (fun a => a.id = identity.agentId)
      (Agent.beat s.now parsed)).setCall i .ended) ↔ identity.agentId ∉ s.revoked := by
  constructor
  · intro ht hrev
    obtain ⟨a, ha, hid⟩ := hrow
    have hm := List.mem_map_of_mem (f := fun a => if decide (a.id = identity.agentId) = true then
      Agent.beat s.now parsed a else a) ha
    have hst := ht identity.agentId hrev _ hm (by simp [hid, Agent.beat])
    simp [hid, Agent.beat] at hst
  · intro hlive id hrev a' ha' hid
    obtain ⟨a, ha, rfl⟩ := List.mem_map.mp ha'
    dsimp only at hid ⊢
    split at hid
    · rename_i heq
      have : a.id = identity.agentId := by simpa using heq
      have hbid : a.id = id := hid
      rw [← hbid, this] at hrev
      exact absurd hrev hlive
    · rename_i hne
      rw [if_neg hne]
      exact h id hrev a ha hid

theorem updateAgents_dead {p : Agent → Bool} {f : Agent → Agent} (h : RowsDead s)
    (hid : ∀ a, (f a).id = a.id) (hst : ∀ a, a.status = .revoked → (f a).status = .revoked) :
    RowsDead (s.updateAgents p f) := by
  intro id hrev a' ha' heq
  obtain ⟨a, ha, rfl⟩ := List.mem_map.mp ha'
  split at heq
  · rename_i hp
    rw [if_pos hp]
    exact hst a (h id hrev a ha ((hid a).symm.trans heq))
  · rename_i hp
    rw [if_neg hp]
    exact h id hrev a ha heq

theorem revoke_dead (h : RowsDead s) (agentId : String) :
    RowsDead { s.updateAgents (fun a => a.id = agentId) Agent.revoke with
      revoked := s.revoked ++ [agentId] } := by
  have hold := updateAgents_dead (p := fun a => a.id = agentId) (f := Agent.revoke) h
    (fun _ => rfl) (fun _ _ => rfl)
  intro id hrev a' ha' heq
  rcases List.mem_append.mp hrev with hrev | hrev
  · exact hold id hrev a' ha' heq
  · obtain ⟨a, ha, rfl⟩ := List.mem_map.mp ha'
    rw [List.mem_singleton.mp hrev] at heq
    split at heq
    · rename_i hp
      rw [if_pos hp]
      rfl
    · rename_i hp
      simp [heq] at hp

/-- Of all steps only a heartbeat's update can bring a revoked agent back. -/
theorem step_dead_iff (s : State) (a : Action) (t : State) (hp : Present s)
    (h : Dead sha256 s) (hs : step sha256 s a = some t) : Dead sha256 t ↔ Timely s a := by
  rw [dead_iff_rows] at h ⊢
  cases step_effect hs with
  | quiet now jobs hq hc =>
    refine ⟨?_, fun _ => h⟩
    intro _
    cases a with
    | beat i outcome => exact fun hne => absurd hq hne
    | _ => trivial
  | mint _ _ => exact ⟨fun _ => trivial, fun _ => h⟩
  | claim _ _ _ _ => exact ⟨fun _ => trivial, fun _ => h⟩
  | create _ hf _ _ =>
    refine ⟨fun _ => trivial, ?_⟩
    intro _ id hrev a ha hid
    rcases List.mem_append.mp ha with ha | ha
    · exact h id hrev a ha hid
    · -- the new agent's id is no row's yet, and a revoked one has a row
      obtain ⟨b, hb, hbid⟩ := hp.revoked id hrev
      rw [List.mem_singleton.mp ha] at hid
      exact absurd (hbid.trans hid.symm) (hf b hb)
  | rollback => exact ⟨fun _ => trivial, fun _ => h⟩
  | @beat i identity parsed outcome hcall ho =>
    have hrow := hp.heartbeat identity parsed (List.mem_of_getElem? hcall)
    rw [beat_dead_iff h hrow i]
    constructor
    · intro hlive _ identity' parsed' hcall'
      rw [hcall] at hcall'
      cases hcall'
      exact hlive
    · intro ht
      exact ht ho identity parsed hcall
  | bridge =>
    refine ⟨fun _ => trivial, ?_⟩
    intro _
    apply updateAgents_dead h
    · exact fun _ => rfl
    · exact fun _ hst => hst
  | revoke _ => exact ⟨fun _ => trivial, fun _ => revoke_dead h _⟩

end

theorem empty_present (now : Int) : Present { now } := by
  refine ⟨?_, ?_, ?_⟩ <;> simp

/-- Revoked agents stay revoked, and never authenticate again, exactly in the runs in which
no heartbeat's update commits after the revoke of its agent. -/
theorem revoked_forever_iff_timely (sha256 : String → String) (now : Int) (as : List Action) :
    Always (step sha256) (Dead sha256) { now } as ↔ Meets (step sha256) Timely { now } as := by
  apply always_iff_meets step_present step_dead_iff (empty_present now)
  intro id hid
  cases hid

/-- Stands for a digest where only equality of digests matters. -/
def digest (text : String) : String := text

def bearer : Option String := some "Bearer waops_a1_s"

/-- An agent enrolls; its heartbeat has authenticated when the operator revokes it, and is
written after that. -/
def lateHeartbeat : List Action :=
  [.createToken "t" none, .mint 0 "k1" "enr_0123456789ab",
   .enroll { enrollmentToken := some "enr_0123456789ab" } .committed, .find 1 true,
   .create 1 "a1" "s" .committed, .heartbeat bearer false (some { agentVersion := "1" }),
   .revoke "t" "a1", .commitRevoke 3 .committed, .beat 2 .committed]

theorem late_heartbeat_revives :
    ∃ s, exec (step digest) {} lateHeartbeat = some s ∧ ¬ Dead digest s ∧
      (authenticateAgent digest s.agents bearer).isSome := by
  refine ⟨_, (Option.some_get (by decide)).symm, ?_, ?_⟩
  · intro h
    have := (h "a1" (by decide)).2 bearer { agentId := "a1", tenantId := "t" } (by decide)
    exact this rfl
  · decide

end WaOps.Gateway
