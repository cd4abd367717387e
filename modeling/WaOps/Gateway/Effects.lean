import WaOps.Gateway.State

namespace WaOps.Gateway

/-- What the tables say about a call when it is added or moves on. -/
def Call.Grounded (s : State) : Call → Prop
  | .found token _ => token ∈ s.tokens
  | .heartbeat identity _ => ∃ a ∈ s.agents, a.id = identity.agentId
  | .revoking agentId => ∃ a ∈ s.agents, a.id = agentId
  | .claimed _ _ => False
  | _ => True

variable {sha256 : String → String}

/-- Every action but a heartbeat's update that takes effect. -/
def Action.quiet : Action → Prop
  | .beat _ outcome => outcome = .aborted
  | _ => True

/-- All a step can do. -/
inductive Effect (sha256 : String → String) (s : State) : Action → State → Prop
  | quiet (now : Int) (jobs : List AgentIdentity) {calls : List Call} (hq : a.quiet)
    (hc : ∀ c ∈ calls, c ∈ s.calls ∨ c.Grounded s) : Effect sha256 s a { s with now, jobs, calls }
  | mint {i : Nat} {tokenId text : String} {tk : Token} (hf : ∀ u ∈ s.tokens, u.id ≠ tk.id)
    (hs : tk.status = .active) :
    Effect sha256 s (.mint i tokenId text) ({ s with tokens := s.tokens ++ [tk] }.setCall i .ended)
  | claim {body : EnrollmentBody} {token tokenHash : String} {calls : List Call}
    {outcome : Outcome} (hv : validToken token = true) (he : body.enrollmentToken = some token)
    (hash : hashEnrollmentToken sha256 token = tokenHash)
    (hc : calls = s.calls ∨ calls = s.calls ++ [.claimed tokenHash body] ∧
      ∃ tk ∈ s.tokens, tk.claimable s.now tokenHash) :
    Effect sha256 s (.enroll body outcome)
      { s.updateTokens (Token.claimable s.now tokenHash) Token.claim with calls }
  | create (hcall : s.calls[i]? = some (.found token body))
    (hf : ∀ a ∈ s.agents, a.id ≠ agentId)
    (htk : ∃ tk ∈ s.tokens, tk.id = token.id ∧ tk.status = .claiming)
    (hc : c = Call.ended ∨ c = .failed token.tokenHash) :
    Effect sha256 s (.create i agentId secret outcome)
      (({ s with agents := s.agents ++ [newAgent sha256 token body agentId secret] }.updateTokens
        (fun tk => tk.id = token.id) (Token.consume s.now agentId)).setCall i c)
  | rollback :
    Effect sha256 s (.rollback i outcome)
      ((s.updateTokens (fun tk => tk.tokenHash = tokenHash ∧ tk.status = .claiming)
        Token.reopen).setCall i .ended)
  | beat {i : Nat} {identity : AgentIdentity} {parsed : Heartbeat} {outcome : Outcome}
    (hcall : s.calls[i]? = some (.heartbeat identity parsed)) (ho : outcome ≠ .aborted) :
    Effect sha256 s (.beat i outcome)
      ((s.updateAgents (fun a => a.id = identity.agentId) (Agent.beat s.now parsed)).setCall i
        .ended)
  | bridge {identity : AgentIdentity} :
    Effect sha256 s (.bridge i hostId machineId)
      (s.updateAgents (fun a => a.id = identity.agentId ∧ a.tenantId = identity.tenantId)
        (Agent.bridge hostId machineId))
  | revoke {i : Nat} {agentId : String} {outcome : Outcome}
    (hcall : s.calls[i]? = some (.revoking agentId)) :
    Effect sha256 s (.commitRevoke i outcome)
      ({ s.updateAgents (fun a => a.id = agentId) Agent.revoke with
        revoked := s.revoked ++ [agentId] }.setCall i .ended)

theorem mem_addCall {s : State} {c d : Call} (h : d ∈ (s.addCall c).calls) :
    d ∈ s.calls ∨ d = c := by
  rcases List.mem_append.mp h with h | h
  · exact .inl h
  · exact .inr (List.mem_singleton.mp h)

theorem Effect.same {s : State} {a : Action} (hq : a.quiet) : Effect sha256 s a s :=
  .quiet s.now s.jobs hq fun _ h => .inl h

theorem Effect.add {s : State} {a : Action} {c : Call} (hq : a.quiet) (hc : c.Grounded s) :
    Effect sha256 s a (s.addCall c) := by
  refine .quiet s.now s.jobs hq ?_
  intro d hd
  rcases mem_addCall hd with hd | rfl
  · exact .inl hd
  · exact .inr hc

theorem mem_setCall {s : State} {i : Nat} {c d : Call} (hc : c.Grounded s)
    (hd : d ∈ (s.setCall i c).calls) : d ∈ s.calls ∨ d.Grounded s := by
  rcases List.mem_or_eq_of_mem_set hd with hd | rfl
  · exact .inl hd
  · exact .inr hc

theorem Effect.move {s : State} {a : Action} {i : Nat} {c : Call} (hq : a.quiet)
    (hc : c.Grounded s) :
    Effect sha256 s a (s.setCall i c) :=
  .quiet s.now s.jobs hq fun _ hd => mem_setCall hc hd

/-- Who authenticates has a row, and that row is not revoked. -/
theorem authenticate_row {agents : List Agent} {header : Option String}
    {identity : AgentIdentity} (h : authenticateAgent sha256 agents header = some identity) :
    ∃ a ∈ agents, a.id = identity.agentId ∧ a.status ≠ .revoked := by
  unfold authenticateAgent at h
  split at h
  · contradiction
  · split at h
    · contradiction
    · rename_i agent hfind
      split at h
      · contradiction
      · rename_i hlive
        split at h
        · cases h
          exact ⟨agent, List.mem_of_find?_eq_some hfind, rfl, hlive⟩
        · contradiction

theorem create_spec {s t : State} {agent : Agent} {token : Token}
    (h : s.create agent token = some t) :
    (∀ a ∈ s.agents, a.id ≠ agent.id) ∧
    (∃ tk ∈ s.tokens, tk.id = token.id ∧ tk.status = .claiming) ∧
    t = { s with agents := s.agents ++ [agent] }.updateTokens (fun tk => tk.id = token.id)
      (Token.consume s.now agent.id) := by
  unfold State.create at h
  split at h
  · contradiction
  · rename_i hnew
    split at h
    · rename_i htk
      cases h
      refine ⟨by simpa using hnew, by simpa using htk, rfl⟩
    · contradiction

theorem enroll_effect {s : State} {body : EnrollmentBody} {token : String} {outcome : Outcome}
    (he : body.enrollmentToken = some token) (hv : validToken token = true) :
    Effect sha256 s (.enroll body outcome)
      (s.enroll (hashEnrollmentToken sha256 token) body outcome) := by
  unfold State.enroll
  cases outcome with
  | aborted => exact .same trivial
  | unanswered => exact .claim hv he rfl (.inl rfl)
  | committed =>
    dsimp only
    split
    · rename_i hany
      exact .claim hv he rfl (.inr ⟨rfl, by simpa using hany⟩)
    · exact .same trivial

theorem step_effect {s t : State} {a : Action} (h : step sha256 s a = some t) :
    Effect sha256 s a t := by
  cases a with
  | tick ms =>
    cases h
    exact .quiet _ s.jobs trivial fun _ h => .inl h
  | createToken tenantId ttlMinutes =>
    simp only [step] at h
    split at h
    · cases h
      exact .same trivial
    · split at h
      · cases h
        exact .same trivial
      · cases h
        exact .add trivial trivial
  | mint i id token =>
    simp only [step] at h
    split at h
    · split at h
      · cases h
        exact .move trivial trivial
      · rename_i hnew
        cases h
        refine .mint ?_ rfl
        intro u hu heq
        exact hnew (List.any_eq_true.mpr ⟨u, hu, by simp [heq]⟩)
    · contradiction
  | enroll body outcome =>
    simp only [step] at h
    split at h
    · rename_i token he
      split at h
      · rename_i hv
        cases h
        exact enroll_effect he hv
      · cases h
        exact .same trivial
    · cases h
      exact .same trivial
  | find i ok =>
    simp only [step] at h
    split at h
    · split at h
      · rename_i tk hfind
        cases h
        refine .move trivial ?_
        split at hfind
        · exact List.mem_of_find?_eq_some hfind
        · contradiction
      · cases h
        exact .move trivial trivial
    · contradiction
  | create i id secret outcome =>
    simp only [step] at h
    split at h
    · rename_i token body hcall
      split at h
      · rename_i u hcreate
        obtain ⟨hf, htk, rfl⟩ := create_spec hcreate
        cases h
        exact .create hcall hf htk (.inl rfl)
      · rename_i u hcreate
        obtain ⟨hf, htk, rfl⟩ := create_spec hcreate
        cases h
        exact .create hcall hf htk (.inr rfl)
      · cases h
        exact .move trivial trivial
    · contradiction
  | rollback i outcome =>
    simp only [step] at h
    split at h
    · split at h
      · cases h
        exact .move trivial trivial
      · cases h
        exact .rollback
    · contradiction
  | crash i =>
    cases h
    exact .move trivial trivial
  | heartbeat header rateLimited parsed =>
    simp only [step] at h
    split at h
    · cases h
      exact .same trivial
    · rename_i identity hauth
      split at h
      · cases h
        obtain ⟨agent, hm, hid, _⟩ := authenticate_row hauth
        exact .add trivial ⟨agent, hm, hid⟩
      · cases h
        exact .same trivial
  | beat i outcome =>
    simp only [step] at h
    split at h
    · rename_i hcall
      split at h
      · cases h
        exact .move rfl trivial
      · rename_i hne
        cases h
        exact .beat hcall hne
    · contradiction
  | metrics header rateLimited parsed ownId =>
    simp only [step] at h
    split at h
    · cases h
      exact .same trivial
    · split at h
      · cases h
        exact .same trivial
      · cases h
        exact .add trivial trivial
  | addJob i =>
    simp only [step] at h
    split at h
    · cases h
      exact .quiet s.now _ trivial fun _ hd => mem_setCall (c := .ended) trivial hd
    · contradiction
  | bridge i hostId machineId =>
    simp only [step] at h
    split at h
    · cases h
      exact .bridge
    · contradiction
  | revoke tenantId id =>
    simp only [step] at h
    split at h
    · rename_i agent hfind
      cases h
      exact .add trivial ⟨agent, List.mem_of_find?_eq_some hfind, rfl⟩
    · cases h
      exact .same trivial
  | commitRevoke i outcome =>
    simp only [step] at h
    split at h
    · rename_i hcall
      split at h
      · cases h
        exact .move trivial trivial
      · cases h
        exact .revoke hcall
    · contradiction

end WaOps.Gateway
