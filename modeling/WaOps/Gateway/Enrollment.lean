import Mathlib.Data.List.Nodup
import WaOps.Gateway.Effects

namespace WaOps.Gateway
open Lib.Runs

def State.agentsFrom (s : State) (tk : Token) : List Agent :=
  s.agents.filter (fun a => a.origin = tk.id)

/-- At most one agent was ever created from the token, it belongs to the token's tenant,
and it is there exactly when the token is used. -/
structure Token.Safe (s : State) (tk : Token) : Prop where
  once : (s.agentsFrom tk).length ≤ 1
  tenant : ∀ a ∈ s.agentsFrom tk, a.tenantId = tk.tenantId
  used : s.agentsFrom tk ≠ [] ↔ tk.status = .used

/-- An enrollment call goes on only with a token it named that was active and unexpired, and
only such a call makes a token claiming. -/
structure FairClaims (sha256 : String → String) (s : State) : Prop where
  won : ∀ body outcome t, step sha256 s (.enroll body outcome) = some t → t.calls ≠ s.calls →
    ∃ token, body.enrollmentToken = some token ∧ ∃ tk ∈ s.tokens,
      tk.tokenHash = hashEnrollmentToken sha256 token ∧ tk.status = .active ∧ s.now < tk.expiresAt
  claimed : ∀ a t, step sha256 s a = some t → ∀ tk ∈ s.tokens, ∀ tk' ∈ t.tokens, tk'.id = tk.id →
    tk.status ≠ .claiming → tk'.status = .claiming →
    tk.status = .active ∧ s.now < tk.expiresAt ∧ ∃ body outcome token, a = .enroll body outcome ∧
      body.enrollmentToken = some token ∧ tk.tokenHash = hashEnrollmentToken sha256 token

structure Inv (s : State) : Prop where
  ids : (s.tokens.map Token.id).Nodup
  origins : (s.agents.map Agent.origin).Nodup
  used : ∀ tk ∈ s.tokens, tk.status = .used ↔ ∃ a ∈ s.agents, a.origin = tk.id
  tenant : ∀ a ∈ s.agents, ∃ tk ∈ s.tokens, tk.id = a.origin ∧ tk.tenantId = a.tenantId
  found : ∀ token body, .found token body ∈ s.calls →
    ∃ tk ∈ s.tokens, tk.id = token.id ∧ tk.tenantId = token.tenantId

/-- Writes that keep the key of every row keep the keys. -/
theorem map_key {β : Type} {key : β → String} {f : β → β} (l : List β)
    (hf : ∀ x, key (f x) = key x) : (l.map f).map key = l.map key := by
  simp [Function.comp_def, hf]

theorem filter_key_length {β : Type} {key : β → String} {l : List β} (h : (l.map key).Nodup)
    (k : String) : (l.filter (fun x => key x = k)).length ≤ 1 := by
  have hc := List.nodup_iff_count_le_one.mp h k
  rw [List.count, List.countP_map] at hc
  rw [← List.countP_eq_length_filter]
  refine Nat.le_trans (List.countP_mono_left ?_) hc
  intro x _ hx
  simpa using hx

theorem Inv.safe {s : State} (h : Inv s) {tk : Token} (htk : tk ∈ s.tokens) : tk.Safe s where
  once := filter_key_length h.origins tk.id
  tenant := by
    intro a ha
    obtain ⟨hm, ho⟩ := List.mem_filter.mp ha
    obtain ⟨tk', htk', hid, hten⟩ := h.tenant a hm
    have : tk' = tk := List.inj_on_of_nodup_map h.ids htk' htk (hid.trans (by simpa using ho))
    rw [← hten, this]
  used := by
    rw [h.used tk htk]
    simp [State.agentsFrom, List.filter_eq_nil_iff]

/-- Writing token rows keeps the invariant where it keeps their keys and what is used. -/
theorem Inv.updateTokens {s : State} (h : Inv s) {p : Token → Bool} {f : Token → Token}
    (hid : ∀ tk, (f tk).id = tk.id) (hten : ∀ tk, (f tk).tenantId = tk.tenantId)
    (hused : ∀ tk, p tk = true → ((f tk).status = .used ↔ tk.status = .used)) :
    Inv (s.updateTokens p f) := by
  have hid' : ∀ tk, (if p tk = true then f tk else tk).id = tk.id := by
    intro tk
    split
    · exact hid tk
    · rfl
  have hten' : ∀ tk, (if p tk = true then f tk else tk).tenantId = tk.tenantId := by
    intro tk
    split
    · exact hten tk
    · rfl
  have hlift : ∀ id tenantId, (∃ tk ∈ s.tokens, tk.id = id ∧ tk.tenantId = tenantId) →
      ∃ tk ∈ (s.updateTokens p f).tokens, tk.id = id ∧ tk.tenantId = tenantId := by
    rintro id tenantId ⟨tk, htk, h1, h2⟩
    exact ⟨_, List.mem_map_of_mem htk, (hid' tk).trans h1, (hten' tk).trans h2⟩
  refine ⟨(map_key s.tokens hid').symm ▸ h.ids, h.origins, ?_, ?_, ?_⟩
  · intro tk' htk'
    obtain ⟨tk, htk, rfl⟩ := List.mem_map.mp htk'
    refine Iff.trans ?_ ((h.used tk htk).trans (by rw [hid' tk]; exact Iff.rfl))
    split
    · rename_i hp
      exact hused tk hp
    · exact Iff.rfl
  · exact fun a ha => hlift _ _ (h.tenant a ha)
  · exact fun token body hc => hlift _ _ (h.found token body hc)

/-- Agent updates keep what ties an agent to its token. -/
theorem Inv.updateAgents {s : State} (h : Inv s) {p : Agent → Bool} {f : Agent → Agent}
    (ho : ∀ a, (f a).origin = a.origin) (hten : ∀ a, (f a).tenantId = a.tenantId) :
    Inv (s.updateAgents p f) := by
  have ho' : ∀ a, (if p a = true then f a else a).origin = a.origin := by
    intro a
    split
    · exact ho a
    · rfl
  refine ⟨h.ids, (map_key s.agents ho').symm ▸ h.origins, ?_, ?_, h.found⟩
  · intro tk htk
    rw [h.used tk htk]
    constructor
    · rintro ⟨a, ha, hoa⟩
      exact ⟨_, List.mem_map_of_mem ha, (ho' a).trans hoa⟩
    · rintro ⟨a', ha', hoa⟩
      obtain ⟨a, ha, rfl⟩ := List.mem_map.mp ha'
      exact ⟨a, ha, (ho' a).symm.trans hoa⟩
  · intro a' ha'
    obtain ⟨a, ha, rfl⟩ := List.mem_map.mp ha'
    obtain ⟨tk, htk, h1, h2⟩ := h.tenant a ha
    refine ⟨tk, htk, h1.trans (ho' a).symm, h2.trans ?_⟩
    split
    · exact (hten a).symm
    · rfl

/-- Calls matter to the invariant only through the tokens they have found. -/
theorem Inv.calls {s : State} (h : Inv s) {calls : List Call}
    (hc : ∀ c ∈ calls, c ∈ s.calls ∨ ∀ token body, c = .found token body → token ∈ s.tokens) :
    Inv { s with calls } := by
  refine ⟨h.ids, h.origins, h.used, h.tenant, ?_⟩
  intro token body hm
  rcases hc _ hm with hold | hnew
  · exact h.found token body hold
  · exact ⟨token, hnew token body rfl, rfl, rfl⟩

theorem Inv.setCall {s : State} (h : Inv s) (i : Nat) {c : Call}
    (hc : ∀ token body, c ≠ .found token body) : Inv (s.setCall i c) := by
  apply h.calls
  intro d hd
  rcases List.mem_or_eq_of_mem_set hd with hd | rfl
  · exact .inl hd
  · exact .inr fun token body he => absurd he (hc token body)

theorem mint_inv {s : State} (h : Inv s) {tk : Token} (hf : ∀ u ∈ s.tokens, u.id ≠ tk.id)
    (hs : tk.status = .active) : Inv { s with tokens := s.tokens ++ [tk] } where
  ids := by
    rw [List.map_append, List.map_singleton, ← List.concat_eq_append, List.nodup_concat]
    refine ⟨?_, h.ids⟩
    rintro hm
    obtain ⟨u, hu, hid⟩ := List.mem_map.mp hm
    exact hf u hu hid
  origins := h.origins
  used := by
    intro u hu
    rcases List.mem_append.mp hu with hu | hu
    · exact h.used u hu
    · rw [List.mem_singleton.mp hu, hs]
      constructor
      · intro hne
        contradiction
      · rintro ⟨a, ha, ho⟩
        obtain ⟨u, hu, hid, _⟩ := h.tenant a ha
        exact absurd (hid.trans ho) (hf u hu)
  tenant := by
    intro a ha
    obtain ⟨u, hu, h12⟩ := h.tenant a ha
    exact ⟨u, List.mem_append_left _ hu, h12⟩
  found := by
    intro token body hc
    obtain ⟨u, hu, h12⟩ := h.found token body hc
    exact ⟨u, List.mem_append_left _ hu, h12⟩

/-- The transaction turns a claiming token, which has no agent, into a used one that has
this agent. -/
theorem create_inv {s : State} (h : Inv s) {agent : Agent} {token : Token}
    (htk : ∃ tk ∈ s.tokens, tk.id = token.id ∧ tk.status = .claiming)
    (ho : agent.origin = token.id) (hten : agent.tenantId = token.tenantId)
    (hfound : ∃ tk ∈ s.tokens, tk.id = token.id ∧ tk.tenantId = token.tenantId) :
    Inv ({ s with agents := s.agents ++ [agent] }.updateTokens (fun tk => tk.id = token.id)
      (Token.consume s.now agent.id)) := by
  obtain ⟨tk, hm, hid, hcl⟩ := htk
  have hnone : ∀ a ∈ s.agents, a.origin ≠ token.id := by
    intro a ha hoa
    have : tk.status = .used := (h.used tk hm).mpr ⟨a, ha, hoa.trans hid.symm⟩
    rw [hcl] at this
    contradiction
  have hkey : ∀ u : Token, (if decide (u.id = token.id) = true then u.consume s.now agent.id
      else u).id = u.id := by
    intro u
    split <;> rfl
  have hlift : ∀ id tenantId, (∃ u ∈ s.tokens, u.id = id ∧ u.tenantId = tenantId) →
      ∃ u ∈ ({ s with agents := s.agents ++ [agent] }.updateTokens (fun u => u.id = token.id)
        (Token.consume s.now agent.id)).tokens, u.id = id ∧ u.tenantId = tenantId := by
    rintro id tenantId ⟨u, hu, h1, h2⟩
    refine ⟨_, List.mem_map_of_mem hu, (hkey u).trans h1, ?_⟩
    split
    · exact h2
    · exact h2
  refine ⟨(map_key s.tokens hkey).symm ▸ h.ids, ?_, ?_, ?_, ?_⟩
  · change ((s.agents ++ [agent]).map Agent.origin).Nodup
    rw [List.map_append, List.map_singleton, ← List.concat_eq_append, List.nodup_concat]
    refine ⟨?_, h.origins⟩
    intro hm
    obtain ⟨a, ha, hoa⟩ := List.mem_map.mp hm
    exact hnone a ha (hoa.trans ho)
  · intro u' hu'
    obtain ⟨u, hu, rfl⟩ := List.mem_map.mp hu'
    dsimp only at hu' ⊢
    rw [hkey u]
    by_cases heq : u.id = token.id
    · simp only [heq, decide_true, if_true]
      exact ⟨fun _ => ⟨agent, List.mem_append_right _ (by simp), ho⟩, fun _ => rfl⟩
    · simp only [heq, decide_false, Bool.false_eq_true, if_false]
      rw [h.used u hu]
      constructor
      · rintro ⟨a, ha, hoa⟩
        exact ⟨a, List.mem_append_left _ ha, hoa⟩
      · rintro ⟨a, ha, hoa⟩
        rcases List.mem_append.mp ha with ha | ha
        · exact ⟨a, ha, hoa⟩
        · rw [List.mem_singleton.mp ha, ho] at hoa
          exact absurd hoa.symm heq
  · intro a ha
    rcases List.mem_append.mp ha with ha | ha
    · exact hlift _ _ (h.tenant a ha)
    · rw [List.mem_singleton.mp ha, ho, hten]
      exact hlift _ _ hfound
  · exact fun token' body hc => hlift _ _ (h.found token' body hc)

theorem step_inv {sha256 : String → String} (s : State) (a : Action) (t : State) (h : Inv s)
    (hs : step sha256 s a = some t) : Inv t := by
  cases step_effect hs with
  | quiet now jobs _ hc =>
    have hi : Inv { s with calls := _ } := h.calls fun c hm => (hc c hm).imp_right ?_
    · exact ⟨hi.ids, hi.origins, hi.used, hi.tenant, hi.found⟩
    · rintro hg token body rfl
      exact hg
  | mint hf hact =>
    refine (mint_inv h hf hact).setCall _ ?_
    simp
  | @claim body token tokenHash calls outcome hv he hash hc =>
    have hi : Inv (s.updateTokens (Token.claimable s.now tokenHash) Token.claim) := by
      apply h.updateTokens
      · exact fun _ => rfl
      · exact fun _ => rfl
      · intro tk hp
        simp only [Token.claimable, Bool.and_eq_true, decide_eq_true_eq] at hp
        simp [Token.claim, hp.1.2]
    apply hi.calls
    intro c hm
    rcases hc with rfl | ⟨rfl, _⟩
    · exact .inl hm
    · rcases List.mem_append.mp hm with hm | hm
      · exact .inl hm
      · rw [List.mem_singleton.mp hm]
        exact .inr fun token body he => by contradiction
  | create hcall hf htk hc =>
    have hfound := h.found _ _ (List.mem_of_getElem? hcall)
    refine (create_inv h htk rfl rfl hfound).setCall _ ?_
    intro token body he
    rcases hc with rfl | rfl <;> contradiction
  | rollback =>
    refine Inv.setCall (h.updateTokens ?_ ?_ ?_) _ ?_
    · exact fun _ => rfl
    · exact fun _ => rfl
    · intro tk hp
      simp only [Bool.decide_and, Bool.and_eq_true, decide_eq_true_eq] at hp
      simp [Token.reopen, hp.2]
    · simp
  | beat _ _ =>
    refine Inv.setCall (h.updateAgents ?_ ?_) _ ?_
    · exact fun _ => rfl
    · exact fun _ => rfl
    · simp
  | bridge =>
    apply h.updateAgents
    · exact fun _ => rfl
    · exact fun _ => rfl
  | @revoke i agentId outcome hcall =>
    have hi : Inv (s.updateAgents (fun a => a.id = agentId) Agent.revoke) := by
      apply h.updateAgents
      · exact fun _ => rfl
      · exact fun _ => rfl
    have hr := hi.setCall i (c := .ended) (by simp)
    exact ⟨hr.ids, hr.origins, hr.used, hr.tenant, hr.found⟩

theorem empty_inv (now : Int) : Inv { now } := by
  refine ⟨?_, ?_, ?_, ?_, ?_⟩ <;> simp

theorem claimable_iff {now : Int} {tokenHash : String} {tk : Token} :
    tk.claimable now tokenHash = true ↔
      tk.tokenHash = tokenHash ∧ tk.status = .active ∧ now < tk.expiresAt := by
  simp [Token.claimable, and_assoc]

theorem won_claim {sha256 : String → String} {s t : State} {body : EnrollmentBody}
    {outcome : Outcome} (hs : step sha256 s (.enroll body outcome) = some t)
    (hne : t.calls ≠ s.calls) : ∃ token, body.enrollmentToken = some token ∧ ∃ tk ∈ s.tokens,
      tk.tokenHash = hashEnrollmentToken sha256 token ∧ tk.status = .active ∧
      s.now < tk.expiresAt := by
  simp only [step] at hs
  split at hs
  · rename_i token he
    split at hs
    · cases hs
      refine ⟨token, he, ?_⟩
      unfold State.enroll at hne
      cases outcome with
      | aborted => exact absurd rfl hne
      | unanswered => exact absurd rfl hne
      | committed =>
        dsimp only at hne
        split at hne
        · rename_i hany
          obtain ⟨tk, htk, hc⟩ := List.any_eq_true.mp hany
          exact ⟨tk, htk, claimable_iff.mp hc⟩
        · exact absurd rfl hne
    · cases hs
      exact absurd rfl hne
  · cases hs
    exact absurd rfl hne

/-- Where rows keep their ids, a row of the new table is the old row of that id, rewritten. -/
theorem mem_map_row {s : State} (h : Inv s) {f : Token → Token} (hf : ∀ tk, (f tk).id = tk.id)
    {tk tk' : Token} (htk : tk ∈ s.tokens) (htk' : tk' ∈ s.tokens.map f) (hid : tk'.id = tk.id) :
    tk' = f tk := by
  obtain ⟨u, hu, rfl⟩ := List.mem_map.mp htk'
  rw [List.inj_on_of_nodup_map h.ids hu htk ((hf u).symm.trans hid)]

theorem newly_claiming {sha256 : String → String} {s t : State} {a : Action} (h : Inv s)
    (hs : step sha256 s a = some t) {tk tk' : Token} (htk : tk ∈ s.tokens) (htk' : tk' ∈ t.tokens)
    (hid : tk'.id = tk.id) (hne : tk.status ≠ .claiming) (hcl : tk'.status = .claiming) :
    tk.status = .active ∧ s.now < tk.expiresAt ∧ ∃ body outcome token, a = .enroll body outcome ∧
      body.enrollmentToken = some token ∧ tk.tokenHash = hashEnrollmentToken sha256 token := by
  have hsame : tk' ∈ s.tokens → False := by
    intro hm
    rw [List.inj_on_of_nodup_map h.ids hm htk hid] at hcl
    exact hne hcl
  cases step_effect hs with
  | quiet | beat | bridge | revoke => exact absurd htk' hsame
  | mint hf hact =>
    rcases List.mem_append.mp htk' with hm | hm
    · exact absurd hm hsame
    · rw [List.mem_singleton.mp hm, hact] at hcl
      contradiction
  | @claim body token tokenHash calls outcome hv he hash hc =>
    rw [mem_map_row h (by intro u; split <;> rfl) htk htk' hid] at hcl
    split at hcl
    · rename_i hp
      obtain ⟨hh, hact, hexp⟩ := claimable_iff.mp hp
      exact ⟨hact, hexp, body, outcome, token, rfl, he, hh.trans hash.symm⟩
    · exact absurd hcl hne
  | create | rollback =>
    rw [mem_map_row h (by intro u; split <;> rfl) htk htk' hid] at hcl
    split at hcl
    · contradiction
    · exact absurd hcl hne

/-- Whatever calls race, fail, crash or lose their answers: a claim is won only on an active
unexpired token, and every token has at most one agent, of its own tenant, which is there
exactly when the token is used. -/
theorem one_agent_per_token (sha256 : String → String) (now : Int) (as : List Action) :
    Always (step sha256) (fun s => (∀ tk ∈ s.tokens, tk.Safe s) ∧ FairClaims sha256 s)
      { now } as := by
  apply (always_of_inv step_inv (empty_inv now)).mono
  intro s h
  refine ⟨fun tk htk => h.safe htk, ?_, ?_⟩
  · exact fun body outcome t hs hne => won_claim hs hne
  · exact fun a t hs tk htk tk' htk' hid hne hcl => newly_claiming h hs htk htk' hid hne hcl

end WaOps.Gateway
