import WaOps.Gateway.Enrollment
import WaOps.Gateway.Revocation
import WaOps.Lib.Zod

namespace WaOps.Gateway
open Lib Lib.Runs

inductive LookupError where
  | inconsistentColumnData
  deriving DecidableEq, Repr

section
variable (parseUuid : String → Option String) (sha256 : String → String)

/-- The ids are a uuid column: a text names an id in every spelling that the database client reads
as it, and makes the lookup throw where it is no uuid. -/
def authenticateAgentByUuid (agents : List Agent) (header : Option String) :
    Except LookupError (Option AgentIdentity) :=
  match parseCredentialHeader header with
  | none => .ok none
  | some (agentId, secret) =>
    match parseUuid agentId with
    | none => .error .inconsistentColumnData
    | some id =>
      match agents.find? (fun a => a.id = id) with
      | none => .ok none
      | some agent =>
        if agent.status = .revoked then .ok none
        else if agent.credentialHash = some (hashAgentCredential sha256 agent.id secret) then
          .ok (some { agentId := agent.id, tenantId := agent.tenantId })
        else .ok none

/-- An id in its own spelling is looked up as the text it is. -/
theorem authenticate_own_spelling {agents : List Agent} {header : Option String}
    (h : ∀ x secret, parseCredentialHeader header = some (x, secret) → parseUuid x = some x) :
    authenticateAgentByUuid parseUuid sha256 agents header =
      .ok (authenticateAgent sha256 agents header) := by
  unfold authenticateAgentByUuid authenticateAgent
  cases hparse : parseCredentialHeader header with
  | none => rfl
  | some parsed =>
    obtain ⟨x, secret⟩ := parsed
    simp only [h x secret hparse]
    cases agents.find? (fun a => a.id = x) with
    | none => rfl
    | some agent =>
      dsimp only
      split
      · rfl
      · split <;> rfl

/-- The gateway with the credentials it has made, an id and a secret each. -/
structure Registry where
  state : State := {}
  issued : List (String × String) := []
  deriving DecidableEq, Repr

def newCredentials (s t : State) : Action → List (String × String)
  | .create _ id secret _ => if t.agents.length = s.agents.length then [] else [(id, secret)]
  | _ => []

def registryStep (r : Registry) (a : Action) : Option Registry :=
  (step sha256 r.state a).map fun t =>
    { state := t, issued := r.issued ++ newCredentials r.state t a }

/-- `randomBytes(32).toString('hex')` -/
def Hex (text : String) : Prop :=
  text ≠ "" ∧ ∀ c ∈ text.toList, c.isDigit ∨ 'a' ≤ c ∧ c ≤ 'f'

/-- What an enrollment generates: an id as the column shows it and a secret in hex. -/
def Genuine (_ : Registry) : Action → Prop
  | .create _ id secret _ => parseUuid id = some id ∧ Hex secret
  | _ => True

/-- What is relied on of the texts of uuids. -/
structure UuidTexts : Prop where
  plain : ∀ x id, parseUuid x = some id → '_' ∉ x.toList
  nonempty : parseUuid "" = none

/-- The header carries the credential issued to the agent, whose id may be spelt another way. -/
def Carries (issued : List (String × String)) (header : Option String) (agentId : String) : Prop :=
  ∃ raw x secret, header = some ("Bearer " ++ raw) ∧
    Js.trim raw.toList = ("waops_" ++ x ++ "_" ++ secret).toList ∧
    parseUuid x = some agentId ∧ (agentId, secret) ∈ issued

/-- The agent is not revoked and its token is the tenant's. -/
def Live (s : State) (identity : AgentIdentity) : Prop :=
  ∃ a ∈ s.agents, a.id = identity.agentId ∧ a.status ≠ .revoked ∧
    ∃ tk ∈ s.tokens, tk.id = a.origin ∧ tk.tenantId = identity.tenantId

/-- Where the header parses, the id it names is a uuid. -/
def Readable (header : Option String) : Prop :=
  ∀ x secret, parseCredentialHeader header = some (x, secret) → parseUuid x ≠ none

structure AuthenticatesIssued (r : Registry) : Prop where
  identity : ∀ header identity,
    authenticateAgentByUuid parseUuid sha256 r.state.agents header = .ok (some identity) ↔
      Carries parseUuid r.issued header identity.agentId ∧ Live r.state identity
  other : ∀ header, Readable parseUuid header →
    (∀ identity, ¬ (Carries parseUuid r.issued header identity.agentId ∧ Live r.state identity)) →
    authenticateAgentByUuid parseUuid sha256 r.state.agents header = .ok none

end

structure Registered (parseUuid : String → Option String) (sha256 : String → String)
    (r : Registry) : Prop where
  base : Inv r.state
  ids : (r.state.agents.map Agent.id).Nodup
  rows : r.state.agents.map (fun a => (a.id, a.credentialHash)) =
    r.issued.map (fun c => (c.1, some (hashAgentCredential sha256 c.1 c.2)))
  hex : ∀ c ∈ r.issued, Hex c.2

section
variable {parseUuid : String → Option String} {sha256 : String → String} {header : Option String}
  {x secret : String}

theorem parse_iff : parseCredentialHeader header = some (x, secret) ↔
    ∃ raw, header = some ("Bearer " ++ raw) ∧
      Js.trim raw.toList = ("waops_" ++ x ++ "_" ++ secret).toList ∧ '_' ∉ x.toList ∧
      '_' ∉ secret.toList ∧ x ≠ "" ∧ secret ≠ "" := by
  have hscheme : '_' ∉ "waops".toList := by decide
  have htext : ("waops_" ++ x ++ "_" ++ secret).toList =
      "waops".toList ++ '_' :: (x.toList ++ '_' :: secret.toList) := by
    simp [String.toList_append]
  rw [htext]
  unfold parseCredentialHeader
  constructor
  · intro h
    split at h
    · cases h
    · rename_i raw hraw
      split at h
      · rename_i scheme agentId secret' hsplit
        split at h
        · rename_i hparts
          obtain ⟨rfl, hid, hsecret⟩ := hparts
          cases h
          obtain ⟨text, rfl, hafter⟩ := Option.bind_eq_some_iff.mp hraw
          obtain ⟨htrim, -, hplain, hplain'⟩ := Js.split_three.mp hsplit
          have htext : text = "Bearer " ++ String.ofList raw := by
            rw [← String.toList_inj, Js.after_iff.mp hafter, String.toList_append,
              String.toList_ofList (l := raw)]
          refine ⟨String.ofList raw, by rw [htext], ?_, ?_, ?_, ?_, ?_⟩
          · simpa only [String.toList_ofList] using htrim
          · simpa only [String.toList_ofList] using hplain
          · simpa only [String.toList_ofList] using hplain'
          · simpa using hid
          · simpa using hsecret
        · cases h
      · cases h
  · intro ⟨raw, hheader, htrim, hplain, hplain', hid, hsecret⟩
    have hafter : header.bind (Js.after "Bearer ") = some raw.toList := by
      rw [hheader, Option.bind_some, Js.after_iff, String.toList_append]
    have hsplit := Js.split_three.mpr ⟨htrim, hscheme, hplain, hplain'⟩
    simp [hafter, hsplit, hid, hsecret]

theorem Hex.plain {text : String} (h : Hex text) : '_' ∉ text.toList := by
  intro hm
  exact absurd (h.2 '_' hm) (by decide)

/-- One secret is behind the digest for an id. -/
theorem hash_inj (hsha : Function.Injective sha256) {id s s' : String}
    (h : hashAgentCredential sha256 id s = hashAgentCredential sha256 id s') : s = s' := by
  have htext := hsha h
  rw [← String.toList_inj] at htext ⊢
  simpa only [String.toList_append, List.append_cancel_left_eq] using htext

/-- All an authentication that succeeds has found. -/
theorem authenticate_iff {agents : List Agent} {identity : AgentIdentity} :
    authenticateAgentByUuid parseUuid sha256 agents header = .ok (some identity) ↔
      ∃ x secret agent, parseCredentialHeader header = some (x, secret) ∧
        parseUuid x = some identity.agentId ∧
        agents.find? (fun a => a.id = identity.agentId) = some agent ∧ agent.status ≠ .revoked ∧
        agent.credentialHash = some (hashAgentCredential sha256 agent.id secret) ∧
        agent.tenantId = identity.tenantId := by
  unfold authenticateAgentByUuid
  constructor
  · intro h
    split at h
    · cases h
    · rename_i x secret hparse
      split at h
      · cases h
      · rename_i id hid
        split at h
        · cases h
        · rename_i agent hfind
          have hagent : agent.id = id := by simpa using List.find?_some hfind
          split at h
          · cases h
          · rename_i hlive
            split at h
            · rename_i hhash
              cases h
              subst hagent
              exact ⟨x, secret, agent, hparse, hid, hfind, hlive, hhash, rfl⟩
            · cases h
  · intro ⟨x, secret, agent, hparse, hid, hfind, hlive, hhash, htenant⟩
    have hagent : agent.id = identity.agentId := by simpa using List.find?_some hfind
    simp [hparse, hid, hfind, hlive, hhash, htenant, hagent]

variable {r : Registry}

theorem Registered.row_of_issued (h : Registered parseUuid sha256 r) {id : String}
    (hm : (id, secret) ∈ r.issued) : ∃ a ∈ r.state.agents, a.id = id ∧
      a.credentialHash = some (hashAgentCredential sha256 id secret) := by
  have hrow := List.mem_map_of_mem
    (f := fun c : String × String => (c.1, some (hashAgentCredential sha256 c.1 c.2))) hm
  rw [← h.rows] at hrow
  obtain ⟨a, ha, hpair⟩ := List.mem_map.mp hrow
  exact ⟨a, ha, congrArg Prod.fst hpair, congrArg Prod.snd hpair⟩

theorem Registered.issued_of_row (h : Registered parseUuid sha256 r)
    (hsha : Function.Injective sha256) {a : Agent} (ha : a ∈ r.state.agents)
    (hhash : a.credentialHash = some (hashAgentCredential sha256 a.id secret)) :
    (a.id, secret) ∈ r.issued := by
  have hrow := List.mem_map_of_mem (f := fun a : Agent => (a.id, a.credentialHash)) ha
  rw [h.rows, hhash] at hrow
  obtain ⟨⟨id, secret'⟩, hm, hpair⟩ := List.mem_map.mp hrow
  cases congrArg Prod.fst hpair
  have hsame := Option.some.inj (congrArg Prod.snd hpair)
  rw [← hash_inj hsha hsame]
  exact hm

theorem Registered.authenticates (h : Registered parseUuid sha256 r)
    (hsha : Function.Injective sha256) (huuid : UuidTexts parseUuid) (identity : AgentIdentity) :
    authenticateAgentByUuid parseUuid sha256 r.state.agents header = .ok (some identity) ↔
      Carries parseUuid r.issued header identity.agentId ∧ Live r.state identity := by
  rw [authenticate_iff]
  constructor
  · intro ⟨x, secret, agent, hparse, hid, hfind, hlive, hhash, htenant⟩
    have hm := List.mem_of_find?_eq_some hfind
    have hagent : agent.id = identity.agentId := by simpa using List.find?_some hfind
    obtain ⟨raw, hheader, htrim, -⟩ := parse_iff.mp hparse
    have hissued := h.issued_of_row hsha hm hhash
    rw [hagent] at hissued
    obtain ⟨tk, htk, horigin, hten⟩ := h.base.tenant agent hm
    exact ⟨⟨raw, x, secret, hheader, htrim, hid, hissued⟩,
      agent, hm, hagent, hlive, tk, htk, horigin, hten.trans htenant⟩
  · rintro ⟨⟨raw, x, secret, hheader, htrim, hid, hissued⟩, a, ha, haid, hlive, tk, htk, horigin,
      hten⟩
    have hx : x ≠ "" := by
      rintro rfl
      rw [huuid.nonempty] at hid
      cases hid
    have hhex := h.hex _ hissued
    have hparse := parse_iff.mpr
      ⟨raw, hheader, htrim, huuid.plain x _ hid, hhex.plain, hx, hhex.1⟩
    obtain ⟨b, hb, hbid, hhash⟩ := h.row_of_issued hissued
    have hsame : b = a := List.inj_on_of_nodup_map h.ids hb ha (hbid.trans haid.symm)
    subst hsame
    obtain ⟨tk', htk', horigin', hten'⟩ := h.base.tenant b hb
    have htoken : tk' = tk :=
      List.inj_on_of_nodup_map h.base.ids htk' htk (horigin'.trans horigin.symm)
    subst htoken
    have hfind : r.state.agents.find? (fun a => a.id = identity.agentId) = some b := by
      cases hf : r.state.agents.find? (fun a => a.id = identity.agentId) with
      | none => simpa [hbid] using List.find?_eq_none.mp hf b hb
      | some c =>
        have hcid : c.id = identity.agentId := by simpa using List.find?_some hf
        rw [List.inj_on_of_nodup_map h.ids (List.mem_of_find?_eq_some hf) hb
          (hcid.trans hbid.symm)]
    exact ⟨x, secret, b, hparse, hid, hfind, hlive, by rw [hbid]; exact hhash,
      hten'.symm.trans hten⟩

/-- An authentication of a readable header that finds nobody answers null. -/
theorem authenticate_readable {agents : List Agent} (h : Readable parseUuid header)
    (hnone : ∀ identity,
      authenticateAgentByUuid parseUuid sha256 agents header ≠ .ok (some identity)) :
    authenticateAgentByUuid parseUuid sha256 agents header = .ok none := by
  cases hauth : authenticateAgentByUuid parseUuid sha256 agents header with
  | error e =>
    unfold authenticateAgentByUuid at hauth
    split at hauth
    · cases hauth
    · rename_i x secret hparse
      split at hauth
      · rename_i hid
        exact absurd hid (h x secret hparse)
      · split at hauth
        · cases hauth
        · split at hauth
          · cases hauth
          · split at hauth <;> cases hauth
  | ok found =>
    cases found with
    | none => rfl
    | some identity => exact absurd hauth (hnone identity)

theorem Registered.law (h : Registered parseUuid sha256 r) (hsha : Function.Injective sha256)
    (huuid : UuidTexts parseUuid) : AuthenticatesIssued parseUuid sha256 r where
  identity header identity := h.authenticates hsha huuid identity
  other header hreadable hnone := by
    apply authenticate_readable hreadable
    intro identity hauth
    exact hnone identity ((h.authenticates hsha huuid identity).mp hauth)

theorem updateAgents_rows {s : State} {p : Agent → Bool} {f : Agent → Agent}
    (hid : ∀ a, (f a).id = a.id) (hhash : ∀ a, (f a).credentialHash = a.credentialHash) :
    (s.updateAgents p f).agents.map (fun a => (a.id, a.credentialHash)) =
      s.agents.map (fun a => (a.id, a.credentialHash)) := by
  simp only [State.updateAgents, List.map_map]
  apply List.map_congr_left
  intro a _
  simp only [Function.comp_apply]
  split
  · rw [hid, hhash]
  · rfl

/-- A step leaves the ids and digests of the agents or adds one agent, whose credential is the
new one. -/
theorem step_rows {s t : State} {a : Action} (hs : step sha256 s a = some t) :
    t.agents.map (fun a => (a.id, a.credentialHash)) =
        s.agents.map (fun a => (a.id, a.credentialHash)) ∧ newCredentials s t a = [] ∨
      ∃ i id secret outcome, a = .create i id secret outcome ∧ (∀ b ∈ s.agents, b.id ≠ id) ∧
        t.agents.map (fun a => (a.id, a.credentialHash)) =
          s.agents.map (fun a => (a.id, a.credentialHash)) ++
            [(id, some (hashAgentCredential sha256 id secret))] ∧
        newCredentials s t a = [(id, secret)] := by
  have hquiet : ∀ {u : State}, u.agents.length = s.agents.length → newCredentials s u a = [] := by
    intro u hlen
    unfold newCredentials
    split
    · rw [if_pos hlen]
    · rfl
  cases step_effect hs with
  | quiet | mint | claim | rollback => exact .inl ⟨rfl, hquiet rfl⟩
  | beat | bridge | revoke =>
    refine .inl ⟨updateAgents_rows (fun _ => rfl) (fun _ => rfl), hquiet ?_⟩
    simp [State.updateAgents, State.setCall]
  | @create i agentId c secret outcome token body hcall hf htk hc =>
    refine .inr ⟨i, agentId, secret, outcome, rfl, hf, ?_, ?_⟩
    · simp [State.updateTokens, State.setCall, newAgent]
    · simp [newCredentials, State.updateTokens, State.setCall]

theorem step_registered (r : Registry) (a : Action) (u : Registry)
    (h : Registered parseUuid sha256 r) (hg : Genuine parseUuid r a)
    (hs : registryStep sha256 r a = some u) : Registered parseUuid sha256 u := by
  obtain ⟨t, ht, rfl⟩ := Option.map_eq_some_iff.mp hs
  have hbase := step_inv r.state a t h.base ht
  rcases step_rows ht with ⟨hrows, hnew⟩ | ⟨i, id, secret, outcome, rfl, hf, hrows, hnew⟩
  · have hids : t.agents.map Agent.id = r.state.agents.map Agent.id := by
      simpa [Function.comp_def] using congrArg (List.map Prod.fst) hrows
    refine ⟨hbase, by rw [hids]; exact h.ids, ?_, ?_⟩
    · rw [hrows, hnew, List.append_nil]
      exact h.rows
    · rw [hnew, List.append_nil]
      exact h.hex
  · have hids : t.agents.map Agent.id = r.state.agents.map Agent.id ++ [id] := by
      simpa [Function.comp_def] using congrArg (List.map Prod.fst) hrows
    refine ⟨hbase, ?_, ?_, ?_⟩
    · rw [hids, ← List.concat_eq_append, List.nodup_concat]
      refine ⟨?_, h.ids⟩
      intro hm
      obtain ⟨b, hb, hbid⟩ := List.mem_map.mp hm
      exact hf b hb hbid
    · rw [hrows, hnew, h.rows, List.map_append]
      rfl
    · intro c hc
      rw [hnew] at hc
      rcases List.mem_append.mp hc with hc | hc
      · exact h.hex c hc
      · rw [List.mem_singleton.mp hc]
        exact hg.2

theorem empty_registered (now : Int) :
    Registered parseUuid sha256 { state := { now } } := by
  refine ⟨empty_inv now, ?_, ?_, ?_⟩ <;> simp

end

/-- In every run of the gateway the headers that authenticate are those that carry the credential
issued to an agent that is not revoked, and they authenticate as that agent for its token's
tenant. -/
theorem authenticates_issued (parseUuid : String → Option String) (sha256 : String → String)
    (now : Int) (as : List Action)
    (hsha : Function.Injective sha256) (huuid : UuidTexts parseUuid)
    (hgenuine : Meets (registryStep sha256) (Genuine parseUuid) { state := { now } } as) :
    Always (registryStep sha256) (AuthenticatesIssued parseUuid sha256) { state := { now } } as :=
  (always_of_meets step_registered (empty_registered now) hgenuine).mono
    fun _ h => h.law hsha huuid

/-- Reads the hyphenated spelling of a uuid in either case. -/
def hyphenated (text : String) : Option String :=
  if Zod.isUuid text then some (String.ofList (text.toList.map Char.toLower)) else none

theorem hyphenated_texts : UuidTexts hyphenated where
  plain x id h := by
    unfold hyphenated at h
    split at h
    · rename_i hx
      intro hm
      simp only [Zod.isUuid, Bool.and_eq_true, List.all_eq_true] at hx
      have hgroup : '_' = '-' ∨ ∃ part ∈ Js.split '-' x.toList, '_' ∈ part := Js.mem_split hm
      rcases hgroup with hsep | ⟨part, hpart, hc⟩
      · exact absurd hsep (by decide)
      · exact absurd (hx.2 part hpart '_' hc) (by decide)
    · cases h
  nonempty := by decide

def agentOne : String := "0c5e3f0a-0000-4000-8000-00000000000b"

def secretOne : String := "0a1b2c3d0a1b2c3d0a1b2c3d0a1b2c3d0a1b2c3d0a1b2c3d0a1b2c3d0a1b2c3d"

def enrolled : List Action :=
  [.createToken "t" none, .mint 0 "k1" "enr_0123456789ab",
   .enroll { enrollmentToken := some "enr_0123456789ab" } .committed, .find 1 true,
   .create 1 agentOne secretOne .committed]

instance Hex.decidable (text : String) : Decidable (Hex text) :=
  have := List.decidableBAll (fun c : Char => c.isDigit ∨ 'a' ≤ c ∧ c ≤ 'f') text.toList
  inferInstanceAs (Decidable (_ ∧ _))

instance Genuine.decidable (parseUuid : String → Option String) (r : Registry) :
    ∀ a, Decidable (Genuine parseUuid r a)
  | .create _ id secret _ => inferInstanceAs (Decidable (parseUuid id = some id ∧ Hex secret))
  | .tick _ | .createToken _ _ | .mint _ _ _ | .enroll _ _ | .find _ _ | .rollback _ _ | .crash _
  | .heartbeat _ _ _ | .beat _ _ | .metrics _ _ _ _ | .addJob _ | .bridge _ _ _ | .revoke _ _
  | .commitRevoke _ _ => isTrue trivial

theorem enrolled_authenticates_issued :
    Always (registryStep digest) (AuthenticatesIssued hyphenated digest) {} enrolled :=
  authenticates_issued hyphenated digest 0 enrolled (fun _ _ h => h) hyphenated_texts (by decide)

/-- The text after the scheme is the credential as it was issued, and every other header is
answered with null. -/
structure AuthenticatesAsIssued (parseUuid : String → Option String) (sha256 : String → String)
    (r : Registry) : Prop where
  identity : ∀ header identity,
    authenticateAgentByUuid parseUuid sha256 r.state.agents header = .ok (some identity) ↔
      (∃ raw secret, header = some ("Bearer " ++ raw) ∧
        Js.trim raw.toList = ("waops_" ++ identity.agentId ++ "_" ++ secret).toList ∧
        (identity.agentId, secret) ∈ r.issued) ∧ Live r.state identity
  other : ∀ header, (∀ identity,
      authenticateAgentByUuid parseUuid sha256 r.state.agents header ≠ .ok (some identity)) →
    authenticateAgentByUuid parseUuid sha256 r.state.agents header = .ok none

/-- The credential with the agent's id in capitals. -/
def capitals : String :=
  "Bearer waops_0C5E3F0A-0000-4000-8000-00000000000B_" ++ secretOne

def identityOne : AgentIdentity := { agentId := agentOne, tenantId := "t" }

/-- Another spelling of the id authenticates, and a text that is no uuid makes the lookup throw. -/
theorem capitals_authenticate : ∃ r, exec (registryStep digest) {} enrolled = some r ∧
    authenticateAgentByUuid hyphenated digest r.state.agents (some capitals) =
      .ok (some identityOne) ∧
    authenticateAgentByUuid hyphenated digest r.state.agents (some "Bearer waops_web1_0a1b") =
      .error .inconsistentColumnData ∧
    ¬ AuthenticatesAsIssued hyphenated digest r := by
  have hrun : ∃ r, exec (registryStep digest) {} enrolled = some r ∧
      authenticateAgentByUuid hyphenated digest r.state.agents (some capitals) =
        .ok (some identityOne) ∧
      authenticateAgentByUuid hyphenated digest r.state.agents (some "Bearer waops_web1_0a1b") =
        .error .inconsistentColumnData ∧ r.issued = [(agentOne, secretOne)] :=
    ⟨_, (Option.some_get (by decide)).symm, by decide +kernel, by decide +kernel, by decide⟩
  obtain ⟨r, hexec, hauth, hthrown, hissued⟩ := hrun
  refine ⟨r, hexec, hauth, hthrown, ?_⟩
  intro h
  obtain ⟨⟨raw, secret, hheader, htrim, hm⟩, -⟩ := (h.identity _ _).mp hauth
  rw [hissued, List.mem_singleton, Prod.mk.injEq] at hm
  have hraw : raw.toList = capitals.toList.drop 7 := by
    have htext := congrArg String.toList (Option.some.inj hheader)
    rw [String.toList_append] at htext
    rw [htext]
    rfl
  rw [hraw, hm.2] at htrim
  exact absurd htrim (by decide +kernel)

end WaOps.Gateway
