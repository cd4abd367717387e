import WaOps.Lib.Js
import WaOps.Lib.Runs

namespace WaOps.Gateway
open Lib

inductive TokenStatus where
  | active | claiming | used
  deriving DecidableEq, Repr

structure Token where
  id : String
  tokenHash : String
  tenantId : String
  status : TokenStatus := .active
  agentId : Option String := none
  expiresAt : Int
  usedAt : Option Int := none
  deriving DecidableEq, Repr

inductive AgentStatus where
  | pending | online | revoked
  deriving DecidableEq, Repr

structure Agent where
  id : String
  tenantId : String
  hostId : Option String := none
  machineId : Option String := none
  name : String
  version : Option String
  protocolVersion : Nat
  status : AgentStatus
  lastSeenAt : Option Int := none
  credentialHash : Option String
  capabilities : List String
  /-- History: the token the agent was created from. -/
  origin : String
  deriving DecidableEq, Repr

structure EnrollmentBody where
  enrollmentToken : Option String
  name : Option String := none
  version : Option String := none
  capabilities : Option (List String) := none
  deriving DecidableEq, Repr

/-- What the heartbeat handler reads of a parsed body. -/
structure Heartbeat where
  agentVersion : String
  protocolVersion : Nat := 1
  machineId : Option String := none
  deriving DecidableEq, Repr

structure AgentIdentity where
  agentId : String
  tenantId : String
  deriving DecidableEq, Repr

/-- Where a call stands between two of its statements. -/
inductive Call where
  | minting (tenantId : String) (ttlMinutes : Nat)
  | claimed (tokenHash : String) (body : EnrollmentBody)
  | found (token : Token) (body : EnrollmentBody)
  /-- In the catch block, before its updateMany. -/
  | failed (tokenHash : String)
  | heartbeat (identity : AgentIdentity) (parsed : Heartbeat)
  | metrics (identity : AgentIdentity)
  | revoking (agentId : String)
  | ended
  deriving DecidableEq, Repr

/-- Every database statement is one step; calls interleave between their statements. -/
structure State where
  now : Int := 0
  tokens : List Token := []
  agents : List Agent := []
  calls : List Call := []
  /-- The agents named in the jobs of ingest.metrics. -/
  jobs : List AgentIdentity := []
  /-- History: the agents whose revoke has committed. -/
  revoked : List String := []
  deriving DecidableEq, Repr

/-- How a statement ends for its caller: an error may hide a commit. -/
inductive Outcome where
  | committed | aborted | unanswered
  deriving DecidableEq, Repr

section Auth
variable (sha256 : String → String)

def hashAgentCredential (agentId secret : String) : String :=
  sha256 (agentId ++ ":" ++ secret)

def hashEnrollmentToken (token : String) : String :=
  sha256 token

def parseCredentialHeader (header : Option String) : Option (String × String) :=
  match header.bind (Js.after "Bearer ") with
  | none => none
  | some raw =>
    match Js.split '_' (Js.trim raw) with
    | [scheme, agentId, secret] =>
      if scheme = "waops".toList ∧ agentId ≠ [] ∧ secret ≠ [] then
        some (String.ofList agentId, String.ofList secret)
      else none
    | _ => none

/-- Digests are compared as the hex texts they are stored as. -/
def authenticateAgent (agents : List Agent) (header : Option String) : Option AgentIdentity :=
  match parseCredentialHeader header with
  | none => none
  | some (agentId, secret) =>
    match agents.find? (fun a => a.id = agentId) with
    | none => none
    | some agent =>
      if agent.status = .revoked then none
      else if agent.credentialHash = some (hashAgentCredential sha256 agent.id secret) then
        some { agentId := agent.id, tenantId := agent.tenantId }
      else none

end Auth

def maxPendingTokensPerTenant : Nat := 20

def validToken (token : String) : Bool :=
  16 ≤ Js.length token && Js.length token ≤ 256

def Token.claimable (now : Int) (tokenHash : String) (tk : Token) : Bool :=
  tk.tokenHash = tokenHash && tk.status = .active && now < tk.expiresAt

def Token.claim (tk : Token) : Token := { tk with status := .claiming }

def Token.reopen (tk : Token) : Token := { tk with status := .active }

def Token.consume (now : Int) (agentId : String) (tk : Token) : Token :=
  { tk with status := .used, usedAt := some now, agentId := some agentId }

def State.setCall (s : State) (i : Nat) (c : Call) : State :=
  { s with calls := s.calls.set i c }

def State.addCall (s : State) (c : Call) : State :=
  { s with calls := s.calls ++ [c] }

/-- agent.updateMany, or agent.update where the row exists. -/
def State.updateAgents (s : State) (p : Agent → Bool) (f : Agent → Agent) : State :=
  { s with agents := s.agents.map (fun a => if p a then f a else a) }

def State.updateTokens (s : State) (p : Token → Bool) (f : Token → Token) : State :=
  { s with tokens := s.tokens.map (fun tk => if p tk then f tk else tk) }

def State.pending (s : State) (tenantId : String) : Nat :=
  s.tokens.countP (fun tk => tk.tenantId = tenantId ∧ (tk.status = .active ∨ tk.status = .claiming))

/-- The claim; an answer that is lost fails the call outside its try block. -/
def State.enroll (s : State) (tokenHash : String) (body : EnrollmentBody)
    (outcome : Outcome) : State :=
  let claimed := s.updateTokens (Token.claimable s.now tokenHash) Token.claim
  match outcome with
  | .aborted => s
  | .unanswered => claimed
  | .committed =>
    if s.tokens.any (Token.claimable s.now tokenHash) then claimed.addCall (.claimed tokenHash body)
    else s

def newAgent (sha256 : String → String) (token : Token) (body : EnrollmentBody)
    (id secret : String) : Agent :=
  { id
    tenantId := token.tenantId
    name := body.name.getD "waagent"
    version := body.version
    protocolVersion := 1
    status := .online
    capabilities := body.capabilities.getD []
    credentialHash := some (hashAgentCredential sha256 id secret)
    origin := token.id }

/-- The transaction of the enrollment: all of it, or none where a statement of it throws. -/
def State.create (s : State) (agent : Agent) (token : Token) : Option State :=
  if s.agents.any (fun a => a.id = agent.id) then none
  else if s.tokens.any (fun tk => tk.id = token.id ∧ tk.status = .claiming) then
    some ({ s with agents := s.agents ++ [agent] }.updateTokens (fun tk => tk.id = token.id)
      (Token.consume s.now agent.id))
  else none

def Agent.beat (now : Int) (parsed : Heartbeat) (a : Agent) : Agent :=
  { a with
    lastSeenAt := some now
    status := .online
    version := some parsed.agentVersion
    protocolVersion := parsed.protocolVersion
    machineId :=
      match parsed.machineId with
      | some m => if 8 ≤ Js.length m ∧ Js.length m ≤ 128 then some m else a.machineId
      | none => a.machineId }

def Agent.bridge (hostId machineId : String) (a : Agent) : Agent :=
  { a with hostId := some hostId, machineId := some machineId }

def Agent.revoke (a : Agent) : Agent := { a with status := .revoked }

inductive Action where
  | tick (ms : Nat)
  /-- createToken up to its quota count. -/
  | createToken (tenantId : String) (ttlMinutes : Option Nat)
  | mint (i : Nat) (id token : String)
  | enroll (body : EnrollmentBody) (outcome : Outcome)
  | find (i : Nat) (ok : Bool)
  | create (i : Nat) (id secret : String) (outcome : Outcome)
  | rollback (i : Nat) (outcome : Outcome)
  /-- The process that serves the call dies. -/
  | crash (i : Nat)
  | heartbeat (header : Option String) (rateLimited : Bool) (parsed : Option Heartbeat)
  | beat (i : Nat) (outcome : Outcome)
  | metrics (header : Option String) (rateLimited parsed ownId : Bool)
  | addJob (i : Nat)
  /-- The worker's agent update for one machine id of a job. -/
  | bridge (i : Nat) (hostId machineId : String)
  /-- An operator's revoke up to its findFirst. -/
  | revoke (tenantId id : String)
  | commitRevoke (i : Nat) (outcome : Outcome)
  deriving DecidableEq, Repr

variable (sha256 : String → String)

def step (s : State) : Action → Option State
  | .tick ms => some { s with now := s.now + ms }
  | .createToken tenantId ttlMinutes =>
    let ttl := ttlMinutes.getD 15
    if ttl < 1 ∨ 60 < ttl then some s
    else if s.pending tenantId ≥ maxPendingTokensPerTenant then some s
    else some (s.addCall (.minting tenantId ttl))
  | .mint i id token =>
    match s.calls[i]? with
    | some (.minting tenantId ttl) =>
      let tokenHash := hashEnrollmentToken sha256 token
      if s.tokens.any (fun tk => tk.id = id ∨ tk.tokenHash = tokenHash) then
        some (s.setCall i .ended)
      else
        let tk := { id, tokenHash, tenantId, expiresAt := s.now + ttl * 60000 }
        some ({ s with tokens := s.tokens ++ [tk] }.setCall i .ended)
    | _ => none
  | .enroll body outcome =>
    match body.enrollmentToken with
    | some token =>
      if validToken token then some (s.enroll (hashEnrollmentToken sha256 token) body outcome)
      else some s
    | none => some s
  | .find i ok =>
    match s.calls[i]? with
    | some (.claimed tokenHash body) =>
      match if ok then s.tokens.find? (fun tk => tk.tokenHash = tokenHash) else none with
      | some tk => some (s.setCall i (.found tk body))
      | none => some (s.setCall i (.failed tokenHash))
    | _ => none
  | .create i id secret outcome =>
    match s.calls[i]? with
    | some (.found token body) =>
      match outcome, s.create (newAgent sha256 token body id secret) token with
      | .committed, some t => some (t.setCall i .ended)
      | .unanswered, some t => some (t.setCall i (.failed token.tokenHash))
      | _, _ => some (s.setCall i (.failed token.tokenHash))
    | _ => none
  | .rollback i outcome =>
    match s.calls[i]? with
    | some (.failed tokenHash) =>
      match outcome with
      | .aborted => some (s.setCall i .ended)
      | _ => some ((s.updateTokens (fun tk => tk.tokenHash = tokenHash ∧ tk.status = .claiming)
          Token.reopen).setCall i .ended)
    | _ => none
  | .crash i => some (s.setCall i .ended)
  | .heartbeat header rateLimited parsed =>
    match authenticateAgent sha256 s.agents header with
    | none => some s
    | some identity =>
      match if rateLimited then none else parsed with
      | some parsed => some (s.addCall (.heartbeat identity parsed))
      | none => some s
  | .beat i outcome =>
    match s.calls[i]? with
    | some (.heartbeat identity parsed) =>
      match outcome with
      | .aborted => some (s.setCall i .ended)
      | _ => some ((s.updateAgents (fun a => a.id = identity.agentId)
          (Agent.beat s.now parsed)).setCall i .ended)
    | _ => none
  | .metrics header rateLimited parsed ownId =>
    match authenticateAgent sha256 s.agents header with
    | none => some s
    | some identity =>
      if rateLimited || !parsed || !ownId then some s else some (s.addCall (.metrics identity))
  | .addJob i =>
    match s.calls[i]? with
    | some (.metrics identity) =>
      some ({ s with jobs := s.jobs ++ [identity] }.setCall i .ended)
    | _ => none
  | .bridge i hostId machineId =>
    match s.jobs[i]? with
    | some identity =>
      some (s.updateAgents (fun a => a.id = identity.agentId ∧ a.tenantId = identity.tenantId)
        (Agent.bridge hostId machineId))
    | none => none
  | .revoke tenantId id =>
    match s.agents.find? (fun a => a.id = id ∧ a.tenantId = tenantId) with
    | some agent => some (s.addCall (.revoking agent.id))
    | none => some s
  | .commitRevoke i outcome =>
    match s.calls[i]? with
    | some (.revoking agentId) =>
      match outcome with
      | .aborted => some (s.setCall i .ended)
      | _ => some ({ s.updateAgents (fun a => a.id = agentId) Agent.revoke with
          revoked := s.revoked ++ [agentId] }.setCall i .ended)
    | _ => none

end WaOps.Gateway
