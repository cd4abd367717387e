import WaOps.Api.Request

namespace WaOps.Api
open Lib Lib.Scoped Lib.Sorting
open Incidents (IncidentStatus EntryType)
open Gateway (AgentStatus)

section Hosts
variable (env : Env) (ctx : Caller)

def HostsController.list : Handler (List Host) := do
  let rows ← Prisma.findMany .hosts (fun r => r.tenantId = ctx.tenantId)
  return (orderDesc Host.createdAt rows).take 100

def HostsController.get (id : String) : Handler Host :=
  findOrNotFound env .hosts "Host" id (fun id r =>
    r.id = id ∧ r.tenantId = ctx.tenantId)

def HostsController.create (body : Option Js.Json) : Handler Host := do
  let input ← parse (CreateHostSchema body)
  -- The unique index on tenant and name; the new row has no machine id.
  let same ← Prisma.findFirst .hosts (fun r => r.tenantId = ctx.tenantId ∧ r.name = input.name)
  throwIf same.isSome .internal
  let created ← Prisma.create .hosts
    { id := env.newId .hosts
      tenantId := ctx.tenantId
      name := input.name
      osType := input.osType
      osVersion := input.osVersion
      arch := input.arch
      environment := input.environment
      createdAt := env.now
      updatedAt := env.now }
  AuditService.record env ctx "host.create" "host" created.id none (some (.host created))
  return created

end Hosts

section Incidents
variable (env : Env) (ctx : Caller)

/-- The name is a text of code units, as a cut may part a pair of surrogates. -/
structure PrimaryResource where
  id : String
  name : List UInt16
  kind : String
  deriving DecidableEq, Repr

def statusText : IncidentStatus → String
  | .detected => "detected"
  | .acknowledged => "acknowledged"
  | .resolved => "resolved"
  | .closed => "closed"

def statusData (status : String) : Option AuditData :=
  some (.fields [("status", .string status)])

/-- `note ? { note } : undefined` -/
def notePayload : Option String → Option Js.Json
  | none | some "" => none
  | some note => some (.object [("note", .string note)])

def IncidentsController.list : Handler (List Incident) := do
  let rows ← Prisma.findMany .incidents (fun r => r.tenantId = ctx.tenantId)
  return (orderDesc Incident.detectedAt rows).take 100

/-- The host behind an incident's resource id. -/
def resourceHost (rid : String) : Handler (Option Host) :=
  match Js.after "host_" rid with
  | some machineId =>
    Prisma.findFirst .hosts (fun r =>
      r.tenantId = ctx.tenantId ∧ r.machineId = some (String.ofList machineId))
  | none => do
    let id ← uuidOf env rid
    Prisma.findFirst .hosts (fun r => r.tenantId = ctx.tenantId ∧ r.id = id)

def IncidentsController.get (id : String) : Handler (Incident × Option PrimaryResource) := do
  let incident ← findOrNotFound env .incidents "Incident" id (fun id r =>
    r.id = id ∧ r.tenantId = ctx.tenantId)
  match incident.primaryResourceId with
  | none | some "" => return (incident, none)
  | some rid =>
    let host ← resourceHost env ctx rid
    match host with
    | some host =>
      return (incident, some { id := host.id, name := Js.units host.name, kind := "host" })
    | none =>
      let name := (Js.units rid).take 18 ++ Js.units "…"
      return (incident, some { id := rid, name, kind := "unknown" })

def IncidentsController.timeline (id : String) : Handler (List IncidentTimelineEntry) := do
  let incident ← findOrNotFound env .incidents "Incident" id (fun id r =>
    r.id = id ∧ r.tenantId = ctx.tenantId)
  let rows ← Prisma.findMany .incidentTimeline (fun r =>
    r.incidentId = incident.id ∧ r.tenantId = ctx.tenantId)
  return orderAsc IncidentTimelineEntry.createdAt rows

/-- The transaction of an operation: the incident's new values and a timeline entry. -/
def recordOperation (incident : Incident) (f : Incident → Incident)
    (hf : ∀ r, (f r).id = r.id) (entryType : EntryType) (payloadJson : Option Js.Json) :
    Handler Incident :=
  transaction do
    let u ← Prisma.update .incidents incident.id f hf
    let _ ← Prisma.create .incidentTimeline
      { id := env.newId .incidentTimeline
        tenantId := ctx.tenantId
        incidentId := incident.id
        entryType
        actorType := "user"
        actorId := some ctx.userId
        payloadJson
        createdAt := env.now }
    return u

def IncidentsController.acknowledge (id : String) (body : Option Js.Json) : Handler Incident := do
  let note ← parse (AckSchema (orEmpty body))
  let incident ← findOrNotFound env .incidents "Incident" id (fun id r =>
    r.id = id ∧ r.tenantId = ctx.tenantId)
  throwIf (incident.status ≠ .detected) (.api (.conflict
    ("incident not in detected state (current: " ++ statusText incident.status ++ ")")))
  let updated ← recordOperation env ctx incident
    (fun i => { i with
      status := .acknowledged, acknowledgedAt := some env.now, updatedAt := env.now })
    (fun _ => rfl) .acknowledged (notePayload note)
  AuditService.record env ctx "incident.acknowledge" "incident" incident.id
    (statusData (statusText incident.status)) (statusData "acknowledged")
  return updated

def IncidentsController.resolve (id : String) (body : Option Js.Json) : Handler Incident := do
  let note ← parse (ResolveSchema (orEmpty body))
  let incident ← findOrNotFound env .incidents "Incident" id (fun id r =>
    r.id = id ∧ r.tenantId = ctx.tenantId)
  throwIf (incident.status = .resolved ∨ incident.status = .closed)
    (.api (.conflict ("incident already " ++ statusText incident.status)))
  let updated ← recordOperation env ctx incident
    (fun i => { i with status := .resolved, resolvedAt := some env.now, updatedAt := env.now })
    (fun _ => rfl) .resolved (notePayload note)
  AuditService.record env ctx "incident.resolve" "incident" incident.id
    (statusData (statusText incident.status)) (statusData "resolved")
  return updated

def IncidentsController.reopen (id : String) : Handler Incident := do
  let incident ← findOrNotFound env .incidents "Incident" id (fun id r =>
    r.id = id ∧ r.tenantId = ctx.tenantId)
  let updated ← recordOperation env ctx incident
    (fun i => { i with status := .acknowledged, resolvedAt := none, updatedAt := env.now })
    (fun _ => rfl) .reopened none
  AuditService.record env ctx "incident.reopen" "incident" incident.id none none
  return updated

end Incidents

section Agents
variable (env : Env) (ctx : Caller)

structure AgentItem where
  id : String
  name : String
  version : Option String
  protocolVersion : Option Int
  status : AgentStatus
  lastSeenAt : Option Int
  machineId : Option String
  hostId : Option String
  capabilities : List String
  createdAt : Int
  /-- The id of the host, of which nothing else is shown. -/
  host : Option String

structure TokenAnswer where
  token : String
  tokenId : String
  expiresAt : Int
  installHint : String := "WAOPS_ENROLLMENT_TOKEN=<token> waagent"
  deriving DecidableEq, Repr

def tokenTtlDefaultMinutes : Int := 15

def maxPendingTokensPerTenant : Nat := 20

def AgentsController.list : Handler (List AgentItem) := do
  let rows ← Prisma.findMany .agents (fun r => r.tenantId = ctx.tenantId)
  return ((orderDesc Agent.createdAt rows).take 100).map fun a =>
    { id := a.id
      name := a.name
      version := a.version
      protocolVersion := a.protocolVersion
      status := a.status
      lastSeenAt := a.lastSeenAt
      machineId := a.machineId
      hostId := a.hostId
      capabilities := a.capabilities
      createdAt := a.createdAt
      host := a.hostId }

def AgentsController.createToken (body : Option Js.Json) : Handler TokenAnswer := do
  let input ← parse (CreateTokenSchema env.ofText (orEmpty body))
  let pending ← Prisma.findMany .agentEnrollmentTokens (fun r =>
    r.tenantId = ctx.tenantId ∧ (r.status = .active ∨ r.status = .claiming))
  throwIf (pending.length ≥ maxPendingTokensPerTenant)
    (.api (.quotaExceeded "agent_enrollment_tokens" maxPendingTokensPerTenant))
  let token := "enr_" ++ env.randomHex
  let tokenHash := env.sha256 token
  let ttlMs := input.ttlMinutes.getD tokenTtlDefaultMinutes * 60000
  -- The unique index on the hash covers all tenants.
  let same ← Prisma.findFirst .agentEnrollmentTokens (fun r => r.tokenHash = tokenHash)
  throwIf same.isSome .internal
  let created ← Prisma.create .agentEnrollmentTokens
    { id := env.newId .agentEnrollmentTokens
      tokenHash
      tenantId := ctx.tenantId
      expiresAt := env.now + ttlMs
      createdAt := env.now }
  let name := input.name.elim Js.Json.null .string
  let ttl := Js.Json.number (.finite (input.ttlMinutes.getD 15))
  AuditService.record env ctx "agent.enrollment_token.create" "agent_enrollment_token" created.id
    none (some (.fields [("name", name), ("ttl_minutes", ttl)]))
  return { token, tokenId := created.id, expiresAt := created.expiresAt }

def agentStatusText : AgentStatus → String
  | .pending => "pending"
  | .online => "online"
  | .revoked => "revoked"

def AgentsController.revoke (id : String) : Handler (String × AgentStatus) := do
  let agent ← findOrNotFound env .agents "Agent" id (fun id r =>
    r.id = id ∧ r.tenantId = ctx.tenantId)
  let updated ← Prisma.update .agents agent.id (fun a => { a with status := .revoked })
  AuditService.record env ctx "agent.revoke" "agent" agent.id
    (statusData (agentStatusText agent.status)) (statusData "revoked")
  return (updated.id, updated.status)

end Agents

end WaOps.Api
