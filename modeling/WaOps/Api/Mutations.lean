import WaOps.Api.Isolation
import WaOps.Lib.Programs

namespace WaOps.Api
open Lib Lib.Scoped Lib.Programs
open Incidents (EntryType)

inductive Site where
  | read (i : TableName)
  | write (i : TableName)
  | commit
  | publish
  deriving DecidableEq, Repr

abbrev Operation (α : Type) := Program Store Failure Site α

def parseSteps {α : Type} : Zod.Parsed α → Operation α
  | .ok a => pure a
  | .error issues => .throw (.zod issues)

def throwStepIf (bad : Prop) [Decidable bad] (failure : Failure) : Operation Unit :=
  if bad then .throw failure else pure ()

variable (env : Env) (ctx : Caller)

def findOrNotFoundSteps (i : TableName) (what text : String) (p : String → i.Row → Bool) :
    Operation i.Row := do
  let found ← .statement (.read i) (do
    let id ← uuidOf env text
    Prisma.findFirst i (p id))
  match found with
  | some r => pure r
  | none => .throw (.api (.notFound what))

def AuditService.recordSteps (action resourceType resourceId : String)
    (beforeData afterData : Option AuditData) : Operation Unit :=
  .statement (.write .auditLogs)
    (AuditService.record env ctx action resourceType resourceId beforeData afterData)

/-- A realtime event, which the store does not show and nobody waits for. -/
def publishSteps : Operation Unit := .attempt (.statement .publish (pure ()))

def HostsController.createSteps (body : Option Js.Json) : Operation Host := do
  let input ← parseSteps (CreateHostSchema body)
  let created ← .statement (.write .hosts) (do
    let same ← Prisma.findFirst .hosts (fun r => r.tenantId = ctx.tenantId ∧ r.name = input.name)
    throwIf same.isSome .internal
    Prisma.create .hosts
      { id := env.newId .hosts
        tenantId := ctx.tenantId
        name := input.name
        osType := input.osType
        osVersion := input.osVersion
        arch := input.arch
        environment := input.environment
        createdAt := env.now
        updatedAt := env.now })
  AuditService.recordSteps env ctx "host.create" "host" created.id none (some (.host created))
  return created

def recordOperationSteps (incident : Incident) (f : Incident → Incident)
    (hf : ∀ r, (f r).id = r.id) (entryType : EntryType) (payloadJson : Option Js.Json) :
    Operation Incident :=
  .transaction .commit do
    let u ← .statement (.write .incidents) (Prisma.update .incidents incident.id f hf)
    let _ ← .statement (.write .incidentTimeline) (Prisma.create .incidentTimeline
      { id := env.newId .incidentTimeline
        tenantId := ctx.tenantId
        incidentId := incident.id
        entryType
        actorType := "user"
        actorId := some ctx.userId
        payloadJson
        createdAt := env.now })
    return u

def Incident.acknowledged : Incident → Incident := fun i =>
  { i with status := .acknowledged, acknowledgedAt := some env.now, updatedAt := env.now }

def Incident.resolved : Incident → Incident := fun i =>
  { i with status := .resolved, resolvedAt := some env.now, updatedAt := env.now }

def Incident.reopened : Incident → Incident := fun i =>
  { i with status := .acknowledged, resolvedAt := none, updatedAt := env.now }

def Agent.revoked : Agent → Agent := fun a => { a with status := .revoked }

def SupportTicket.patched (input : PatchTicket) : SupportTicket → SupportTicket := fun t =>
  { t with
    title := input.title.getD t.title
    description := input.description.getD t.description
    priority := input.priority.getD t.priority
    labels := input.labels.getD t.labels
    updatedAt := env.now }

def SupportTicket.assigned (assigneeId : Option String) : SupportTicket → SupportTicket := fun t =>
  { t with assigneeId, updatedAt := env.now }

def SupportTicket.transitioned (status : TicketStatus) : SupportTicket → SupportTicket := fun t =>
  { t with
    status
    resolvedAt :=
      if status = .resolved then some env.now
      else if status = .open then none
      else t.resolvedAt
    updatedAt := env.now }

theorem Incident.acknowledged_id (i : Incident) : (i.acknowledged env).id = i.id := rfl

theorem Incident.resolved_id (i : Incident) : (i.resolved env).id = i.id := rfl

theorem Incident.reopened_id (i : Incident) : (i.reopened env).id = i.id := rfl

theorem Agent.revoked_key (a : TableName.agents.Row) :
    TableName.agents.key (Agent.revoked a) = TableName.agents.key a := rfl

theorem SupportTicket.patched_key (input : PatchTicket) (t : TableName.supportTickets.Row) :
    TableName.supportTickets.key (SupportTicket.patched env input t) =
      TableName.supportTickets.key t := rfl

theorem SupportTicket.assigned_key (assigneeId : Option String)
    (t : TableName.supportTickets.Row) :
    TableName.supportTickets.key (SupportTicket.assigned env assigneeId t) =
      TableName.supportTickets.key t := rfl

theorem SupportTicket.transitioned_key (status : TicketStatus)
    (t : TableName.supportTickets.Row) :
    TableName.supportTickets.key (SupportTicket.transitioned env status t) =
      TableName.supportTickets.key t := rfl

def findIncidentSteps (id : String) : Operation Incident :=
  findOrNotFoundSteps env .incidents "Incident" id (fun id r =>
    r.id = id ∧ r.tenantId = ctx.tenantId)

def IncidentsController.acknowledgeSteps (id : String) (body : Option Js.Json) :
    Operation Incident := do
  let note ← parseSteps (AckSchema (orEmpty body))
  let incident ← findIncidentSteps env ctx id
  throwStepIf (incident.status ≠ .detected) (.api (.conflict
    ("incident not in detected state (current: " ++ statusText incident.status ++ ")")))
  let updated ← recordOperationSteps env ctx incident (Incident.acknowledged env)
    (Incident.acknowledged_id env) .acknowledged (notePayload note)
  AuditService.recordSteps env ctx "incident.acknowledge" "incident" incident.id
    (statusData (statusText incident.status)) (statusData "acknowledged")
  return updated

def IncidentsController.resolveSteps (id : String) (body : Option Js.Json) :
    Operation Incident := do
  let note ← parseSteps (ResolveSchema (orEmpty body))
  let incident ← findIncidentSteps env ctx id
  throwStepIf (incident.status = .resolved ∨ incident.status = .closed)
    (.api (.conflict ("incident already " ++ statusText incident.status)))
  let updated ← recordOperationSteps env ctx incident (Incident.resolved env)
    (Incident.resolved_id env) .resolved (notePayload note)
  AuditService.recordSteps env ctx "incident.resolve" "incident" incident.id
    (statusData (statusText incident.status)) (statusData "resolved")
  return updated

def IncidentsController.reopenSteps (id : String) : Operation Incident := do
  let incident ← findIncidentSteps env ctx id
  let updated ← recordOperationSteps env ctx incident (Incident.reopened env)
    (Incident.reopened_id env) .reopened none
  AuditService.recordSteps env ctx "incident.reopen" "incident" incident.id none none
  return updated

def AgentsController.createTokenSteps (body : Option Js.Json) : Operation TokenAnswer := do
  let input ← parseSteps (CreateTokenSchema env.ofText (orEmpty body))
  let pending ← .statement (.read .agentEnrollmentTokens) (Prisma.findMany .agentEnrollmentTokens
    (fun r => r.tenantId = ctx.tenantId ∧ (r.status = .active ∨ r.status = .claiming)))
  throwStepIf (pending.length ≥ maxPendingTokensPerTenant)
    (.api (.quotaExceeded "agent_enrollment_tokens" maxPendingTokensPerTenant))
  let token := "enr_" ++ env.randomHex
  let tokenHash := env.sha256 token
  let ttlMs := input.ttlMinutes.getD tokenTtlDefaultMinutes * 60000
  let created ← .statement (.write .agentEnrollmentTokens) (do
    let same ← Prisma.findFirst .agentEnrollmentTokens (fun r => r.tokenHash = tokenHash)
    throwIf same.isSome .internal
    Prisma.create .agentEnrollmentTokens
      { id := env.newId .agentEnrollmentTokens
        tokenHash
        tenantId := ctx.tenantId
        expiresAt := env.now + ttlMs
        createdAt := env.now })
  let name := input.name.elim Js.Json.null .string
  let ttl := Js.Json.number (.finite (input.ttlMinutes.getD 15))
  AuditService.recordSteps env ctx "agent.enrollment_token.create" "agent_enrollment_token"
    created.id none (some (.fields [("name", name), ("ttl_minutes", ttl)]))
  return { token, tokenId := created.id, expiresAt := created.expiresAt }

def findAgentSteps (id : String) : Operation Agent :=
  findOrNotFoundSteps env .agents "Agent" id (fun id r => r.id = id ∧ r.tenantId = ctx.tenantId)

def AgentsController.revokeSteps (id : String) : Operation (String × Gateway.AgentStatus) := do
  let agent ← findAgentSteps env ctx id
  let updated ← .statement (.write .agents)
    (Prisma.update .agents agent.id Agent.revoked Agent.revoked_key)
  publishSteps
  AuditService.recordSteps env ctx "agent.revoke" "agent" agent.id
    (statusData (agentStatusText agent.status)) (statusData "revoked")
  return (updated.id, updated.status)

def TicketsController.createSteps (body : Option Js.Json) : Operation SupportTicket := do
  let input ← parseSteps (CreateTicketSchema (orEmpty body))
  let created ← .transaction .commit do
    let number ← .statement (.write .supportSequences) (bumpSequence ctx)
    .statement (.write .supportTickets) (do
      let incidentId ← input.incidentId.mapM (uuidOf env)
      let same ← Prisma.findFirst .supportTickets (fun r =>
        r.tenantId = ctx.tenantId ∧ r.number = number)
      throwIf same.isSome .internal
      Prisma.create .supportTickets
        { id := env.newId .supportTickets
          tenantId := ctx.tenantId
          organizationId := ctx.organizationScope
          number
          title := input.title
          description := input.description
          priority := input.priority.getD .normal
          labels := input.labels.getD []
          incidentId
          requesterId := ctx.userId
          openSince := env.now
          createdAt := env.now
          updatedAt := env.now })
  let shown := [("number", Js.Json.number (.finite created.number)),
    ("title", .string created.title), ("priority", .string created.priority.text)]
  AuditService.recordSteps env ctx "ticket.create" "support_ticket" created.id none
    (some (.fields shown))
  publishSteps
  return created

def findTicketSteps (id : String) : Operation SupportTicket :=
  findOrNotFoundSteps env .supportTickets "Ticket" id (fun id r =>
    r.id = id ∧ r.tenantId = ctx.tenantId)

def TicketsController.patchSteps (id : String) (body : Option Js.Json) :
    Operation SupportTicket := do
  let input ← parseSteps (PatchTicketSchema (orEmpty body))
  let ticket ← findTicketSteps env ctx id
  let updated ← .statement (.write .supportTickets)
    (Prisma.update .supportTickets ticket.id (SupportTicket.patched env input)
      (SupportTicket.patched_key env input))
  AuditService.recordSteps env ctx "ticket.update" "support_ticket" ticket.id (titleData ticket)
    (titleData updated)
  return updated

def TicketsController.commentSteps (id : String) (body : Option Js.Json) :
    Operation SupportTicketComment := do
  let text ← parseSteps (CommentSchema (orEmpty body))
  let ticket ← findTicketSteps env ctx id
  let created ← .statement (.write .supportTicketComments)
    (Prisma.create .supportTicketComments (newComment env ctx ticket.id text))
  AuditService.recordSteps env ctx "ticket.comment" "support_ticket" ticket.id none
    (some (.fields [("comment_id", .string created.id)]))
  return created

def checkAssigneeSteps (assigneeId : String) : Operation String := do
  let (userId, member) ← .statement (.read .memberships) (do
    let userId ← uuidOf env assigneeId
    let member ← Prisma.findFirst .memberships (fun r =>
      r.userId = userId ∧ r.tenantId = ctx.tenantId ∧ r.status = "active")
    return (userId, member))
  throwStepIf member.isNone
    (.api (.validation "assignee is not an active member of this tenant" none))
  return userId

def TicketsController.assignSteps (id : String) (body : Option Js.Json) :
    Operation SupportTicket := do
  let assigneeId ← parseSteps (AssignSchema (orEmpty body))
  let ticket ← findTicketSteps env ctx id
  let checked ← assigneeId.mapM (checkAssigneeSteps env ctx)
  let updated ← .statement (.write .supportTickets)
    (Prisma.update .supportTickets ticket.id (SupportTicket.assigned env checked)
      (SupportTicket.assigned_key env checked))
  AuditService.recordSteps env ctx "ticket.assign" "support_ticket" ticket.id
    (assigneeData ticket.assigneeId) (assigneeData assigneeId)
  return updated

def TicketsController.transitionSteps (id : String) (body : Option Js.Json) :
    Operation SupportTicket := do
  let input ← parseSteps (TransitionSchema (orEmpty body))
  let ticket ← findTicketSteps env ctx id
  throwStepIf (input.status ∉ transitions ticket.status) (.api (.conflict
    ("illegal transition " ++ ticket.status.text ++ " → " ++ input.status.text)))
  let updated ← .transaction .commit do
    let u ← .statement (.write .supportTickets)
      (Prisma.update .supportTickets ticket.id (SupportTicket.transitioned env input.status)
        (SupportTicket.transitioned_key env input.status))
    let _ ← .statement (.write .supportTicketComments) (Prisma.create .supportTicketComments
      (newComment env ctx ticket.id (transitionNote input)))
    return u
  AuditService.recordSteps env ctx "ticket.transition" "support_ticket" ticket.id
    (ticketStatusData ticket.status) (ticketStatusData input.status)
  publishSteps
  return updated

/-- The requests of the controllers that write. -/
inductive Mutation where
  | createHost (body : Option Js.Json)
  | acknowledgeIncident (id : String) (body : Option Js.Json)
  | resolveIncident (id : String) (body : Option Js.Json)
  | reopenIncident (id : String)
  | createToken (body : Option Js.Json)
  | revokeAgent (id : String)
  | createTicket (body : Option Js.Json)
  | patchTicket (id : String) (body : Option Js.Json)
  | commentTicket (id : String) (body : Option Js.Json)
  | assignTicket (id : String) (body : Option Js.Json)
  | transitionTicket (id : String) (body : Option Js.Json)

def Mutation.request : Mutation → Request
  | .createHost body => .createHost body
  | .acknowledgeIncident id body => .acknowledgeIncident id body
  | .resolveIncident id body => .resolveIncident id body
  | .reopenIncident id => .reopenIncident id
  | .createToken body => .createToken body
  | .revokeAgent id => .revokeAgent id
  | .createTicket body => .createTicket body
  | .patchTicket id body => .patchTicket id body
  | .commentTicket id body => .commentTicket id body
  | .assignTicket id body => .assignTicket id body
  | .transitionTicket id body => .transitionTicket id body

def Mutation.steps : Mutation → Operation Answer
  | .createHost body => .host <$> HostsController.createSteps env ctx body
  | .acknowledgeIncident id body =>
    .incident <$> IncidentsController.acknowledgeSteps env ctx id body
  | .resolveIncident id body => .incident <$> IncidentsController.resolveSteps env ctx id body
  | .reopenIncident id => .incident <$> IncidentsController.reopenSteps env ctx id
  | .createToken body => .token <$> AgentsController.createTokenSteps env ctx body
  | .revokeAgent id => .revoked <$> AgentsController.revokeSteps env ctx id
  | .createTicket body => .ticket <$> TicketsController.createSteps env ctx body
  | .patchTicket id body => .ticket <$> TicketsController.patchSteps env ctx id body
  | .commentTicket id body => .comment <$> TicketsController.commentSteps env ctx id body
  | .assignTicket id body => .ticket <$> TicketsController.assignSteps env ctx id body
  | .transitionTicket id body => .ticket <$> TicketsController.transitionSteps env ctx id body

section
variable {env ctx} {α : Type} {id : String} {body : Option Js.Json}

@[simp] theorem parseSteps_eval {parsed : Zod.Parsed α} :
    (parseSteps parsed).eval = parse parsed := by
  cases parsed <;> rfl

@[simp] theorem throwStepIf_eval {bad : Prop} [Decidable bad] {failure : Failure} :
    (throwStepIf bad failure).eval = throwIf bad failure := by
  unfold throwStepIf throwIf
  split <;> rfl

@[simp] theorem findOrNotFoundSteps_eval {i : TableName} {what text : String}
    {p : String → i.Row → Bool} :
    (findOrNotFoundSteps env i what text p).eval = findOrNotFound env i what text p := by
  simp only [findOrNotFoundSteps, findOrNotFound, eval_bind, eval_statement, bind_assoc]
  congr 1
  funext id
  congr 1
  funext found
  cases found <;> rfl

@[simp] theorem recordSteps_eval {action resourceType resourceId : String}
    {beforeData afterData : Option AuditData} :
    (AuditService.recordSteps env ctx action resourceType resourceId beforeData afterData).eval =
      AuditService.record env ctx action resourceType resourceId beforeData afterData := rfl

@[simp] theorem publishSteps_eval : publishSteps.eval = pure () := rfl

@[simp] theorem recordOperationSteps_eval {incident : Incident} {f : Incident → Incident}
    {hf : ∀ r, (f r).id = r.id} {entryType : EntryType} {payloadJson : Option Js.Json} :
    (recordOperationSteps env ctx incident f hf entryType payloadJson).eval =
      recordOperation env ctx incident f hf entryType payloadJson := rfl

theorem checkAssigneeSteps_eval {assigneeId : String} :
    (checkAssigneeSteps env ctx assigneeId).eval = checkAssignee env ctx assigneeId := by
  simp only [checkAssigneeSteps, checkAssignee, eval_bind, eval_statement, bind_assoc, pure_bind,
    throwStepIf_eval, eval_pure]

@[simp] theorem assigneeSteps_eval {assigneeId : Option String} :
    (assigneeId.mapM (checkAssigneeSteps env ctx)).eval =
      assigneeId.mapM (checkAssignee env ctx) := by
  cases assigneeId with
  | none => rfl
  | some assigneeId =>
    change (some <$> checkAssigneeSteps env ctx assigneeId).eval =
      some <$> checkAssignee env ctx assigneeId
    rw [eval_map, checkAssigneeSteps_eval]

@[simp] theorem findIncidentSteps_eval : (findIncidentSteps env ctx id).eval =
    findOrNotFound env .incidents "Incident" id (fun id r =>
      r.id = id ∧ r.tenantId = ctx.tenantId) :=
  findOrNotFoundSteps_eval

@[simp] theorem findAgentSteps_eval : (findAgentSteps env ctx id).eval =
    findOrNotFound env .agents "Agent" id (fun id r => r.id = id ∧ r.tenantId = ctx.tenantId) :=
  findOrNotFoundSteps_eval

@[simp] theorem findTicketSteps_eval : (findTicketSteps env ctx id).eval =
    findOrNotFound env .supportTickets "Ticket" id (fun id r =>
      r.id = id ∧ r.tenantId = ctx.tenantId) :=
  findOrNotFoundSteps_eval

theorem createHostSteps_eval : (HostsController.createSteps env ctx body).eval =
    HostsController.create env ctx body := by
  simp [HostsController.createSteps, HostsController.create]

theorem acknowledgeSteps_eval : (IncidentsController.acknowledgeSteps env ctx id body).eval =
    IncidentsController.acknowledge env ctx id body := by
  simp [IncidentsController.acknowledgeSteps, IncidentsController.acknowledge]
  rfl

theorem resolveSteps_eval : (IncidentsController.resolveSteps env ctx id body).eval =
    IncidentsController.resolve env ctx id body := by
  simp [IncidentsController.resolveSteps, IncidentsController.resolve]
  rfl

theorem reopenSteps_eval : (IncidentsController.reopenSteps env ctx id).eval =
    IncidentsController.reopen env ctx id := by
  simp [IncidentsController.reopenSteps, IncidentsController.reopen]
  rfl

theorem createTokenSteps_eval : (AgentsController.createTokenSteps env ctx body).eval =
    AgentsController.createToken env ctx body := by
  simp [AgentsController.createTokenSteps, AgentsController.createToken]

theorem revokeSteps_eval : (AgentsController.revokeSteps env ctx id).eval =
    AgentsController.revoke env ctx id := by
  simp [AgentsController.revokeSteps, AgentsController.revoke]
  rfl

theorem createTicketSteps_eval : (TicketsController.createSteps env ctx body).eval =
    TicketsController.create env ctx body := by
  simp [TicketsController.createSteps, TicketsController.create]

theorem patchSteps_eval : (TicketsController.patchSteps env ctx id body).eval =
    TicketsController.patch env ctx id body := by
  simp [TicketsController.patchSteps, TicketsController.patch]
  rfl

theorem commentSteps_eval : (TicketsController.commentSteps env ctx id body).eval =
    TicketsController.comment env ctx id body := by
  simp [TicketsController.commentSteps, TicketsController.comment]

theorem assignSteps_eval : (TicketsController.assignSteps env ctx id body).eval =
    TicketsController.assign env ctx id body := by
  simp [TicketsController.assignSteps, TicketsController.assign]
  rfl

theorem transitionSteps_eval : (TicketsController.transitionSteps env ctx id body).eval =
    TicketsController.transition env ctx id body := by
  simp [TicketsController.transitionSteps, TicketsController.transition]
  rfl

theorem steps_eval (m : Mutation) : (m.steps env ctx).eval = handle env ctx m.request := by
  cases m with
  | createHost body => simp [Mutation.steps, Mutation.request, handle, createHostSteps_eval]
  | acknowledgeIncident id body =>
    simp [Mutation.steps, Mutation.request, handle, acknowledgeSteps_eval]
  | resolveIncident id body => simp [Mutation.steps, Mutation.request, handle, resolveSteps_eval]
  | reopenIncident id => simp [Mutation.steps, Mutation.request, handle, reopenSteps_eval]
  | createToken body => simp [Mutation.steps, Mutation.request, handle, createTokenSteps_eval]
  | revokeAgent id => simp [Mutation.steps, Mutation.request, handle, revokeSteps_eval]
  | createTicket body => simp [Mutation.steps, Mutation.request, handle, createTicketSteps_eval]
  | patchTicket id body => simp [Mutation.steps, Mutation.request, handle, patchSteps_eval]
  | commentTicket id body => simp [Mutation.steps, Mutation.request, handle, commentSteps_eval]
  | assignTicket id body => simp [Mutation.steps, Mutation.request, handle, assignSteps_eval]
  | transitionTicket id body =>
    simp [Mutation.steps, Mutation.request, handle, transitionSteps_eval]

/-- A run in which nothing fails from outside gives what the handler gives. -/
theorem run_steps (m : Mutation) (s : Store) :
    (((m.steps env ctx).run (fun _ => none) 0 s).result,
      ((m.steps env ctx).run (fun _ => none) 0 s).state) =
      outcome (handle env ctx m.request) s := by
  rw [run_eval, steps_eval]

end

end WaOps.Api
