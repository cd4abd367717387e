import WaOps.Api.Request

namespace WaOps.Api
open Lib Lib.Scoped Lib.Sorting

variable (env : Env) (ctx : Caller)

def TicketStatus.text : TicketStatus → String
  | .open => "open"
  | .inProgress => "in_progress"
  | .resolved => "resolved"
  | .closed => "closed"

def Priority.text : Priority → String
  | .low => "low"
  | .normal => "normal"
  | .high => "high"
  | .urgent => "urgent"

def transitions : TicketStatus → List TicketStatus
  | .open => [.inProgress, .resolved, .closed]
  | .inProgress => [.resolved, .closed, .open]
  | .resolved => [.closed, .open]
  | .closed => [.open]

/-- The tickets with their first comments, which are looked up by the ticket alone. -/
def TicketsController.list : Handler (List (SupportTicket × List SupportTicketComment)) := do
  let rows ← Prisma.findMany .supportTickets (fun r => r.tenantId = ctx.tenantId)
  let tickets := (orderDesc SupportTicket.updatedAt rows).take 100
  let comments ← Prisma.findMany .supportTicketComments (fun r =>
    tickets.any (fun t => t.id = r.ticketId))
  return tickets.map fun t =>
    let own := comments.filter (fun c => c.ticketId = t.id)
    (t, (orderAsc SupportTicketComment.createdAt own).take 1)

/-- The counter's new value. -/
def bumpSequence : Handler Nat := do
  let found ← Prisma.findFirst .supportSequences (fun r => r.tenantId = ctx.tenantId)
  match found with
  | some r =>
    -- The value is a 32-bit integer.
    throwIf (r.value ≥ 2147483647) .internal
    let bumped ← Prisma.update .supportSequences ctx.tenantId
      (fun r => { r with value := r.value + 1 })
    return bumped.value
  | none =>
    let created ← Prisma.create .supportSequences { tenantId := ctx.tenantId, value := 1 }
    return created.value

def TicketsController.create (body : Option Js.Json) : Handler SupportTicket := do
  let input ← parse (CreateTicketSchema (orEmpty body))
  let created ← transaction do
    let number ← bumpSequence ctx
    let incidentId ← input.incidentId.mapM (uuidOf env)
    -- The unique index on tenant and number.
    let same ← Prisma.findFirst .supportTickets (fun r =>
      r.tenantId = ctx.tenantId ∧ r.number = number)
    throwIf same.isSome .internal
    Prisma.create .supportTickets
      { id := env.newId .supportTickets
        tenantId := ctx.tenantId
        organizationId := ctx.organizationScope
        number
        title := input.title
        description := input.description
        priority := input.priority.getD .normal
        labels := input.labels.getD []
        incidentId
        requesterId := ctx.userId
        openSince := env.now
        createdAt := env.now
        updatedAt := env.now }
  let shown := [("number", Js.Json.number (.finite created.number)),
    ("title", .string created.title), ("priority", .string created.priority.text)]
  AuditService.record env ctx "ticket.create" "support_ticket" created.id none
    (some (.fields shown))
  return created

def TicketsController.get (id : String) :
    Handler (SupportTicket × List SupportTicketComment) := do
  let ticket ← findOrNotFound env .supportTickets "Ticket" id (fun id r =>
    r.id = id ∧ r.tenantId = ctx.tenantId)
  let comments ← Prisma.findMany .supportTicketComments (fun r =>
    r.ticketId = ticket.id ∧ r.tenantId = ctx.tenantId)
  return (ticket, (orderAsc SupportTicketComment.createdAt comments).take 200)

def titleData (ticket : SupportTicket) : Option AuditData :=
  some (.fields [("title", .string ticket.title), ("priority", .string ticket.priority.text)])

def TicketsController.patch (id : String) (body : Option Js.Json) : Handler SupportTicket := do
  let input ← parse (PatchTicketSchema (orEmpty body))
  let ticket ← findOrNotFound env .supportTickets "Ticket" id (fun id r =>
    r.id = id ∧ r.tenantId = ctx.tenantId)
  let updated ← Prisma.update .supportTickets ticket.id (fun t => { t with
    title := input.title.getD t.title
    description := input.description.getD t.description
    priority := input.priority.getD t.priority
    labels := input.labels.getD t.labels
    updatedAt := env.now })
  AuditService.record env ctx "ticket.update" "support_ticket" ticket.id (titleData ticket)
    (titleData updated)
  return updated

def newComment (ticketId body : String) : SupportTicketComment :=
  { id := env.newId .supportTicketComments
    tenantId := ctx.tenantId
    ticketId
    authorId := ctx.userId
    body
    createdAt := env.now }

def TicketsController.comment (id : String) (body : Option Js.Json) :
    Handler SupportTicketComment := do
  let text ← parse (CommentSchema (orEmpty body))
  let ticket ← findOrNotFound env .supportTickets "Ticket" id (fun id r =>
    r.id = id ∧ r.tenantId = ctx.tenantId)
  let created ← Prisma.create .supportTicketComments (newComment env ctx ticket.id text)
  AuditService.record env ctx "ticket.comment" "support_ticket" ticket.id none
    (some (.fields [("comment_id", .string created.id)]))
  return created

/-- The assignee is an active member of the tenant. -/
def checkAssignee (assigneeId : String) : Handler String := do
  let userId ← uuidOf env assigneeId
  let member ← Prisma.findFirst .memberships (fun r =>
    r.userId = userId ∧ r.tenantId = ctx.tenantId ∧ r.status = "active")
  throwIf member.isNone (.api (.validation "assignee is not an active member of this tenant" none))
  return userId

def assigneeData (assigneeId : Option String) : Option AuditData :=
  some (.fields [("assignee_id", assigneeId.elim .null .string)])

def TicketsController.assign (id : String) (body : Option Js.Json) : Handler SupportTicket := do
  let assigneeId ← parse (AssignSchema (orEmpty body))
  let ticket ← findOrNotFound env .supportTickets "Ticket" id (fun id r =>
    r.id = id ∧ r.tenantId = ctx.tenantId)
  let checked ← assigneeId.mapM (checkAssignee env ctx)
  let updated ← Prisma.update .supportTickets ticket.id (fun t => { t with
    assigneeId := checked, updatedAt := env.now })
  AuditService.record env ctx "ticket.assign" "support_ticket" ticket.id
    (assigneeData ticket.assigneeId) (assigneeData assigneeId)
  return updated

def transitionNote (input : Transition) : String :=
  "status → " ++ input.status.text ++
    match input.note with
    | none | some "" => ""
    | some note => ": " ++ note

def ticketStatusData (status : TicketStatus) : Option AuditData :=
  some (.fields [("status", .string status.text)])

def TicketsController.transition (id : String) (body : Option Js.Json) :
    Handler SupportTicket := do
  let input ← parse (TransitionSchema (orEmpty body))
  let ticket ← findOrNotFound env .supportTickets "Ticket" id (fun id r =>
    r.id = id ∧ r.tenantId = ctx.tenantId)
  throwIf (input.status ∉ transitions ticket.status) (.api (.conflict
    ("illegal transition " ++ ticket.status.text ++ " → " ++ input.status.text)))
  let updated ← transaction do
    let u ← Prisma.update .supportTickets ticket.id (fun t => { t with
      status := input.status
      resolvedAt :=
        if input.status = .resolved then some env.now
        else if input.status = .open then none
        else t.resolvedAt
      updatedAt := env.now })
    let _ ← Prisma.create .supportTicketComments
      (newComment env ctx ticket.id (transitionNote input))
    return u
  AuditService.record env ctx "ticket.transition" "support_ticket" ticket.id
    (ticketStatusData ticket.status) (ticketStatusData input.status)
  return updated

end WaOps.Api
