import WaOps.Api.Controllers
import WaOps.Api.Metrics
import WaOps.Api.Tickets

namespace WaOps.Api
open Lib Lib.Scoped Lib.Tables

variable (env : Env) (ctx : Caller)

/-- What a request generates is new among other tenants' rows. -/
structure Fresh (w : Rows schema) : Prop where
  host : ∀ r ∈ w .hosts, r.id ≠ env.newId .hosts
  token : ∀ r ∈ w .agentEnrollmentTokens, r.id ≠ env.newId .agentEnrollmentTokens
  tokenHash : ∀ r ∈ w .agentEnrollmentTokens, r.tokenHash ≠ env.sha256 ("enr_" ++ env.randomHex)
  timeline : ∀ r ∈ w .incidentTimeline, r.id ≠ env.newId .incidentTimeline
  ticket : ∀ r ∈ w .supportTickets, r.id ≠ env.newId .supportTickets
  comment : ∀ r ∈ w .supportTicketComments, r.id ≠ env.newId .supportTicketComments
  audit : ∀ r ∈ w .auditLogs, r.id ≠ env.newId .auditLogs

/-- The rows of the other tenants at a request; a sequence's key is its tenant. -/
structure Others (w : Rows schema) : Prop extends Fresh env w where
  sequence : ∀ r ∈ w .supportSequences, r.tenantId ≠ ctx.tenantId

/-- What a handler answers and changes depends on the tenant's rows, and it changes no others. -/
abbrev Confined {α : Type} (P : Rows schema → Prop) (m : Handler α)
    (Q : α → Rows schema → Prop) : Prop :=
  Blind (own ctx.tenantId) (rest ctx.tenantId) (Others env ctx) P m Q

variable {env ctx} {α : Type} {P : Rows schema → Prop} {i : TableName} {p : i.Row → Bool}
  {r : i.Row}

theorem findMany_confined (hp : ∀ r, p r → i.tenantId r = some ctx.tenantId) :
    Confined env ctx P (Prisma.findMany i p) (fun _ => P) :=
  (findMany_blind hp).weaken (fun _ h => h) (fun _ _ h => h.1)

theorem findMany_then {β : Type} {f : List i.Row → β}
    (hp : ∀ r, p r → i.tenantId r = some ctx.tenantId) :
    Confined env ctx P (do return f (← Prisma.findMany i p)) (fun _ _ => True) :=
  Blind.bind (findMany_confined hp) (fun _ => Blind.pure (fun _ _ => trivial))

theorem findFirst_confined (hp : ∀ r, p r → i.tenantId r = some ctx.tenantId) :
    Confined env ctx P (Prisma.findFirst i p)
      (fun found w => P w ∧ ∀ r ∈ found, r ∈ w i ∧ p r) := by
  refine (Tables.findFirst_own hp).weaken (fun _ h => h) ?_
  rintro found w ⟨h, rfl⟩
  exact ⟨h, fun r hr => ⟨List.mem_of_find?_eq_some hr, List.find?_some hr⟩⟩

theorem uuidOf_confined {text : String} : Confined env ctx P (uuidOf env text) (fun _ => P) := by
  unfold uuidOf
  split
  · exact Blind.pure (fun _ h => h)
  · exact Blind.throw

theorem parse_confined {parsed : Zod.Parsed α} :
    Confined env ctx P (parse parsed) (fun _ => P) := by
  cases parsed with
  | ok a => exact Blind.pure (fun _ h => h)
  | error issues => exact Blind.throw

/-- The row found by id is one of the tenant's. -/
theorem findOrNotFound_confined {what text : String} {p : String → i.Row → Bool}
    (hp : ∀ id r, p id r → i.tenantId r = some ctx.tenantId) :
    Confined env ctx P (findOrNotFound env i what text p) (fun r w => P w ∧ r ∈ w i) := by
  unfold findOrNotFound
  refine Blind.bind uuidOf_confined ?_
  intro id
  refine Blind.bind (findFirst_confined (hp id)) ?_
  intro found
  cases found with
  | none => exact Blind.throw
  | some r => exact Blind.pure (fun _ h => ⟨h.1, (h.2 r rfl).1⟩)

theorem throwIf_confined {bad : Prop} [Decidable bad] {failure : Failure} :
    Confined env ctx P (throwIf bad failure) (fun _ => P) := by
  unfold throwIf
  split
  · exact Blind.throw
  · exact Blind.pure (fun _ h => h)

theorem create_confined (hr : i.tenantId r = some ctx.tenantId)
    (hnew : ∀ w, Others env ctx w → ∀ r' ∈ w i, i.key r' ≠ i.key r) :
    Confined env ctx P (Prisma.create i r) (fun _ _ => True) := by
  refine create_blind hr ?_
  intro w hw hk
  obtain ⟨r', hr', he⟩ := List.mem_map.mp hk
  exact hnew w hw r' hr' he

theorem update_confined {f : i.Row → i.Row} {hf : ∀ r, i.key (f r) = i.key r}
    (ho : ∀ r, i.tenantId (f r) = i.tenantId r) (hr : ∀ w, P w → r ∈ w i) :
    Confined env ctx P (Prisma.update i (i.key r) f hf) (fun _ _ => True) :=
  update_blind ho (fun w h => ⟨r, hr w h, rfl⟩)

theorem record_confined {action resourceType resourceId : String}
    {beforeData afterData : Option AuditData} :
    Confined env ctx P
      (AuditService.record env ctx action resourceType resourceId beforeData afterData)
      (fun _ _ => True) := by
  unfold AuditService.record
  refine Blind.bind (create_confined rfl (fun _ hw => hw.audit)) ?_
  intro _
  exact Blind.pure (fun _ _ => trivial)

theorem record_then {action resourceType resourceId : String}
    {beforeData afterData : Option AuditData} {a : α} :
    Confined env ctx P
      (do
        AuditService.record env ctx action resourceType resourceId beforeData afterData
        return a)
      (fun _ _ => True) :=
  Blind.bind record_confined (fun _ => Blind.pure (fun _ _ => trivial))

theorem listHosts_confined : Confined env ctx P (HostsController.list ctx) (fun _ _ => True) := by
  unfold HostsController.list
  exact findMany_then (by simp)

theorem getHost_confined {id : String} :
    Confined env ctx P (HostsController.get env ctx id) (fun _ _ => True) := by
  unfold HostsController.get
  exact (findOrNotFound_confined (by simp)).forget

theorem createHost_confined {body : Option Js.Json} :
    Confined env ctx P (HostsController.create env ctx body) (fun _ _ => True) := by
  unfold HostsController.create
  refine Blind.bind parse_confined ?_
  intro input
  refine Blind.bind (findFirst_confined (by simp +contextual)) ?_
  intro same
  refine Blind.bind throwIf_confined ?_
  intro _
  refine Blind.bind (create_confined rfl (fun _ hw => hw.host)) ?_
  intro created
  exact record_then

theorem listIncidents_confined :
    Confined env ctx P (IncidentsController.list ctx) (fun _ _ => True) := by
  unfold IncidentsController.list
  exact findMany_then (by simp)

theorem resourceHost_confined {rid : String} :
    Confined env ctx P (resourceHost env ctx rid) (fun _ _ => True) := by
  unfold resourceHost
  split
  · exact (findFirst_confined (by simp +contextual)).forget
  · refine Blind.bind uuidOf_confined ?_
    intro id
    exact (findFirst_confined (by simp +contextual)).forget

theorem getIncident_confined {id : String} :
    Confined env ctx P (IncidentsController.get env ctx id) (fun _ _ => True) := by
  unfold IncidentsController.get
  refine Blind.bind (findOrNotFound_confined (by simp)) ?_
  intro incident
  split
  · exact Blind.pure (fun _ _ => trivial)
  · exact Blind.pure (fun _ _ => trivial)
  · refine Blind.bind resourceHost_confined ?_
    intro host
    cases host with
    | none => exact Blind.pure (fun _ _ => trivial)
    | some host => exact Blind.pure (fun _ _ => trivial)

theorem timeline_confined {id : String} :
    Confined env ctx P (IncidentsController.timeline env ctx id) (fun _ _ => True) := by
  unfold IncidentsController.timeline
  refine Blind.bind (findOrNotFound_confined (by simp)) ?_
  intro incident
  exact findMany_then (by simp)

theorem recordOperation_confined {incident : Incident} {f : Incident → Incident}
    {hf : ∀ r, (f r).id = r.id} {entryType : Incidents.EntryType} {payload : Option Js.Json}
    (ho : ∀ r, (f r).tenantId = r.tenantId) (hin : ∀ w, P w → incident ∈ w .incidents) :
    Confined env ctx P
      (recordOperation env ctx incident f hf entryType payload) (fun _ _ => True) := by
  unfold recordOperation
  apply Blind.transaction
  refine Blind.bind (update_confined (i := .incidents) (fun r => congrArg some (ho r)) hin) ?_
  intro u
  refine Blind.bind (create_confined rfl (fun _ hw => hw.timeline)) ?_
  intro _
  exact Blind.pure (fun _ _ => trivial)

theorem acknowledge_confined {id : String} {body : Option Js.Json} :
    Confined env ctx P (IncidentsController.acknowledge env ctx id body) (fun _ _ => True) := by
  unfold IncidentsController.acknowledge
  refine Blind.bind parse_confined ?_
  intro note
  refine Blind.bind (findOrNotFound_confined (by simp)) ?_
  intro incident
  refine Blind.bind throwIf_confined ?_
  intro _
  refine Blind.bind (recordOperation_confined (by intro _; rfl) (fun _ h => h.2)) ?_
  intro updated
  exact record_then

theorem resolve_confined {id : String} {body : Option Js.Json} :
    Confined env ctx P (IncidentsController.resolve env ctx id body) (fun _ _ => True) := by
  unfold IncidentsController.resolve
  refine Blind.bind parse_confined ?_
  intro note
  refine Blind.bind (findOrNotFound_confined (by simp)) ?_
  intro incident
  refine Blind.bind throwIf_confined ?_
  intro _
  refine Blind.bind (recordOperation_confined (by intro _; rfl) (fun _ h => h.2)) ?_
  intro updated
  exact record_then

theorem reopen_confined {id : String} :
    Confined env ctx P (IncidentsController.reopen env ctx id) (fun _ _ => True) := by
  unfold IncidentsController.reopen
  refine Blind.bind (findOrNotFound_confined (by simp)) ?_
  intro incident
  refine Blind.bind (recordOperation_confined (by intro _; rfl) (fun _ h => h.2)) ?_
  intro updated
  exact record_then

theorem listAgents_confined :
    Confined env ctx P (AgentsController.list ctx) (fun _ _ => True) := by
  unfold AgentsController.list
  exact findMany_then (by simp)

/-- The look for a hash covers all tenants, of which the others have none. -/
theorem findHash_confined : Confined env ctx P
    (Prisma.findFirst .agentEnrollmentTokens (fun r =>
      r.tokenHash = env.sha256 ("enr_" ++ env.randomHex))) (fun _ => P) := by
  refine (findFirst_blind ?_).weaken (fun _ h => h) (fun _ _ h => h.1)
  intro w hw r hr hp
  exact hw.tokenHash r hr (by simpa using hp)

theorem createToken_confined {body : Option Js.Json} :
    Confined env ctx P (AgentsController.createToken env ctx body) (fun _ _ => True) := by
  unfold AgentsController.createToken
  refine Blind.bind parse_confined ?_
  intro input
  refine Blind.bind (findMany_confined (by simp +contextual)) ?_
  intro pending
  refine Blind.bind throwIf_confined ?_
  intro _
  refine Blind.bind findHash_confined ?_
  intro same
  refine Blind.bind throwIf_confined ?_
  intro _
  refine Blind.bind (create_confined rfl (fun _ hw => hw.token)) ?_
  intro created
  exact record_then

theorem revoke_confined {id : String} :
    Confined env ctx P (AgentsController.revoke env ctx id) (fun _ _ => True) := by
  unfold AgentsController.revoke
  refine Blind.bind (findOrNotFound_confined (by simp)) ?_
  intro agent
  refine Blind.bind (update_confined (i := .agents) (by intro _; rfl) (fun _ h => h.2)) ?_
  intro updated
  exact record_then

theorem parseQuery_confined {message : String} {parsed : Zod.Parsed α} :
    Confined env ctx P (parseQuery message parsed) (fun _ => P) := by
  cases parsed with
  | ok a => exact Blind.pure (fun _ h => h)
  | error issues => exact Blind.throw

theorem findHost_confined {id : String} :
    Confined env ctx P (findHost env ctx id) (fun r w => P w ∧ r ∈ w .hosts) :=
  findOrNotFound_confined (by simp)

theorem orInternal_confined {v : Option α} :
    Confined env ctx P (orInternal v) (fun _ => P) := by
  cases v with
  | some a => exact Blind.pure (fun _ h => h)
  | none => exact Blind.throw

theorem series_confined {id : String} {query : Option Js.Json} :
    Confined env ctx P (MetricsController.series env ctx id query) (fun _ _ => True) := by
  unfold MetricsController.series
  refine Blind.bind parseQuery_confined ?_
  intro q
  refine Blind.bind findHost_confined ?_
  intro host
  refine Blind.bind throwIf_confined ?_
  intro _
  refine Blind.bind orInternal_confined ?_
  intro b
  exact findMany_then (by simp +contextual [picked])

theorem containers_confined {id : String} :
    Confined env ctx P (MetricsController.containers env ctx id) (fun _ _ => True) := by
  unfold MetricsController.containers
  refine Blind.bind findHost_confined ?_
  intro host
  exact findMany_then (by simp +contextual)

theorem filesystems_confined {id : String} :
    Confined env ctx P (MetricsController.filesystems env ctx id) (fun _ _ => True) := by
  unfold MetricsController.filesystems
  refine Blind.bind findHost_confined ?_
  intro host
  exact findMany_then (by simp +contextual)

theorem longSeries_confined {id : String} {query : Option Js.Json} :
    Confined env ctx P (MetricsController.longSeries env ctx id query) (fun _ _ => True) := by
  unfold MetricsController.longSeries
  refine Blind.bind parseQuery_confined ?_
  intro q
  refine Blind.bind findHost_confined ?_
  intro host
  refine Blind.bind throwIf_confined ?_
  intro _
  exact findMany_then (by simp +contextual)

theorem bumpSequence_confined :
    Confined env ctx P (bumpSequence ctx) (fun _ _ => True) := by
  unfold bumpSequence
  refine Blind.bind (findFirst_confined (by simp)) ?_
  intro found
  cases found with
  | none =>
    refine Blind.bind (create_confined rfl (fun _ hw => hw.sequence)) ?_
    intro created
    exact Blind.pure (fun _ _ => trivial)
  | some r =>
    refine Blind.bind throwIf_confined ?_
    intro _
    refine Blind.bind (Q := fun _ _ => True) (update_blind (by intro _; rfl) ?_) ?_
    · intro w h
      obtain ⟨hr, hp⟩ := h.2 r rfl
      exact ⟨r, hr, of_decide_eq_true hp⟩
    · intro bumped
      exact Blind.pure (fun _ _ => trivial)

theorem mapM_confined {β : Type} {f : α → Handler β} {o : Option α}
    (hf : ∀ a, Confined env ctx P (f a) (fun _ => P)) :
    Confined env ctx P (o.mapM f) (fun _ => P) := by
  cases o with
  | none => exact Blind.pure (fun _ h => h)
  | some a =>
    refine Blind.bind (hf a) ?_
    intro b
    exact Blind.pure (fun _ h => h)

theorem createTicket_confined {body : Option Js.Json} :
    Confined env ctx P (TicketsController.create env ctx body) (fun _ _ => True) := by
  unfold TicketsController.create
  refine Blind.bind parse_confined ?_
  intro input
  refine Blind.bind (Q := fun _ _ => True)
    (Blind.transaction (Blind.bind bumpSequence_confined ?_)) ?_
  · intro number
    refine Blind.bind (mapM_confined (fun _ => uuidOf_confined)) ?_
    intro incidentId
    refine Blind.bind (findFirst_confined (by simp +contextual)) ?_
    intro same
    refine Blind.bind throwIf_confined ?_
    intro _
    exact create_confined rfl (fun _ hw => hw.ticket)
  · intro created
    exact record_then

theorem getTicket_confined {id : String} :
    Confined env ctx P (TicketsController.get env ctx id) (fun _ _ => True) := by
  unfold TicketsController.get
  refine Blind.bind (findOrNotFound_confined (by simp)) ?_
  intro ticket
  exact findMany_then (by simp)

theorem patchTicket_confined {id : String} {body : Option Js.Json} :
    Confined env ctx P (TicketsController.patch env ctx id body) (fun _ _ => True) := by
  unfold TicketsController.patch
  refine Blind.bind parse_confined ?_
  intro input
  refine Blind.bind (findOrNotFound_confined (by simp)) ?_
  intro ticket
  refine Blind.bind (update_confined (i := .supportTickets) (by intro _; rfl) (fun _ h => h.2)) ?_
  intro updated
  exact record_then

theorem comment_confined {id : String} {body : Option Js.Json} :
    Confined env ctx P (TicketsController.comment env ctx id body) (fun _ _ => True) := by
  unfold TicketsController.comment
  refine Blind.bind parse_confined ?_
  intro text
  refine Blind.bind (findOrNotFound_confined (by simp)) ?_
  intro ticket
  refine Blind.bind (create_confined rfl (fun _ hw => hw.comment)) ?_
  intro created
  exact record_then

theorem checkAssignee_confined {assigneeId : String} :
    Confined env ctx P (checkAssignee env ctx assigneeId) (fun _ => P) := by
  unfold checkAssignee
  refine Blind.bind uuidOf_confined ?_
  intro userId
  refine Blind.bind (findFirst_confined (by simp +contextual)) ?_
  intro member
  refine Blind.bind throwIf_confined ?_
  intro _
  exact Blind.pure (fun _ h => h.1)

theorem assign_confined {id : String} {body : Option Js.Json} :
    Confined env ctx P (TicketsController.assign env ctx id body) (fun _ _ => True) := by
  unfold TicketsController.assign
  refine Blind.bind parse_confined ?_
  intro assigneeId
  refine Blind.bind (findOrNotFound_confined (by simp)) ?_
  intro ticket
  refine Blind.bind (mapM_confined (fun _ => checkAssignee_confined)) ?_
  intro checked
  refine Blind.bind (update_confined (i := .supportTickets) (by intro _; rfl) (fun _ h => h.2)) ?_
  intro updated
  exact record_then

theorem transition_confined {id : String} {body : Option Js.Json} :
    Confined env ctx P (TicketsController.transition env ctx id body) (fun _ _ => True) := by
  unfold TicketsController.transition
  refine Blind.bind parse_confined ?_
  intro input
  refine Blind.bind (findOrNotFound_confined (by simp)) ?_
  intro ticket
  refine Blind.bind throwIf_confined ?_
  intro _
  refine Blind.bind (Q := fun _ _ => True) (Blind.transaction
    (Blind.bind (update_confined (i := .supportTickets) (by intro _; rfl) (fun _ h => h.2)) ?_)) ?_
  · intro u
    refine Blind.bind (create_confined rfl (fun _ hw => hw.comment)) ?_
    intro _
    exact Blind.pure (fun _ _ => trivial)
  · intro updated
    exact record_then

end WaOps.Api
