import WaOps.Api.Reads

namespace WaOps.Api.Audit
open Lib Lib.Scoped Lib.Programs Lib.Tables

/-- What an audit row says, without its id and the data before and after. -/
structure Entry where
  tenantId : Option String
  actorType : String
  actorId : Option String
  action : String
  resourceType : String
  resourceId : Option String
  requestId : Option String
  createdAt : Int
  deriving DecidableEq, Repr

def entryOf (r : AuditLog) : Entry :=
  { tenantId := r.tenantId
    actorType := r.actorType
    actorId := r.actorId
    action := r.action
    resourceType := r.resourceType
    resourceId := r.resourceId
    requestId := r.requestId
    createdAt := r.createdAt }

def trail (s : Store) : List Entry :=
  (s .auditLogs).rows.map entryOf

/-- The action and the resource type under which a request is recorded; none where it reads. -/
def audited : Request → Option (String × String)
  | .createHost _ => some ("host.create", "host")
  | .acknowledgeIncident _ _ => some ("incident.acknowledge", "incident")
  | .resolveIncident _ _ => some ("incident.resolve", "incident")
  | .reopenIncident _ => some ("incident.reopen", "incident")
  | .createToken _ => some ("agent.enrollment_token.create", "agent_enrollment_token")
  | .revokeAgent _ => some ("agent.revoke", "agent")
  | .createTicket _ => some ("ticket.create", "support_ticket")
  | .patchTicket _ _ => some ("ticket.update", "support_ticket")
  | .commentTicket _ _ => some ("ticket.comment", "support_ticket")
  | .assignTicket _ _ => some ("ticket.assign", "support_ticket")
  | .transitionTicket _ _ => some ("ticket.transition", "support_ticket")
  | _ => none

/-- The resource an answer is about; of a comment its ticket. -/
def resource : Answer → String
  | .host host => host.id
  | .incident incident => incident.id
  | .token answer => answer.tokenId
  | .revoked agent => agent.1
  | .ticket ticket => ticket.id
  | .comment comment => comment.ticketId
  | _ => ""

def entry (now : Int) (ctx : Caller) (what : String × String) (resourceId : String) : Entry :=
  { tenantId := some ctx.tenantId
    actorType := ctx.actorType
    actorId := some (ctx.sub.getD ctx.userId)
    action := what.1
    resourceType := what.2
    resourceId := some resourceId
    requestId := ctx.requestId
    createdAt := now }

def auditRow (env : Env) (ctx : Caller) (what : String × String) (resourceId : String)
    (beforeData afterData : Option AuditData) : AuditLog :=
  { id := env.newId .auditLogs
    tenantId := some ctx.tenantId
    actorType := ctx.actorType
    actorId := some (ctx.sub.getD ctx.userId)
    action := what.1
    resourceType := what.2
    resourceId := some resourceId
    beforeData
    afterData
    requestId := ctx.requestId
    createdAt := env.now }

def NewAuditId (env : Env) (s : Store) : Prop :=
  env.newId .auditLogs ∉ (s .auditLogs).rows.map AuditLog.id

/-- An error has changed nothing, and an answer has added one entry. -/
def Records {α : Type} (env : Env) (ctx : Caller) (what : String × String) (resourceOf : α → String)
    (m : Handler α) : Prop :=
  ∀ s, NewAuditId env s →
    match outcome m s with
    | (.error _, t) => t = s
    | (.ok a, t) => trail t = trail s ++ [entry env.now ctx what (resourceOf a)]

section
variable {env : Env} {ctx : Caller} {what : String × String} {α β : Type} {resourceOf : α → String}
  {m : Handler α} {id : String} {body : Option Js.Json}

theorem Records.check {c : Handler β} {f : β → Handler α} (hc : Reads c)
    (hf : ∀ b, Records env ctx what resourceOf (f b)) :
    Records env ctx what resourceOf (c >>= f) := by
  intro s hs
  have hsame := hc s
  rw [outcome_bind]
  rcases hcs : outcome c s with ⟨e | b, t⟩
  · rw [hcs] at hsame
    exact hsame
  · rw [hcs] at hsame
    cases hsame
    exact hf b _ hs

theorem Records.map {g : α → β} {resourceOf' : β → String}
    (h : Records env ctx what resourceOf m) (hg : ∀ a, resourceOf' (g a) = resourceOf a) :
    Records env ctx what resourceOf' (g <$> m) := by
  intro s hs
  have hm := h s hs
  rw [map_eq_pure_bind, outcome_bind]
  rcases hms : outcome m s with ⟨e | a, t⟩
  · rw [hms] at hm
    exact hm
  · rw [hms] at hm
    simp only [outcome_pure, hg]
    exact hm

theorem record_outcome (resourceId : String) (beforeData afterData : Option AuditData) {s : Store}
    (hs : NewAuditId env s) : ∃ t,
    outcome (AuditService.record env ctx what.1 what.2 resourceId beforeData afterData) s =
      (.ok (), t) ∧ trail t = trail s ++ [entry env.now ctx what resourceId] := by
  have hnew : TableName.auditLogs.key (auditRow env ctx what resourceId beforeData afterData) ∉
      (s .auditLogs).rows.map TableName.auditLogs.key := hs
  have hrecord : AuditService.record env ctx what.1 what.2 resourceId beforeData afterData =
      Prisma.create .auditLogs (auditRow env ctx what resourceId beforeData afterData) >>=
        fun _ => pure () := rfl
  rw [hrecord, outcome_bind, Prisma.create, create_new (S := schema) hnew]
  refine ⟨_, rfl, ?_⟩
  simp only [trail, Function.update_self, Table.insert, List.map_append]
  rfl

/-- A write that touches no audit row, its record and its answer. -/
theorem Records.write {w : Handler β} {g : β → α} {resourceId : β → String}
    {beforeData afterData : β → Option AuditData} (hw : KeepsOnError w)
    (hkept : ∀ rows, Keeps (fun t => t .auditLogs = rows) w)
    (hid : ∀ s b t, outcome w s = (.ok b, t) → resourceOf (g b) = resourceId b) :
    Records env ctx what resourceOf (do
      let b ← w
      AuditService.record env ctx what.1 what.2 (resourceId b) (beforeData b) (afterData b)
      return g b) := by
  intro s hs
  have herror := hw s
  have hrows := hkept (s .auditLogs) s rfl
  rw [outcome_bind]
  rcases hws : outcome w s with ⟨e | b, t⟩
  · rw [hws] at herror
    exact herror e rfl
  · rw [hws] at hrows
    dsimp only at hrows ⊢
    have ht : NewAuditId env t := by rwa [NewAuditId, hrows]
    obtain ⟨u, hu, htrail⟩ := record_outcome (resourceId b) (beforeData b) (afterData b) ht
    rw [outcome_bind, hu]
    simp only [outcome_pure, htrail, hid s b t hws]
    rw [trail, trail, hrows]

theorem update_key {i : TableName} {k : i.Key} {f : i.Row → i.Row} {hf : ∀ r, i.key (f r) = i.key r}
    {s t : Store} {r : i.Row} (h : outcome (Prisma.update i k f hf) s = (.ok r, t)) :
    i.key r = k := by
  obtain ⟨r', hfound, rfl, -⟩ := update_answers h
  have hkey := List.find?_some hfound
  rw [hf]
  simpa using hkey

theorem createHost_records : Records env ctx ("host.create", "host") Host.id
    (HostsController.create env ctx body) := by
  unfold HostsController.create
  refine Records.check parse_reads fun input => Records.check findFirst_reads fun same => ?_
  refine Records.check throwIf_reads fun _ => ?_
  exact Records.write create_keepsOnError (fun _ => create_elsewhere (by decide))
    (fun _ _ _ _ => rfl)

theorem recordOperation_id {incident : Incident} {f : Incident → Incident}
    {hf : ∀ r, (f r).id = r.id} {entryType : Incidents.EntryType} {payloadJson : Option Js.Json}
    {s t : Store} {r : Incident}
    (h : outcome (recordOperation env ctx incident f hf entryType payloadJson) s = (.ok r, t)) :
    r.id = incident.id := by
  obtain ⟨u, s₁, hupdate, hcreate⟩ := bind_ok (transaction_ok h)
  obtain ⟨_, s₂, -, hanswer⟩ := bind_ok hcreate
  cases hanswer
  exact update_key hupdate

theorem acknowledge_records : Records env ctx ("incident.acknowledge", "incident") Incident.id
    (IncidentsController.acknowledge env ctx id body) := by
  unfold IncidentsController.acknowledge
  refine Records.check parse_reads fun note => Records.check findOrNotFound_reads fun incident => ?_
  refine Records.check throwIf_reads fun _ => ?_
  exact Records.write KeepsOnError.transaction (fun _ => recordOperation_elsewhere)
    (fun _ _ _ => recordOperation_id)

theorem resolve_records : Records env ctx ("incident.resolve", "incident") Incident.id
    (IncidentsController.resolve env ctx id body) := by
  unfold IncidentsController.resolve
  refine Records.check parse_reads fun note => Records.check findOrNotFound_reads fun incident => ?_
  refine Records.check throwIf_reads fun _ => ?_
  exact Records.write KeepsOnError.transaction (fun _ => recordOperation_elsewhere)
    (fun _ _ _ => recordOperation_id)

theorem reopen_records : Records env ctx ("incident.reopen", "incident") Incident.id
    (IncidentsController.reopen env ctx id) := by
  unfold IncidentsController.reopen
  refine Records.check findOrNotFound_reads fun incident => ?_
  exact Records.write KeepsOnError.transaction (fun _ => recordOperation_elsewhere)
    (fun _ _ _ => recordOperation_id)

theorem createToken_records : Records env ctx
    ("agent.enrollment_token.create", "agent_enrollment_token") TokenAnswer.tokenId
    (AgentsController.createToken env ctx body) := by
  unfold AgentsController.createToken
  refine Records.check parse_reads fun input => Records.check findMany_reads fun pending => ?_
  refine Records.check throwIf_reads fun _ => Records.check findFirst_reads fun same => ?_
  refine Records.check throwIf_reads fun _ => ?_
  exact Records.write create_keepsOnError (fun _ => create_elsewhere (by decide))
    (fun _ _ _ _ => rfl)

theorem revoke_records : Records env ctx ("agent.revoke", "agent") Prod.fst
    (AgentsController.revoke env ctx id) := by
  unfold AgentsController.revoke
  refine Records.check findOrNotFound_reads fun agent => ?_
  exact Records.write update_keepsOnError (fun _ => update_elsewhere (by decide))
    (fun _ _ _ => update_key)

theorem createTicket_records : Records env ctx ("ticket.create", "support_ticket") SupportTicket.id
    (TicketsController.create env ctx body) := by
  unfold TicketsController.create
  refine Records.check parse_reads fun input => ?_
  refine Records.write KeepsOnError.transaction (fun _ => ?_) (fun _ _ _ _ => rfl)
  refine Keeps.transaction (Keeps.bind (bumpSequence_elsewhere (by decide)) fun number => ?_)
  exact Keeps.bind optionUuid_reads.keeps fun _ => createUnique_elsewhere (by decide)

theorem patch_records : Records env ctx ("ticket.update", "support_ticket") SupportTicket.id
    (TicketsController.patch env ctx id body) := by
  unfold TicketsController.patch
  refine Records.check parse_reads fun input => Records.check findOrNotFound_reads fun ticket => ?_
  exact Records.write update_keepsOnError (fun _ => update_elsewhere (by decide))
    (fun _ _ _ => update_key)

theorem comment_records : Records env ctx ("ticket.comment", "support_ticket")
    SupportTicketComment.ticketId (TicketsController.comment env ctx id body) := by
  unfold TicketsController.comment
  refine Records.check parse_reads fun text => Records.check findOrNotFound_reads fun ticket => ?_
  refine Records.write create_keepsOnError (fun _ => create_elsewhere (by decide)) ?_
  intro s c t h
  obtain ⟨-, rfl, -⟩ := create_answers h
  rfl

theorem assign_records : Records env ctx ("ticket.assign", "support_ticket") SupportTicket.id
    (TicketsController.assign env ctx id body) := by
  unfold TicketsController.assign
  refine Records.check parse_reads fun assigneeId => ?_
  refine Records.check findOrNotFound_reads fun ticket => Records.check assignee_reads fun _ => ?_
  exact Records.write update_keepsOnError (fun _ => update_elsewhere (by decide))
    (fun _ _ _ => update_key)

theorem transition_records : Records env ctx ("ticket.transition", "support_ticket")
    SupportTicket.id (TicketsController.transition env ctx id body) := by
  unfold TicketsController.transition
  refine Records.check parse_reads fun input => Records.check findOrNotFound_reads fun ticket => ?_
  refine Records.check throwIf_reads fun _ => ?_
  refine Records.write KeepsOnError.transaction (fun _ => ?_) ?_
  · refine Keeps.transaction (Keeps.bind (update_elsewhere (by decide)) fun u => ?_)
    exact Keeps.bind (create_elsewhere (by decide)) fun _ => Keeps.pure
  · intro s u t h
    obtain ⟨u', s₁, hupdate, hcreate⟩ := bind_ok (transaction_ok h)
    obtain ⟨_, s₂, -, hanswer⟩ := bind_ok hcreate
    cases hanswer
    exact update_key hupdate

/-- A request that is not recorded reads. -/
theorem unrecorded_reads {r : Request} (h : audited r = none) : Reads (handle env ctx r) := by
  cases r with
  | listHosts => exact map_reads (Reads.bind findMany_reads fun _ => pure_reads)
  | getHost id => exact map_reads findOrNotFound_reads
  | listIncidents => exact map_reads (Reads.bind findMany_reads fun _ => pure_reads)
  | getIncident id => exact map_reads getIncident_reads
  | incidentTimeline id =>
    exact map_reads (Reads.bind findOrNotFound_reads fun _ =>
      Reads.bind findMany_reads fun _ => pure_reads)
  | metrics id query => exact map_reads series_reads
  | containers id =>
    exact map_reads (Reads.bind findOrNotFound_reads fun _ =>
      Reads.bind findMany_reads fun _ => pure_reads)
  | filesystems id =>
    exact map_reads (Reads.bind findOrNotFound_reads fun _ =>
      Reads.bind findMany_reads fun _ => pure_reads)
  | longMetrics id query => exact map_reads longSeries_reads
  | listAgents => exact map_reads (Reads.bind findMany_reads fun _ => pure_reads)
  | listTickets =>
    exact map_reads (Reads.bind findMany_reads fun _ => Reads.bind findMany_reads fun _ =>
      pure_reads)
  | getTicket id =>
    exact map_reads (Reads.bind findOrNotFound_reads fun _ =>
      Reads.bind findMany_reads fun _ => pure_reads)
  | _ => cases h

/-- A request that is recorded ends in an error that has changed nothing, or adds one entry. -/
theorem handle_records {r : Request} (h : audited r = some what) :
    Records env ctx what resource (handle env ctx r) := by
  cases r with
  | createHost body => cases h; exact createHost_records.map fun _ => rfl
  | acknowledgeIncident id body => cases h; exact acknowledge_records.map fun _ => rfl
  | resolveIncident id body => cases h; exact resolve_records.map fun _ => rfl
  | reopenIncident id => cases h; exact reopen_records.map fun _ => rfl
  | createToken body => cases h; exact createToken_records.map fun _ => rfl
  | revokeAgent id => cases h; exact revoke_records.map fun _ => rfl
  | createTicket body => cases h; exact createTicket_records.map fun _ => rfl
  | patchTicket id body => cases h; exact patch_records.map fun _ => rfl
  | commentTicket id body => cases h; exact comment_records.map fun _ => rfl
  | assignTicket id body => cases h; exact assign_records.map fun _ => rfl
  | transitionTicket id body => cases h; exact transition_records.map fun _ => rfl
  | _ => cases h

/-- The entries of a response. -/
def entriesOf (now : Int) (ctx : Caller) (r : Request) : Except ApiError Answer → List Entry
  | .ok answer => (audited r).toList.map (fun what => entry now ctx what (resource answer))
  | .error _ => []

/-- A response adds its entries, and a store that changes has some. -/
theorem respond_records (env : Env) (ctx : Caller) (r : Request) {s : Store}
    (hs : NewAuditId env s) :
    trail (respond env ctx r s).2 =
        trail s ++ entriesOf env.now ctx r (respond env ctx r s).1 ∧
      ((respond env ctx r s).2 ≠ s → entriesOf env.now ctx r (respond env ctx r s).1 ≠ []) := by
  unfold respond
  cases hr : audited r with
  | none =>
    have hreads : (outcome (handle env ctx r) s).2 = s := unrecorded_reads hr s
    rcases hout : outcome (handle env ctx r) s with ⟨e | answer, t⟩
    all_goals
      rw [hout] at hreads
      cases hreads
      simp [entriesOf, Except.mapError, hr]
  | some what =>
    have hrecords := (handle_records hr : Records env ctx what resource (handle env ctx r)) s hs
    rcases hout : outcome (handle env ctx r) s with ⟨e | answer, t⟩
    · rw [hout] at hrecords
      cases hrecords
      simp [entriesOf, Except.mapError]
    · rw [hout] at hrecords
      simp [entriesOf, Except.mapError, hr, hrecords]

end

end WaOps.Api.Audit
