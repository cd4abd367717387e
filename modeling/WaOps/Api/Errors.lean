import WaOps.Api.Isolation
import WaOps.Lib.Errors

namespace WaOps.Api
open Lib Lib.Scoped Lib.Errors Lib.Tables

def isShown (status : Nat) : Prop := 400 ≤ status ∧ status ≠ 401

instance (status : Nat) : Decidable (isShown status) := inferInstanceAs (Decidable (_ ∧ _))

/-- The envelope of a failure has an error status other than 401. -/
def Failure.Shown (failure : Failure) : Prop := isShown failure.envelope.status

abbrev Fails {α : Type} (m : Handler α) : Prop := Throws Failure.Shown m

section
variable {env : Env} {ctx : Caller} {α : Type} {id : String} {body : Option Js.Json}

theorem zod_shown (issues : List Zod.Issue) : (Failure.zod issues).Shown :=
  show isShown 400 by decide

theorem internal_shown : Failure.internal.Shown :=
  show isShown 500 by decide

theorem notFound_shown (what : String) : (Failure.api (.notFound what)).Shown :=
  show isShown 404 by decide

theorem validation_shown (message : String) (details : Option ErrorDetails) :
    (Failure.api (.validation message details)).Shown :=
  show isShown 400 by decide

theorem conflict_shown (message : String) : (Failure.api (.conflict message)).Shown :=
  show isShown 409 by decide

theorem quotaExceeded_shown (metricKey : String) (limit : Nat) :
    (Failure.api (.quotaExceeded metricKey limit)).Shown :=
  show isShown 402 by decide

theorem parse_fails {parsed : Zod.Parsed α} : Fails (parse parsed) := by
  cases parsed with
  | ok a => exact Throws.pure
  | error issues => exact Throws.throw (zod_shown issues)

theorem parseQuery_fails {message : String} {parsed : Zod.Parsed α} :
    Fails (parseQuery message parsed) := by
  cases parsed with
  | ok a => exact Throws.pure
  | error issues => exact Throws.throw (validation_shown message _)

theorem throwIf_fails {bad : Prop} [Decidable bad] {failure : Failure} (h : failure.Shown) :
    Fails (throwIf bad failure) := by
  unfold throwIf
  split
  · exact Throws.throw h
  · exact Throws.pure

theorem uuidOf_fails {text : String} : Fails (uuidOf env text) := by
  unfold uuidOf
  split
  · exact Throws.pure
  · exact Throws.throw internal_shown

theorem findOrNotFound_fails {i : TableName} {what : String} {p : String → i.Row → Bool} :
    Fails (findOrNotFound env i what id p) := by
  refine Throws.bind uuidOf_fails fun id => Throws.bind Throws.query fun found => ?_
  cases found with
  | some r => exact Throws.pure
  | none => exact Throws.throw (notFound_shown what)

theorem create_fails {i : TableName} {r : i.Row} : Fails (Prisma.create i r) :=
  create_throws (S := schema) internal_shown r

theorem update_fails {i : TableName} {k : i.Key} {f : i.Row → i.Row}
    {hf : ∀ r, i.key (f r) = i.key r} : Fails (Prisma.update i k f hf) :=
  update_throws (S := schema) internal_shown k f hf

theorem record_fails {action resourceType resourceId : String}
    {beforeData afterData : Option AuditData} :
    Fails (AuditService.record env ctx action resourceType resourceId beforeData afterData) :=
  Throws.bind create_fails fun _ => Throws.pure

/-- The record of a write and its answer. -/
theorem recorded_fails {action resourceType resourceId : String}
    {beforeData afterData : Option AuditData} {a : α} :
    Fails (do
      AuditService.record env ctx action resourceType resourceId beforeData afterData
      return a) :=
  Throws.bind record_fails fun _ => Throws.pure

theorem listHosts_fails : Fails (HostsController.list ctx) :=
  Throws.bind Throws.query fun _ => Throws.pure

theorem createHost_fails : Fails (HostsController.create env ctx body) := by
  refine Throws.bind parse_fails fun input => Throws.bind Throws.query fun same => ?_
  refine Throws.bind (throwIf_fails internal_shown) fun _ => ?_
  exact Throws.bind create_fails fun created => recorded_fails

theorem listIncidents_fails : Fails (IncidentsController.list ctx) :=
  Throws.bind Throws.query fun _ => Throws.pure

theorem resourceHost_fails {rid : String} : Fails (resourceHost env ctx rid) := by
  unfold resourceHost
  split
  · exact Throws.query
  · exact Throws.bind uuidOf_fails fun _ => Throws.query

theorem getIncident_fails : Fails (IncidentsController.get env ctx id) := by
  refine Throws.bind findOrNotFound_fails fun incident => ?_
  split
  · exact Throws.pure
  · exact Throws.pure
  · refine Throws.bind resourceHost_fails fun host => ?_
    cases host with
    | some host => exact Throws.pure
    | none => exact Throws.pure

theorem timeline_fails : Fails (IncidentsController.timeline env ctx id) :=
  Throws.bind findOrNotFound_fails fun _ => Throws.bind Throws.query fun _ => Throws.pure

theorem recordOperation_fails {incident : Incident} {f : Incident → Incident}
    {hf : ∀ r, (f r).id = r.id} {entryType : Incidents.EntryType} {payloadJson : Option Js.Json} :
    Fails (recordOperation env ctx incident f hf entryType payloadJson) := by
  refine Throws.transaction (Throws.bind update_fails fun u => ?_)
  exact Throws.bind create_fails fun _ => Throws.pure

theorem acknowledge_fails : Fails (IncidentsController.acknowledge env ctx id body) := by
  refine Throws.bind parse_fails fun note => Throws.bind findOrNotFound_fails fun incident => ?_
  refine Throws.bind (throwIf_fails (conflict_shown _)) fun _ => ?_
  exact Throws.bind recordOperation_fails fun updated => recorded_fails

theorem resolve_fails : Fails (IncidentsController.resolve env ctx id body) := by
  refine Throws.bind parse_fails fun note => Throws.bind findOrNotFound_fails fun incident => ?_
  refine Throws.bind (throwIf_fails (conflict_shown _)) fun _ => ?_
  exact Throws.bind recordOperation_fails fun updated => recorded_fails

theorem reopen_fails : Fails (IncidentsController.reopen env ctx id) := by
  refine Throws.bind findOrNotFound_fails fun incident => ?_
  exact Throws.bind recordOperation_fails fun updated => recorded_fails

theorem series_fails {query : Option Js.Json} :
    Fails (MetricsController.series env ctx id query) := by
  refine Throws.bind parseQuery_fails fun q => Throws.bind findOrNotFound_fails fun host => ?_
  refine Throws.bind (throwIf_fails (validation_shown _ _)) fun _ => Throws.bind ?_ fun b => ?_
  · unfold orInternal
    split
    · exact Throws.pure
    · exact Throws.throw internal_shown
  · exact Throws.bind Throws.query fun _ => Throws.pure

theorem containers_fails : Fails (MetricsController.containers env ctx id) :=
  Throws.bind findOrNotFound_fails fun _ => Throws.bind Throws.query fun _ => Throws.pure

theorem filesystems_fails : Fails (MetricsController.filesystems env ctx id) :=
  Throws.bind findOrNotFound_fails fun _ => Throws.bind Throws.query fun _ => Throws.pure

theorem longSeries_fails {query : Option Js.Json} :
    Fails (MetricsController.longSeries env ctx id query) := by
  refine Throws.bind parseQuery_fails fun q => Throws.bind findOrNotFound_fails fun host => ?_
  have hunavailable : (Failure.api rollupUnavailable).Shown := show isShown 503 by decide
  refine Throws.bind (throwIf_fails hunavailable) fun _ => ?_
  exact Throws.bind Throws.query fun _ => Throws.pure

theorem listAgents_fails : Fails (AgentsController.list ctx) :=
  Throws.bind Throws.query fun _ => Throws.pure

theorem createToken_fails : Fails (AgentsController.createToken env ctx body) := by
  refine Throws.bind parse_fails fun input => Throws.bind Throws.query fun pending => ?_
  refine Throws.bind (throwIf_fails (quotaExceeded_shown _ _)) fun _ => ?_
  refine Throws.bind Throws.query fun same => ?_
  refine Throws.bind (throwIf_fails internal_shown) fun _ => ?_
  exact Throws.bind create_fails fun created => recorded_fails

theorem revoke_fails : Fails (AgentsController.revoke env ctx id) := by
  refine Throws.bind findOrNotFound_fails fun agent => ?_
  exact Throws.bind update_fails fun updated => recorded_fails

theorem listTickets_fails : Fails (TicketsController.list ctx) :=
  Throws.bind Throws.query fun _ => Throws.bind Throws.query fun _ => Throws.pure

theorem bumpSequence_fails : Fails (bumpSequence ctx) := by
  refine Throws.bind Throws.query fun found => ?_
  cases found with
  | some r =>
    refine Throws.bind (throwIf_fails internal_shown) fun _ => ?_
    exact Throws.bind update_fails fun _ => Throws.pure
  | none => exact Throws.bind create_fails fun _ => Throws.pure

theorem mapM_fails {f : String → Handler String} {text : Option String} (h : ∀ a, Fails (f a)) :
    Fails (text.mapM f) := by
  cases text with
  | none => exact Throws.pure
  | some a => exact Throws.bind (h a) fun _ => Throws.pure

theorem createTicket_fails : Fails (TicketsController.create env ctx body) := by
  refine Throws.bind parse_fails fun input => Throws.bind ?_ fun created => recorded_fails
  refine Throws.transaction (Throws.bind bumpSequence_fails fun number => ?_)
  refine Throws.bind (mapM_fails fun _ => uuidOf_fails) fun incidentId => ?_
  refine Throws.bind Throws.query fun same => ?_
  exact Throws.bind (throwIf_fails internal_shown) fun _ => create_fails

theorem getTicket_fails : Fails (TicketsController.get env ctx id) :=
  Throws.bind findOrNotFound_fails fun _ => Throws.bind Throws.query fun _ => Throws.pure

theorem patch_fails : Fails (TicketsController.patch env ctx id body) := by
  refine Throws.bind parse_fails fun input => Throws.bind findOrNotFound_fails fun ticket => ?_
  exact Throws.bind update_fails fun updated => recorded_fails

theorem comment_fails : Fails (TicketsController.comment env ctx id body) := by
  refine Throws.bind parse_fails fun text => Throws.bind findOrNotFound_fails fun ticket => ?_
  exact Throws.bind create_fails fun created => recorded_fails

theorem checkAssignee_fails {assigneeId : String} : Fails (checkAssignee env ctx assigneeId) := by
  refine Throws.bind uuidOf_fails fun userId => Throws.bind Throws.query fun member => ?_
  exact Throws.bind (throwIf_fails (validation_shown _ _)) fun _ => Throws.pure

theorem assign_fails : Fails (TicketsController.assign env ctx id body) := by
  refine Throws.bind parse_fails fun assigneeId => ?_
  refine Throws.bind findOrNotFound_fails fun ticket => ?_
  refine Throws.bind (mapM_fails fun _ => checkAssignee_fails) fun checked => ?_
  exact Throws.bind update_fails fun updated => recorded_fails

theorem transition_fails : Fails (TicketsController.transition env ctx id body) := by
  refine Throws.bind parse_fails fun input => Throws.bind findOrNotFound_fails fun ticket => ?_
  refine Throws.bind (throwIf_fails (conflict_shown _)) fun _ => ?_
  refine Throws.bind (Throws.transaction ?_) fun updated => recorded_fails
  exact Throws.bind update_fails fun u => Throws.bind create_fails fun _ => Throws.pure

end

/-- Whatever the request, an error it is answered has an error status other than 401. -/
theorem respond_shown {env : Env} {ctx : Caller} {r : Request} {s : Store} {e : ApiError}
    (h : (respond env ctx r s).1 = .error e) : isShown e.status := by
  have hfails : Fails (handle env ctx r) := by
    cases r with
    | listHosts => exact Throws.map listHosts_fails
    | getHost id => exact Throws.map findOrNotFound_fails
    | createHost body => exact Throws.map createHost_fails
    | listIncidents => exact Throws.map listIncidents_fails
    | getIncident id => exact Throws.map getIncident_fails
    | incidentTimeline id => exact Throws.map timeline_fails
    | acknowledgeIncident id body => exact Throws.map acknowledge_fails
    | resolveIncident id body => exact Throws.map resolve_fails
    | reopenIncident id => exact Throws.map reopen_fails
    | metrics id query => exact Throws.map series_fails
    | containers id => exact Throws.map containers_fails
    | filesystems id => exact Throws.map filesystems_fails
    | longMetrics id query => exact Throws.map longSeries_fails
    | listAgents => exact Throws.map listAgents_fails
    | createToken body => exact Throws.map createToken_fails
    | revokeAgent id => exact Throws.map revoke_fails
    | listTickets => exact Throws.map listTickets_fails
    | createTicket body => exact Throws.map createTicket_fails
    | getTicket id => exact Throws.map getTicket_fails
    | patchTicket id body => exact Throws.map patch_fails
    | commentTicket id body => exact Throws.map comment_fails
    | assignTicket id body => exact Throws.map assign_fails
    | transitionTicket id body => exact Throws.map transition_fails
  rcases hresult : outcome (handle env ctx r) s with ⟨failure | a, t⟩
  · simp only [respond, hresult] at h
    cases h
    exact hfails s failure (congrArg Prod.fst hresult)
  · simp only [respond, hresult] at h
    cases h

end WaOps.Api
