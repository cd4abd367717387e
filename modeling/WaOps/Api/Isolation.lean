import WaOps.Api.Confined

namespace WaOps.Api
open Lib Lib.Scoped Lib.Tables Lib.Sorting
open Gateway (AgentStatus)

/-- The requests of the five controllers; ids, bodies and queries are the client's. -/
inductive Request where
  | listHosts
  | getHost (id : String)
  | createHost (body : Option Js.Json)
  | listIncidents
  | getIncident (id : String)
  | incidentTimeline (id : String)
  | acknowledgeIncident (id : String) (body : Option Js.Json)
  | resolveIncident (id : String) (body : Option Js.Json)
  | reopenIncident (id : String)
  | metrics (id : String) (query : Option Js.Json)
  | containers (id : String)
  | filesystems (id : String)
  | longMetrics (id : String) (query : Option Js.Json)
  | listAgents
  | createToken (body : Option Js.Json)
  | revokeAgent (id : String)
  | listTickets
  | createTicket (body : Option Js.Json)
  | getTicket (id : String)
  | patchTicket (id : String) (body : Option Js.Json)
  | commentTicket (id : String) (body : Option Js.Json)
  | assignTicket (id : String) (body : Option Js.Json)
  | transitionTicket (id : String) (body : Option Js.Json)

inductive Answer where
  | hosts (hosts : List Host)
  | host (host : Host)
  | incidents (incidents : List Incident)
  | incidentDetail (detail : Incident × Option PrimaryResource)
  | timeline (entries : List IncidentTimelineEntry)
  | incident (incident : Incident)
  | series (answer : SeriesAnswer)
  | containers (containers : List ContainerItem)
  | filesystems (answer : String × List FilesystemItem)
  | longSeries (answer : LongSeriesAnswer)
  | agents (agents : List AgentItem)
  | token (answer : TokenAnswer)
  | revoked (agent : String × AgentStatus)
  | tickets (tickets : List (SupportTicket × List SupportTicketComment))
  | ticket (ticket : SupportTicket)
  | ticketDetail (detail : SupportTicket × List SupportTicketComment)
  | comment (comment : SupportTicketComment)

variable (env : Env) (ctx : Caller)

def handle : Request → Handler Answer
  | .listHosts => .hosts <$> HostsController.list ctx
  | .getHost id => .host <$> HostsController.get env ctx id
  | .createHost body => .host <$> HostsController.create env ctx body
  | .listIncidents => .incidents <$> IncidentsController.list ctx
  | .getIncident id => .incidentDetail <$> IncidentsController.get env ctx id
  | .incidentTimeline id => .timeline <$> IncidentsController.timeline env ctx id
  | .acknowledgeIncident id body => .incident <$> IncidentsController.acknowledge env ctx id body
  | .resolveIncident id body => .incident <$> IncidentsController.resolve env ctx id body
  | .reopenIncident id => .incident <$> IncidentsController.reopen env ctx id
  | .metrics id query => .series <$> MetricsController.series env ctx id query
  | .containers id => .containers <$> MetricsController.containers env ctx id
  | .filesystems id => .filesystems <$> MetricsController.filesystems env ctx id
  | .longMetrics id query => .longSeries <$> MetricsController.longSeries env ctx id query
  | .listAgents => .agents <$> AgentsController.list ctx
  | .createToken body => .token <$> AgentsController.createToken env ctx body
  | .revokeAgent id => .revoked <$> AgentsController.revoke env ctx id
  | .listTickets => .tickets <$> TicketsController.list ctx
  | .createTicket body => .ticket <$> TicketsController.create env ctx body
  | .getTicket id => .ticketDetail <$> TicketsController.get env ctx id
  | .patchTicket id body => .ticket <$> TicketsController.patch env ctx id body
  | .commentTicket id body => .comment <$> TicketsController.comment env ctx id body
  | .assignTicket id body => .ticket <$> TicketsController.assign env ctx id body
  | .transitionTicket id body => .ticket <$> TicketsController.transition env ctx id body

/-- The response, an answer or an error envelope, and the store after it. -/
def respond (r : Request) (s : Store) : Except ApiError Answer × Store :=
  let (result, t) := outcome (handle env ctx r) s
  (result.mapError Failure.envelope, t)

/-- Two stores give one response and one change of the tenant's rows. -/
def SameOutcome (r : Request) (s s' : Store) : Prop :=
  (respond env ctx r s).1 = (respond env ctx r s').1 ∧
    own ctx.tenantId (respond env ctx r s).2 = own ctx.tenantId (respond env ctx r s').2

/-- No row of another tenant is changed. -/
def KeepsOthers (r : Request) (s : Store) : Prop :=
  rest ctx.tenantId (respond env ctx r s).2 = rest ctx.tenantId s

def NewIds (s : Store) : Prop := Fresh env (rest ctx.tenantId s)

/-- The tickets TicketsController.list shows. -/
def newestTickets (w : Rows schema) : List SupportTicket :=
  (orderDesc SupportTicket.updatedAt (w .supportTickets)).take 100

def comments (s : Store) : List SupportTicketComment := (s .supportTicketComments).rows

/-- Where tickets are listed, another tenant's comment on one of them is preceded by one of
the tenant's own. -/
def Tidy (r : Request) (s : Store) : Prop :=
  match r with
  | .listTickets => ∀ t ∈ newestTickets (own ctx.tenantId s), ∀ c ∈ comments s,
      c.ticketId = t.id → c.tenantId ≠ ctx.tenantId →
      ∃ c' ∈ comments s, c'.ticketId = t.id ∧ c'.tenantId = ctx.tenantId ∧
        Precedes SupportTicketComment.createdAt (comments s) c' c
  | _ => True

variable {env ctx} {r : Request} {s s' : Store}

theorem map_confined {α β : Type} {P : Rows schema → Prop} {m : Handler α} {f : α → β}
    (h : Confined env ctx P m (fun _ _ => True)) :
    Confined env ctx P (f <$> m) (fun _ _ => True) := by
  rw [map_eq_pure_bind]
  exact Blind.bind h (fun _ => Blind.pure (fun _ _ => trivial))

theorem handle_confined (hr : r ≠ .listTickets) :
    Confined env ctx (fun _ => True) (handle env ctx r) (fun _ _ => True) := by
  cases r with
  | listHosts => exact map_confined listHosts_confined
  | getHost id => exact map_confined getHost_confined
  | createHost body => exact map_confined createHost_confined
  | listIncidents => exact map_confined listIncidents_confined
  | getIncident id => exact map_confined getIncident_confined
  | incidentTimeline id => exact map_confined timeline_confined
  | acknowledgeIncident id body => exact map_confined acknowledge_confined
  | resolveIncident id body => exact map_confined resolve_confined
  | reopenIncident id => exact map_confined reopen_confined
  | metrics id query => exact map_confined series_confined
  | containers id => exact map_confined containers_confined
  | filesystems id => exact map_confined filesystems_confined
  | longMetrics id query => exact map_confined longSeries_confined
  | listAgents => exact map_confined listAgents_confined
  | createToken body => exact map_confined createToken_confined
  | revokeAgent id => exact map_confined revoke_confined
  | listTickets => exact absurd rfl hr
  | createTicket body => exact map_confined createTicket_confined
  | getTicket id => exact map_confined getTicket_confined
  | patchTicket id body => exact map_confined patchTicket_confined
  | commentTicket id body => exact map_confined comment_confined
  | assignTicket id body => exact map_confined assign_confined
  | transitionTicket id body => exact map_confined transition_confined

theorem others_of_new (h : NewIds env ctx s) : Others env ctx (rest ctx.tenantId s) where
  toFresh := h
  sequence _ hr he := owner_rest hr (congrArg some he)

/-- The comments shown with a ticket. -/
def firstComments (comments : List SupportTicketComment) (t : SupportTicket) :
    List SupportTicketComment :=
  (orderAsc SupportTicketComment.createdAt (comments.filter (fun c => c.ticketId = t.id))).take 1

theorem list_outcome : outcome (TicketsController.list ctx) s =
    (.ok ((newestTickets (own ctx.tenantId s)).map (fun t => (t, firstComments (comments s) t))),
      s) := by
  have hown : (s .supportTickets).rows.filter (fun r => r.tenantId = ctx.tenantId) =
      own ctx.tenantId s .supportTickets := by
    apply List.filter_congr
    intro r _
    simp
  simp only [TicketsController.list, Prisma.findMany, Tables.findMany, outcome_bind, outcome_query,
    outcome_pure, hown, newestTickets]
  congr 2
  apply List.map_congr_left
  intro t ht
  -- The comments of a shown ticket are among those looked up for all of them.
  rw [firstComments, comments, List.filter_filter]
  congr 2
  congr 1
  apply List.filter_congr
  intro c _
  by_cases hc : c.ticketId = t.id
  · simp only [hc, decide_true, Bool.true_and, List.any_eq_true]
    exact ⟨t, ht, decide_eq_true rfl⟩
  · simp [hc]

theorem comments_only : comments (only ctx.tenantId s) =
    (comments s).filter (fun c => c.tenantId = ctx.tenantId) := by
  apply List.filter_congr
  intro c _
  simp

theorem firstComments_iff {t : SupportTicket} :
    firstComments (comments s) t = firstComments (comments (only ctx.tenantId s)) t ↔
      ∀ c ∈ comments s, c.ticketId = t.id → c.tenantId ≠ ctx.tenantId →
      ∃ c' ∈ comments s, c'.ticketId = t.id ∧ c'.tenantId = ctx.tenantId ∧
        Precedes SupportTicketComment.createdAt (comments s) c' c := by
  have hn : ((comments s).filter (fun c => c.ticketId = t.id)).Nodup :=
    ((s .supportTicketComments).unique.of_map _).filter _
  have hswap : (comments (only ctx.tenantId s)).filter (fun c => c.ticketId = t.id) =
      ((comments s).filter (fun c => c.ticketId = t.id)).filter
        (fun c => c.tenantId = ctx.tenantId) := by
    rw [comments_only, List.filter_filter, List.filter_filter]
    simp only [Bool.and_comm]
  rw [firstComments, firstComments, hswap, take_one_filter hn]
  constructor
  · intro h c hc ht hother
    obtain ⟨c', hc', hown, hprec⟩ := h c (by simp [hc, ht]) (by simpa using hother)
    obtain ⟨hmem, ht'⟩ := List.mem_filter.mp hc'
    refine ⟨c', hmem, of_decide_eq_true ht', of_decide_eq_true hown, ?_⟩
    exact (precedes_filter (p := fun c => c.ticketId = t.id) ht' (decide_eq_true ht)).mp hprec
  · intro h c hc hother
    obtain ⟨hmem, ht⟩ := List.mem_filter.mp hc
    obtain ⟨c', hc', ht', hown, hprec⟩ := h c hmem (of_decide_eq_true ht) (by simpa using hother)
    refine ⟨c', by simp [hc', ht'], by simp [hown], ?_⟩
    exact (precedes_filter (p := fun c => c.ticketId = t.id) (decide_eq_true ht') ht).mpr hprec

theorem tidy_iff : Tidy ctx .listTickets s ↔ ∀ t ∈ newestTickets (own ctx.tenantId s),
    firstComments (comments s) t = firstComments (comments (only ctx.tenantId s)) t := by
  constructor
  · intro h t ht
    exact firstComments_iff.mpr (h t ht)
  · intro h t ht
    exact firstComments_iff.mp (h t ht)

theorem tidy_only : Tidy ctx r (only ctx.tenantId s) := by
  cases r with
  | listTickets =>
    intro t _ c hc _ hother
    rw [comments_only] at hc
    simp at hc
    exact absurd hc.2 hother
  | _ => trivial

theorem newIds_only : NewIds env ctx (only ctx.tenantId s) := by
  rw [NewIds, rest_only]
  constructor <;> intro r hr <;> cases hr

theorem respond_list : respond env ctx .listTickets s =
    (.ok (.tickets ((newestTickets (own ctx.tenantId s)).map
      (fun t => (t, firstComments (comments s) t)))), s) := by
  simp only [respond, handle, map_eq_pure_bind, outcome_bind, list_outcome, outcome_pure]
  rfl

theorem sameOutcome_list (hv : own ctx.tenantId s = own ctx.tenantId s') :
    SameOutcome env ctx .listTickets s s' ↔ ∀ t ∈ newestTickets (own ctx.tenantId s),
      firstComments (comments s) t = firstComments (comments s') t := by
  simp only [SameOutcome, respond_list, hv, and_true]
  simp

/-- A request of a tenant has one outcome in all stores that agree on the tenant's rows, as
long as the comments on the tickets it lists are in the tenant's own name. -/
theorem isolated_iff_tidy (hnew : NewIds env ctx s) :
    KeepsOthers env ctx r s ∧
        (∀ s', own ctx.tenantId s = own ctx.tenantId s' → NewIds env ctx s' → Tidy ctx r s' →
          SameOutcome env ctx r s s') ↔
      Tidy ctx r s := by
  by_cases hr : r = .listTickets
  · subst hr
    constructor
    · rintro ⟨-, hall⟩
      have hsame := hall (only ctx.tenantId s) own_only.symm newIds_only tidy_only
      exact tidy_iff.mpr ((sameOutcome_list own_only.symm).mp hsame)
    · intro htidy
      refine ⟨by rw [KeepsOthers, respond_list], ?_⟩
      intro s' hv _ htidy'
      apply (sameOutcome_list hv).mpr
      intro t ht
      have hcomments : comments (only ctx.tenantId s) = comments (only ctx.tenantId s') :=
        congrFun hv .supportTicketComments
      rw [tidy_iff.mp htidy t ht, tidy_iff.mp htidy' t (hv ▸ ht), hcomments]
  · have hc : Confined env ctx (fun _ => True) (handle env ctx r) (fun _ _ => True) :=
      handle_confined hr
    constructor
    · intro _
      cases r with
      | listTickets => exact absurd rfl hr
      | _ => trivial
    · intro _
      refine ⟨hc.kept (others_of_new hnew) trivial, ?_⟩
      intro s' hv hnew' _
      obtain ⟨hresult, hown⟩ := hc.agree hv (others_of_new hnew) (others_of_new hnew') trivial
      exact ⟨congrArg (Except.mapError Failure.envelope) hresult, hown⟩

/-- What is asked of every request and any two stores that agree on the tenant's rows. -/
def Isolated (env : Env) (ctx : Caller) : Prop :=
  ∀ r s s', own ctx.tenantId s = own ctx.tenantId s' → NewIds env ctx s → NewIds env ctx s' →
    SameOutcome env ctx r s s' ∧ KeepsOthers env ctx r s ∧ KeepsOthers env ctx r s'

def callerA : Caller :=
  { userId := "user-a"
    tenantId := "a"
    organizationScope := none
    sub := some "user-a"
    requestId := none }

def plainEnv : Env :=
  { now := 1000
    newId := fun _ => "new"
    randomHex := "00"
    sha256 := id
    parseUuid := some
    ofText := fun _ => .nan
    rollupAvailable := true }

def ticketA : SupportTicket :=
  { id := "ticket"
    tenantId := "a"
    organizationId := none
    number := 1
    title := "Disk"
    description := "Full"
    priority := .normal
    requesterId := "user-a"
    incidentId := none
    labels := []
    openSince := 0
    createdAt := 0
    updatedAt := 0 }

def commentBy (tenantId : String) (createdAt : Int) : SupportTicketComment :=
  { id := tenantId
    tenantId
    ticketId := "ticket"
    authorId := tenantId
    body := tenantId
    createdAt }

/-- A store with the one ticket and comments on it. -/
def storeWith (cs : List SupportTicketComment) (h : (cs.map SupportTicketComment.id).Nodup) :
    Store
  | .supportTickets => { rows := [ticketA], unique := by decide }
  | .supportTicketComments => { rows := cs, unique := h }
  | i => { rows := [], unique := List.nodup_nil }

theorem newIds_storeWith {cs : List SupportTicketComment}
    {h : (cs.map SupportTicketComment.id).Nodup} (hnew : ∀ c ∈ cs, c.id ≠ "new") :
    NewIds plainEnv callerA (storeWith cs h) where
  host := by simp [rest, storeWith]
  token := by simp [rest, storeWith]
  tokenHash := by simp [rest, storeWith]
  timeline := by simp [rest, storeWith]
  ticket := by simp [rest, storeWith, ticketA, callerA]
  comment r hr := hnew r (List.mem_filter.mp hr).1
  audit := by simp [rest, storeWith]

theorem later_comment_hidden :
    SameOutcome plainEnv callerA .listTickets
      (storeWith [commentBy "b" 2, commentBy "a" 1] (by decide))
      (storeWith [commentBy "a" 1] (by decide)) := by
  have hnew : NewIds plainEnv callerA (storeWith [commentBy "b" 2, commentBy "a" 1] (by decide)) :=
    newIds_storeWith (by decide)
  have hiff := isolated_iff_tidy (r := .listTickets) hnew
  refine (hiff.mpr (tidy_iff.mpr (by decide))).2 _ ?_ (newIds_storeWith (by decide))
    (tidy_iff.mpr (by decide))
  funext i
  cases i <;> rfl

theorem foreign_comment_shown : ¬ Isolated plainEnv callerA := by
  intro h
  have hv : own callerA.tenantId (storeWith [commentBy "b" 1] (by decide)) =
      own callerA.tenantId (storeWith [] (by decide)) := by
    funext i
    cases i <;> rfl
  have hsame := (h .listTickets _ _ hv (newIds_storeWith (by decide))
    (newIds_storeWith (by decide))).1
  have hshown := (sameOutcome_list hv).mp hsame ticketA (by decide)
  revert hshown
  decide

end WaOps.Api
