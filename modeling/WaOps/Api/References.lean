import WaOps.Api.Answers
import WaOps.Api.Failures
import WaOps.Lib.Interleaving

namespace WaOps.Api.References
open Lib Lib.Runs Lib.Scoped Lib.Programs Lib.Tables Lib.Interleaving

/-- The requests of TicketsController that write. -/
inductive TicketOperation where
  | create (body : Option Js.Json)
  | patch (id : String) (body : Option Js.Json)
  | comment (id : String) (body : Option Js.Json)
  | assign (id : String) (body : Option Js.Json)
  | transition (id : String) (body : Option Js.Json)

def TicketOperation.mutation : TicketOperation → Mutation
  | .create body => .createTicket body
  | .patch id body => .patchTicket id body
  | .comment id body => .commentTicket id body
  | .assign id body => .assignTicket id body
  | .transition id body => .transitionTicket id body

structure TicketCall where
  env : Env
  ctx : Caller
  operation : TicketOperation

def TicketCall.steps (x : TicketCall) : Operation Answer :=
  x.operation.mutation.steps x.env x.ctx

/-- The ticket whose assignee the turn sets. -/
def TicketCall.assigns (x : TicketCall) : Site → Bool → Option String
  | .write .supportTickets, true =>
    match x.operation with
    | .assign id _ => x.env.parseUuid id
    | _ => none
  | _, _ => none

def IncidentOf (s : Store) (id tenantId : String) : Prop :=
  ∃ incident ∈ (s .incidents).rows, incident.id = id ∧ incident.tenantId = tenantId

def ActiveMember (s : Store) (userId tenantId : String) : Prop :=
  ∃ m ∈ (s .memberships).rows, m.userId = userId ∧ m.tenantId = tenantId ∧ m.status = "active"

/-- Every ticket names no incident or one of its tenant. -/
def OwnIncidents (s : Store) : Prop :=
  ∀ t ∈ (s .supportTickets).rows, ∀ id, t.incidentId = some id → IncidentOf s id t.tenantId

/-- A user whom the turn makes a ticket's assignee is an active member of its tenant. -/
def AssignsMembers (x : TicketCall) (site : Site) (ok : Bool) (s t : Store) : Prop :=
  ∀ r' ∈ (t .supportTickets).rows, ∀ userId, r'.assigneeId = some userId →
    x.assigns site ok ≠ some r'.id ∧
      (∃ r ∈ (s .supportTickets).rows, r.id = r'.id ∧ r.assigneeId = some userId) ∨
    ActiveMember s userId r'.tenantId

/-- What no ticket operation changes. -/
structure Steady (s t : Store) : Prop where
  memberships : t .memberships = s .memberships
  incidents : t .incidents = s .incidents
  kept : ∀ r ∈ (s .supportTickets).rows, ∃ r' ∈ (t .supportTickets).rows,
    r'.id = r.id ∧ r'.tenantId = r.tenantId

theorem Steady.incidentOf {s t : Store} {id tenantId : String} (h : Steady s t)
    (hs : IncidentOf s id tenantId) : IncidentOf t id tenantId := by
  unfold IncidentOf
  rw [h.incidents]
  exact hs

theorem Steady.activeMember {s t : Store} {userId tenantId : String} (h : Steady s t)
    (hs : ActiveMember s userId tenantId) : ActiveMember t userId tenantId := by
  unfold ActiveMember
  rw [h.memberships]
  exact hs

/-- The incident that a valid body names is one of the caller's tenant. -/
def namesOwn (env : Env) (ctx : Caller) (input : CreateTicket) : Assertion Steady where
  holds s := ∀ id, input.incidentId.mapM env.parseUuid = some (some id) →
    IncidentOf s id ctx.tenantId
  stable _ _ h hs id hid := h.incidentOf (hs id hid)

/-- The ticket of a path is one of the caller's tenant. -/
def ownTicket (env : Env) (ctx : Caller) (id ticketId : String) : Assertion Steady where
  holds s := env.parseUuid id = some ticketId ∧
    ∃ r ∈ (s .supportTickets).rows, r.id = ticketId ∧ r.tenantId = ctx.tenantId
  stable := by
    intro s t h hs
    obtain ⟨hid, r, hr, hkey, htenant⟩ := hs
    obtain ⟨r', hr', hkey', htenant'⟩ := h.kept r hr
    exact ⟨hid, r', hr', hkey'.trans hkey, htenant'.trans htenant⟩

def activeMember (ctx : Caller) (userId : String) : Assertion Steady where
  holds s := ActiveMember s userId ctx.tenantId
  stable _ _ h hs := h.activeMember hs

def TicketCall.assumes (x : TicketCall) : Assertion Steady :=
  match x.operation with
  | .create body =>
    { holds := fun s => ∀ input, CreateTicketSchema (orEmpty body) = .ok input →
        (namesOwn x.env x.ctx input).holds s
      stable := fun s t h hs input hinput => (namesOwn x.env x.ctx input).stable s t h
        (hs input hinput) }
  | _ => .top

structure Allowed (x : TicketCall) (site : Site) (ok : Bool) (s t : Store) : Prop extends
    Steady s t where
  own : x.assumes.holds s → OwnIncidents s → OwnIncidents t
  assigned : AssignsMembers x site ok s t

section
variable {x : TicketCall} {env : Env} {ctx : Caller} {site : Site} {ok : Bool} {s t u : Store}
  {k : String} {P : Assertion Steady} {α : Type}

theorem Steady.of_same (htickets : t .supportTickets = s .supportTickets)
    (hmemberships : t .memberships = s .memberships) (hincidents : t .incidents = s .incidents) :
    Steady s t := by
  refine ⟨hmemberships, hincidents, ?_⟩
  intro r hr
  exact ⟨r, htickets ▸ hr, rfl, rfl⟩

/-- A turn that writes no ticket. -/
theorem Allowed.of_same (htickets : t .supportTickets = s .supportTickets)
    (hmemberships : t .memberships = s .memberships) (hincidents : t .incidents = s .incidents)
    (hsite : x.assigns site ok = none) : Allowed x site ok s t := by
  refine ⟨.of_same htickets hmemberships hincidents, ?_, ?_⟩
  · unfold OwnIncidents IncidentOf
    rw [htickets, hincidents]
    exact fun _ => id
  · intro r' hr' userId huser
    rw [htickets] at hr'
    exact .inl ⟨by simp [hsite], r', hr', rfl, huser⟩

theorem Allowed.refl (hsite : x.assigns site ok = none) : Allowed x site ok s s :=
  .of_same rfl rfl rfl hsite

theorem Steady.trans (h : Steady s t) (h' : Steady t u) : Steady s u := by
  refine ⟨h'.memberships.trans h.memberships, h'.incidents.trans h.incidents, ?_⟩
  intro r hr
  obtain ⟨r', hr', hid, htenant⟩ := h.kept r hr
  obtain ⟨r'', hr'', hid', htenant'⟩ := h'.kept r' hr'
  exact ⟨r'', hr'', hid'.trans hid, htenant'.trans htenant⟩

/-- The statements of a transaction that sets no assignee. -/
theorem Allowed.trans (h : Allowed x site ok s t) (h' : Allowed x site ok t u)
    (hsite : x.assigns site ok = none) : Allowed x site ok s u := by
  refine ⟨h.toSteady.trans h'.toSteady, ?_, ?_⟩
  · intro hx hown
    exact h'.own (x.assumes.stable _ _ h.toSteady hx) (h.own hx hown)
  · intro r'' hr'' userId huser
    rcases h'.assigned r'' hr'' userId huser with ⟨-, r', hr', hid, huser'⟩ | hactive
    · rcases h.assigned r' hr' userId huser' with ⟨-, r, hr, hid', huser''⟩ | hactive
      · exact .inl ⟨by simp [hsite], r, hr, hid'.trans hid, huser''⟩
      · obtain ⟨r₂, hr₂, hid₂, htenant₂⟩ := h'.kept r' hr'
        have hsame : r₂ = r'' :=
          List.inj_on_of_nodup_map (u .supportTickets).unique hr₂ hr'' (hid₂.trans hid)
        rw [← hsame, htenant₂]
        exact .inr hactive
    · refine .inr ?_
      unfold ActiveMember at hactive ⊢
      rw [← h.memberships]
      exact hactive

/-- An update of one ticket that leaves its tenant and its incident. -/
theorem Allowed.update {f : SupportTicket → SupportTicket}
    {hf : ∀ r, TableName.supportTickets.key (f r) = TableName.supportTickets.key r}
    (htenant : ∀ r, (f r).tenantId = r.tenantId) (hincident : ∀ r, (f r).incidentId = r.incidentId)
    (hassign : ∀ r ∈ (s .supportTickets).rows, r.id = k → ∀ userId,
      (f r).assigneeId = some userId → x.assigns site ok = none ∧ r.assigneeId = some userId ∨
        ActiveMember s userId r.tenantId)
    (hother : x.assigns site ok = none ∨ x.assigns site ok = some k) :
    Allowed x site ok s (Function.update s .supportTickets
      ((s .supportTickets).update (S := schema) k f hf)) := by
  have hid : ∀ r, (f r).id = r.id := hf
  refine ⟨⟨rfl, rfl, ?_⟩, ?_, ?_⟩
  · intro r hr
    refine ⟨_, List.mem_map_of_mem hr, ?_⟩
    split
    · exact ⟨hid r, htenant r⟩
    · exact ⟨rfl, rfl⟩
  · intro _ hown r' hr' id hnamed
    obtain ⟨r, hr, rfl⟩ := List.mem_map.mp hr'
    split at hnamed
    · rename_i hk
      rw [if_pos hk, htenant]
      exact hown r hr id (hincident r ▸ hnamed)
    · rename_i hk
      rw [if_neg hk]
      exact hown r hr id hnamed
  · intro r' hr' userId huser
    obtain ⟨r, hr, rfl⟩ := List.mem_map.mp hr'
    split at huser
    · rename_i hk
      rw [if_pos hk, htenant, hid]
      rcases hassign r hr hk userId huser with ⟨hsite, hsame⟩ | hactive
      · exact .inl ⟨by simp [hsite], r, hr, rfl, hsame⟩
      · exact .inr hactive
    · rename_i hk
      rw [if_neg hk]
      refine .inl ⟨?_, r, hr, rfl, huser⟩
      rcases hother with hnone | hsome
      · simp [hnone]
      · rw [hsome]
        intro heq
        exact hk (Option.some.inj heq).symm

theorem parse_holds {parsed : Zod.Parsed α} {Q : α → Assertion Steady}
    (h : ∀ a s, parsed = .ok a → P.holds s → (Q a).holds s) :
    Holds (Allowed x) (parseSteps parsed) P Q .top := by
  cases parsed with
  | ok a => exact fun s hs => h a s rfl hs
  | error issues => exact fun _ _ => trivial

theorem throwIf_holds {bad : Prop} [Decidable bad] {failure : Failure}
    {Q : Assertion Steady} (h : ∀ s, ¬ bad → P.holds s → Q.holds s) :
    Holds (Allowed x) (throwStepIf bad failure) P (fun _ => Q) .top := by
  unfold throwStepIf
  split
  · exact fun _ _ => trivial
  · rename_i hgood
    exact fun s hs => h s hgood hs

theorem findTicket_holds {id : String} :
    Holds (Allowed x) (findTicketSteps env ctx id) P
      (fun ticket => P.and (ownTicket env ctx id ticket.id)) .top := by
  refine Holds.bind
    (M := fun found => found.elim P fun ticket => P.and (ownTicket env ctx id ticket.id)) ?_ ?_
  · refine Holds.read (Reads.bind uuidOf_reads fun _ => findFirst_reads)
      (fun _ _ => .refl rfl) (fun _ _ => trivial) ?_
    intro s found hs hfound
    obtain ⟨ticketId, s', hid, hfind⟩ := bind_ok hfound
    obtain ⟨hparse, rfl⟩ := uuidOf_answers hid
    obtain ⟨hfind, -⟩ := findFirst_answers hfind
    cases found with
    | none => exact hs
    | some ticket =>
      have hticket := List.find?_some hfind
      simp only [decide_eq_true_eq] at hticket
      obtain ⟨hkey, htenant⟩ := hticket
      exact ⟨hs, hkey ▸ hparse, ticket, List.mem_of_find?_eq_some hfind, rfl, htenant⟩
  · intro found
    cases found with
    | none => exact fun _ _ => trivial
    | some ticket => exact fun _ hs => hs

theorem checkAssignee_holds {assigneeId : String} :
    Holds (Allowed x) (checkAssigneeSteps env ctx assigneeId) P
      (fun userId => P.and (activeMember ctx userId)) .top := by
  refine Holds.bind
    (M := fun found => found.2.elim P fun _ => P.and (activeMember ctx found.1)) ?_ ?_
  · refine Holds.read (Reads.bind uuidOf_reads fun _ => Reads.bind findFirst_reads
      fun _ => pure_reads) (fun _ _ => .refl rfl) (fun _ _ => trivial) ?_
    intro s found hs hfound
    obtain ⟨userId, s', hid, hfound⟩ := bind_ok hfound
    obtain ⟨-, rfl⟩ := uuidOf_answers hid
    obtain ⟨member, s'', hfind, hfound⟩ := bind_ok hfound
    obtain ⟨hfind, rfl⟩ := findFirst_answers hfind
    cases hfound
    cases member with
    | none => exact hs
    | some m =>
      have hmember := List.find?_some hfind
      simp only [decide_eq_true_eq] at hmember
      exact ⟨hs, m, List.mem_of_find?_eq_some hfind, hmember⟩
  · intro found
    obtain ⟨userId, member⟩ := found
    cases member with
    | none =>
      exact Holds.bind (throwIf_holds (fun _ hgood _ => absurd rfl hgood)) fun _ =>
        Holds.pure (fun _ h => h)
    | some m => exact Holds.bind (throwIf_holds (fun _ _ h => h)) fun _ => Holds.pure (fun _ h => h)

/-- A statement that inserts into a table that is none of the three. -/
theorem insert_allowed {i : TableName} {r : i.Row} {β : Type} {g : i.Row → β}
    (htickets : i ≠ .supportTickets) (hmemberships : i ≠ .memberships)
    (hincidents : i ≠ .incidents) :
    Allowed x (.write i) ok s (outcome (g <$> Prisma.create i r) s).2 := by
  have hsite : x.assigns (.write i) ok = none := by
    unfold TicketCall.assigns
    split
    · rename_i heq
      exact absurd (Site.write.inj heq) htickets
    · rfl
  rw [map_eq_pure_bind, outcome_bind]
  by_cases hnew : i.key r ∈ (s i).rows.map i.key
  · rw [Prisma.create, create_taken (S := schema) hnew]
    exact .refl hsite
  · rw [Prisma.create, create_new (S := schema) hnew]
    exact .of_same (Function.update_of_ne htickets.symm _ _)
      (Function.update_of_ne hmemberships.symm _ _) (Function.update_of_ne hincidents.symm _ _)
      hsite

theorem record_holds {action resourceType resourceId : String}
    {beforeData afterData : Option AuditData} :
    Holds (Allowed x) (AuditService.recordSteps env ctx action resourceType resourceId beforeData
      afterData) P (fun _ => P) .top := by
  refine Holds.other (fun _ _ _ h => h.toSteady) (fun _ => .refl rfl) ?_
  intro ok s
  exact insert_allowed (g := fun _ => ()) (by decide) (by decide) (by decide)

theorem publish_holds : Holds (Allowed x) publishSteps P (fun _ => P) .top :=
  Holds.read (fun _ => rfl) (fun _ _ => .refl rfl) (fun _ h => h) (fun _ _ h _ => h)

/-- The audit record and the answer of an operation. -/
theorem recorded_holds {action resourceType resourceId : String}
    {beforeData afterData : Option AuditData} {m : Operation α}
    (h : Holds (Allowed x) m P (fun _ => .top) .top) : Holds (Allowed x) (do
      AuditService.recordSteps env ctx action resourceType resourceId beforeData afterData
      m) P (fun _ => .top) .top :=
  Holds.bind record_holds fun _ => h

theorem published_holds {m : Operation α} (h : Holds (Allowed x) m P (fun _ => .top) .top) :
    Holds (Allowed x) (do
      publishSteps
      m) P (fun _ => .top) .top :=
  Holds.bind publish_holds fun _ => h

theorem answer_holds {a : α} :
    Holds (Allowed x) (pure a : Operation α) P (fun _ => .top) .top :=
  Holds.pure fun _ _ => trivial

theorem patch_holds {id : String} {body : Option Js.Json}
    (hx : x.assigns (.write .supportTickets) true = none) :
    Holds (Allowed x) (TicketsController.patchSteps env ctx id body) P (fun _ => .top) .top := by
  unfold TicketsController.patchSteps
  refine Holds.bind (parse_holds (Q := fun _ => P) (fun _ _ _ h => h)) fun input => ?_
  refine Holds.bind findTicket_holds fun ticket => ?_
  refine Holds.bind (M := fun _ => .top) ?_ fun updated => recorded_holds answer_holds
  refine Holds.statement update_keepsOnError (fun _ _ => ⟨.refl rfl, trivial⟩) ?_
  intro s a t _ hupdate
  obtain ⟨r, -, -, rfl⟩ := update_answers hupdate
  refine ⟨.update (fun _ => rfl) (fun _ => rfl) ?_ (.inl hx), trivial⟩
  intro r _ _ userId huser
  exact .inl ⟨hx, huser⟩

theorem comment_holds {id : String} {body : Option Js.Json} :
    Holds (Allowed x) (TicketsController.commentSteps env ctx id body) P (fun _ => .top) .top := by
  unfold TicketsController.commentSteps
  refine Holds.bind (parse_holds (Q := fun _ => P) (fun _ _ _ h => h)) fun text => ?_
  refine Holds.bind findTicket_holds fun ticket => ?_
  refine Holds.bind (Holds.other (fun _ _ _ h => h.toSteady) (fun _ => .refl rfl) ?_)
    fun created => recorded_holds answer_holds
  intro ok s
  have h : Allowed x (.write .supportTicketComments) ok s (outcome ((fun c => c) <$>
      Prisma.create .supportTicketComments (newComment env ctx ticket.id text)) s).2 :=
    insert_allowed (by decide) (by decide) (by decide)
  rwa [id_map'] at h

/-- The assignee is checked, and stays a member until the ticket is written. -/
theorem assign_holds {id : String} {body : Option Js.Json} (hx : x.operation = .assign id body) :
    Holds (Allowed x) (TicketsController.assignSteps x.env x.ctx id body) P (fun _ => .top)
      .top := by
  unfold TicketsController.assignSteps
  refine Holds.bind (parse_holds (Q := fun _ => P) (fun _ _ _ h => h)) fun assigneeId => ?_
  refine Holds.bind findTicket_holds fun ticket => ?_
  refine Holds.bind (M := fun checked => (ownTicket x.env x.ctx id ticket.id).and
    (checked.elim .top (activeMember x.ctx))) ?_ fun checked => ?_
  · cases assigneeId with
    | none => exact Holds.pure fun _ h => ⟨h.2, trivial⟩
    | some assigneeId =>
      exact Holds.map (f := some) (Holds.weaken _ checkAssignee_holds (fun _ h => h)
        (fun _ _ h => ⟨h.1.2, h.2⟩) (fun _ h => h))
  · refine Holds.bind (M := fun _ => .top) ?_ fun updated => recorded_holds answer_holds
    refine Holds.statement update_keepsOnError (fun _ _ => ⟨.refl rfl, trivial⟩) ?_
    intro s a t hs hupdate
    obtain ⟨⟨hparse, own, hown, hkey, htenant⟩, hchecked⟩ := hs
    obtain ⟨r, -, -, rfl⟩ := update_answers hupdate
    have hassigns : x.assigns (.write .supportTickets) true = some ticket.id := by
      simp only [TicketCall.assigns, hx, hparse]
    refine ⟨.update (fun _ => rfl) (fun _ => rfl) ?_ (.inr hassigns), trivial⟩
    intro r hr hid userId huser
    have hsame : r = own :=
      List.inj_on_of_nodup_map (s .supportTickets).unique hr hown (hid.trans hkey.symm)
    cases checked with
    | none => cases huser
    | some checked =>
      cases huser
      rw [hsame, htenant]
      exact .inr hchecked

theorem transition_holds {id : String} {body : Option Js.Json} :
    Holds (Allowed x) (TicketsController.transitionSteps env ctx id body) P (fun _ => .top)
      .top := by
  have hsite : x.assigns .commit true = none := rfl
  unfold TicketsController.transitionSteps
  refine Holds.bind (parse_holds (Q := fun _ => P) (fun _ _ _ h => h)) fun input => ?_
  refine Holds.bind findTicket_holds fun ticket => ?_
  refine Holds.bind (throwIf_holds (Q := P) fun _ _ h => h.1) fun _ => ?_
  refine Holds.bind (M := fun _ => .top) ?_
    fun updated => recorded_holds (published_holds answer_holds)
  refine Holds.transaction (fun _ _ => ⟨.refl rfl, trivial⟩) ?_
  intro s _
  refine Answers.bind (Q := fun _ t => Allowed x .commit true s t) ?_ fun u => ?_
  · apply Answers.statement
    intro s' r t hs hupdate
    subst hs
    obtain ⟨r', -, -, rfl⟩ := update_answers hupdate
    refine .update (fun _ => rfl) (fun _ => rfl) ?_ (.inl hsite)
    intro r _ _ userId huser
    exact .inl ⟨hsite, huser⟩
  · refine Answers.bind (Q := fun _ t => Allowed x .commit true s t) ?_ fun c => ?_
    · apply Answers.statement
      intro s' r t hs hcreate
      obtain ⟨hnew, -, rfl⟩ := create_answers hcreate
      exact hs.trans (.of_same rfl rfl rfl hsite) hsite
    · exact Answers.pure fun _ h => ⟨h, trivial⟩

theorem bump_elsewhere {number : Nat} (h : outcome (bumpSequence ctx) s = (.ok number, t))
    {i : TableName} (hi : i ≠ .supportSequences) : t i = s i := by
  have hkeeps : Keeps (fun u => u i = s i) (bumpSequence ctx) := bumpSequence_elsewhere hi
  have hkept := hkeeps s rfl
  rwa [h] at hkept

/-- A new ticket, which has no assignee. -/
theorem Allowed.insert {ticket : SupportTicket} {hnew : ticket.id ∉
      (s .supportTickets).rows.map TableName.supportTickets.key}
    (hincident : x.assumes.holds s → ∀ id, ticket.incidentId = some id →
      IncidentOf s id ticket.tenantId) (hassignee : ticket.assigneeId = none)
    (hsite : x.assigns site ok = none) :
    Allowed x site ok s (Function.update s .supportTickets
      ((s .supportTickets).insert (S := schema) ticket hnew)) := by
  refine ⟨⟨rfl, rfl, ?_⟩, ?_, ?_⟩
  · intro r hr
    exact ⟨r, List.mem_append_left _ hr, rfl, rfl⟩
  · intro hx hown r hr id hnamed
    rcases List.mem_append.mp hr with hr | hr
    · exact hown r hr id hnamed
    · rw [List.mem_singleton.mp hr] at hnamed ⊢
      exact hincident hx id hnamed
  · intro r hr userId huser
    rcases List.mem_append.mp hr with hr | hr
    · exact .inl ⟨by simp [hsite], r, hr, rfl, huser⟩
    · rw [List.mem_singleton.mp hr, hassignee] at huser
      cases huser

theorem create_holds {body : Option Js.Json} (hx : x.operation = .create body) :
    Holds (Allowed x) (TicketsController.createSteps x.env x.ctx body) P (fun _ => .top)
      .top := by
  have hsite : x.assigns .commit true = none := rfl
  unfold TicketsController.createSteps
  refine Holds.bind (parse_holds (Q := fun input =>
    .fact (CreateTicketSchema (orEmpty body) = .ok input)) fun _ _ h _ => h) fun input => ?_
  refine Holds.bind (M := fun _ => .top) ?_
    fun created => recorded_holds (published_holds answer_holds)
  refine Holds.transaction (fun _ _ => ⟨.refl rfl, trivial⟩) ?_
  intro s hinput
  refine Answers.bind (Q := fun _ t => Allowed x .commit true s t) ?_ fun number => ?_
  · apply Answers.statement
    intro s' number t heq hbump
    subst heq
    have hsame : ∀ i : TableName, i ≠ .supportSequences → t i = s' i :=
      fun _ => bump_elsewhere hbump
    exact .of_same (hsame _ (by decide)) (hsame _ (by decide)) (hsame _ (by decide)) hsite
  · apply Answers.statement
    intro s' ticket t hs' hinsert
    obtain ⟨incidentId, hincident, rfl, -, hnew, rfl⟩ := insertTicket_answers hinsert
    refine ⟨hs'.trans (.insert ?_ rfl hsite) hsite, trivial⟩
    intro hassumes id hid
    unfold TicketCall.assumes at hassumes
    rw [hx] at hassumes
    exact hassumes input hinput id (hid ▸ hincident)

theorem steps_hold (x : TicketCall) :
    Holds (Allowed x) x.steps (.top : Assertion Steady) (fun _ => .top) .top := by
  unfold TicketCall.steps
  cases hx : x.operation with
  | create body => exact Holds.map (create_holds hx)
  | patch id body => exact Holds.map (patch_holds (by simp only [TicketCall.assigns, hx]))
  | comment id body => exact Holds.map comment_holds
  | assign id body => exact Holds.map (assign_holds hx)
  | transition id body => exact Holds.map transition_holds

end

/-- Who is made an assignee is an active member of the ticket's tenant then, and where every body
that is taken names no incident or one of its caller's tenant, every ticket always does. -/
theorem references_kept {s : Store} (hown : OwnIncidents s)
    (as : List (Turn Failure TicketCall)) :
    Meets (step TicketCall.steps) (Guaranteed AssignsMembers) { state := s } as ∧
    (Meets (step TicketCall.steps) (Begun TicketCall.assumes) { state := s } as →
      Always (step TicketCall.steps) (fun s => OwnIncidents s.state) { state := s } as) := by
  refine ⟨?_, ?_⟩
  · refine (always_guaranteed (fun _ _ _ _ _ h => h.toSteady) steps_hold rfl).mono ?_
    intro s a h
    cases a with
    | begin x => trivial
    | next i faults =>
      exact fun x m rest t site ok hget hmoved => (h x m rest t site ok hget hmoved).assigned
  · intro hbegun
    have hallowed := guaranteed_of_begun (fun _ _ _ _ _ h => h.toSteady) steps_hold rfl hbegun
    exact always_of_guaranteed (fun _ _ _ _ _ h => h.1.own h.2) hown hallowed

/-- The turns of a request that is alone do what its handler does. -/
theorem call_alone (x : TicketCall) (s : Store) : (advance (fun _ => none) x.steps s).finish s =
    outcome (handle x.env x.ctx x.operation.mutation.request) s := by
  rw [finish_advance, TicketCall.steps, steps_eval]

/-- A ticket that is created names no other tenant's incident exactly where its body names no
such one. -/
theorem created_own_iff {env : Env} {ctx : Caller} {body : Option Js.Json} {s t : Store}
    {ticket : SupportTicket} (hown : OwnIncidents s)
    (h : outcome (TicketsController.create env ctx body) s = (.ok ticket, t)) :
    OwnIncidents t ↔ (TicketCall.assumes ⟨env, ctx, .create body⟩).holds s := by
  obtain ⟨input, s₁, hparse, hrest⟩ := bind_ok h
  obtain ⟨created, s₂, hcreate, hrecord⟩ := bind_ok hrest
  obtain ⟨_, s₃, haudit, hanswer⟩ := bind_ok hrecord
  cases hanswer
  obtain ⟨number, s₄, hbump, hinsert⟩ := bind_ok (transaction_ok hcreate)
  obtain ⟨incidentId, hincident, rfl, -, hnew, rfl⟩ := insertTicket_answers hinsert
  obtain ⟨_, _, hlog, hanswer⟩ := bind_ok haudit
  obtain ⟨_, -, rfl⟩ := create_answers hlog
  cases hanswer
  obtain ⟨hschema, rfl⟩ := parse_answers hparse
  have hincidents : s₄ .incidents = s₁ .incidents := bump_elsewhere hbump (by decide)
  have htickets : s₄ .supportTickets = s₁ .supportTickets :=
    bump_elsewhere hbump (by decide)
  have hsame : ∀ id tenantId, IncidentOf s₄ id tenantId ↔ IncidentOf s₁ id tenantId := by
    unfold IncidentOf
    rw [hincidents]
    exact fun _ _ => Iff.rfl
  constructor
  · intro hafter input' hinput id hid
    cases hschema.symm.trans hinput
    have hnew := hafter _ (List.mem_append_right _ List.mem_cons_self) id
      (Option.some.inj (hincident.symm.trans hid))
    exact (hsame id ctx.tenantId).mp hnew
  · intro hnames r hr id hnamed
    rcases List.mem_append.mp hr with hr | hr
    · exact (hsame id r.tenantId).mpr (hown r (htickets ▸ hr) id hnamed)
    · rw [List.mem_singleton.mp hr] at hnamed ⊢
      exact (hsame id ctx.tenantId).mpr (hnames input hschema id (hnamed ▸ hincident))

def incidentText : String := "00000000-0000-4000-8000-000000000000"

def namingBody : Option Js.Json :=
  some (.object [("title", .string "Disk"), ("description", .string "Full"),
    ("incident_id", .string incidentText)])

def incidentOf (tenantId : String) : Incident :=
  { id := incidentText
    tenantId
    title := "Disk full"
    severity := "high"
    status := .detected
    primaryResourceId := none
    fingerprint := none
    detectedAt := 0
    acknowledgedAt := none
    resolvedAt := none
    createdAt := 0
    updatedAt := 0 }

theorem incident_unique (incident : Incident) :
    ([incident].map TableName.incidents.key).Nodup := List.nodup_singleton _

/-- A store with one incident. -/
def storeOf (incident : Incident) : Store :=
  Function.update emptyStore .incidents { rows := [incident], unique := incident_unique incident }

def naming : TicketCall :=
  { env := requestEnv, ctx := userCaller, operation := .create namingBody }

def created : List (Turn Failure TicketCall) := [.begin naming, .next 0 fun _ => none]

theorem noTicket_own (incident : Incident) : OwnIncidents (storeOf incident) := by
  intro t ht
  cases ht

theorem naming_schema : CreateTicketSchema (orEmpty namingBody) =
    .ok ⟨"Disk", "Full", none, none, some incidentText⟩ := rfl

theorem own_incident_kept :
    Meets (step TicketCall.steps) (Guaranteed AssignsMembers)
      { state := storeOf (incidentOf "t") } created ∧
    Always (step TicketCall.steps) (fun s => OwnIncidents s.state)
      { state := storeOf (incidentOf "t") } created := by
  obtain ⟨hassigned, hkept⟩ := references_kept (noTicket_own (incidentOf "t")) created
  refine ⟨hassigned, hkept ?_⟩
  refine fun t _ => ⟨?_, fun u _ => ⟨trivial, trivial⟩⟩
  intro input hinput id hid
  cases naming_schema.symm.trans hinput
  cases hid
  exact ⟨incidentOf "t", List.mem_cons_self, rfl, rfl⟩

def foreignState : Store :=
  ((exec (step TicketCall.steps) { state := storeOf (incidentOf "other") } created).map
    Threads.state).getD emptyStore

/-- The body of a user names another tenant's incident, and the ticket that is created does. -/
theorem foreign_incident_named : ¬ ∀ (s : Store) (as : List (Turn Failure TicketCall)),
    OwnIncidents s →
    Meets (step TicketCall.steps) (Guaranteed AssignsMembers) { state := s } as ∧
    Always (step TicketCall.steps) (fun s => OwnIncidents s.state) { state := s } as := by
  intro h
  obtain ⟨-, halways⟩ := h (storeOf (incidentOf "other")) created (noTicket_own _)
  have hrun : (exec (step TicketCall.steps) { state := storeOf (incidentOf "other") }
      created).isSome := by decide +kernel
  obtain ⟨t, ht⟩ := Option.isSome_iff_exists.mp hrun
  have hown : OwnIncidents foreignState := by
    have hlast := halways.last ht
    simpa only [foreignState, ht, Option.map_some, Option.getD_some] using hlast
  have hticket : (foreignState .supportTickets).rows.any (fun t =>
      t.incidentId = some incidentText && t.tenantId = "t") = true := by decide +kernel
  have hforeign : (foreignState .incidents).rows.all (fun i => i.tenantId = "other") = true := by
    decide +kernel
  obtain ⟨ticket, hmem, hnames⟩ := List.any_eq_true.mp hticket
  simp only [Bool.and_eq_true, decide_eq_true_eq] at hnames
  obtain ⟨incident, hincident, -, htenant⟩ := hown ticket hmem incidentText hnames.1
  have hother := List.all_eq_true.mp hforeign incident hincident
  rw [decide_eq_true_eq, htenant, hnames.2] at hother
  exact absurd hother (by decide)

end WaOps.Api.References
