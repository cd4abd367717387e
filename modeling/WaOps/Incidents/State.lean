import WaOps.Lib.Js
import WaOps.Lib.Runs

namespace WaOps.Incidents
open Lib

structure EventEnvelope where
  eventId : String
  tenantId : String
  source : String := "waops"
  sourceType : String := "agent"
  eventType : String
  severity : String
  resourceId : Option String := none
  fingerprint : Option String
  observedAt : Int := 0
  /-- The JSON text of the attributes. -/
  attributes : String := "\x7b\x7d"
  correlationId : Option String := none
  deriving DecidableEq, Repr

structure DomainEvent where
  id : String
  tenantId : String
  eventType : String
  sourceType : String
  resourceId : Option String
  severity : String
  fingerprint : Option String
  observedAt : Int
  attributesJson : String
  correlationId : Option String
  deriving DecidableEq, Repr

inductive IncidentStatus where
  | detected | acknowledged | resolved | closed
  deriving DecidableEq, Repr

structure Incident where
  id : String
  tenantId : String
  title : String
  severity : String
  status : IncidentStatus := .detected
  primaryResourceId : Option String
  fingerprint : Option String
  acknowledgedAt : Option Int := none
  resolvedAt : Option Int := none
  deriving DecidableEq, Repr

structure IncidentEvent where
  incidentId : String
  eventId : String
  tenantId : String
  deriving DecidableEq, Repr

inductive EntryType where
  | created | eventRecurred | acknowledged | resolved | reopened
  deriving DecidableEq, Repr

inductive Payload where
  | event (eventId : String) (source : Option String)
  | note (text : String)
  | absent
  deriving DecidableEq, Repr

structure TimelineEntry where
  tenantId : String
  incidentId : String
  entryType : EntryType
  actorId : Option String := none
  payload : Payload
  deriving DecidableEq, Repr

/-- Where an attempt at `handleEventEnvelope` stands. -/
inductive DeliveryPc where
  | received
  /-- The event row is written. -/
  | stored
  | found (incidentId : String)
  | notFound
  | linked (incidentId : String)
  /-- `openFromEvent` has returned. -/
  | opened (incidentId : String)
  | done
  | failed
  deriving DecidableEq, Repr

structure Delivery where
  envelope : EventEnvelope
  pc : DeliveryPc := .received
  deriving DecidableEq, Repr

inductive OperationKind where
  | acknowledge | resolve | reopen
  deriving DecidableEq, Repr

/-- An operation that has read its incident and is about to write it. -/
structure Operation where
  kind : OperationKind
  tenantId : String
  userId : String
  note : Option String
  incidentId : String
  deriving DecidableEq, Repr

/-- How a statement ends for its caller: an error may hide a commit. -/
inductive Outcome where
  | committed | aborted | unanswered
  deriving DecidableEq, Repr

/-- A delivery is one attempt of the queue at one event. Deliveries and operations interleave
between their statements, and a transaction is one statement. -/
structure State where
  events : List DomainEvent := []
  incidents : List Incident := []
  links : List IncidentEvent := []
  timeline : List TimelineEntry := []
  deliveries : List Delivery := []
  operations : List (Option Operation) := []
  /-- History: the envelopes of the deliveries that completed without error. -/
  completed : List EventEnvelope := []
  deriving DecidableEq, Repr

inductive Action where
  /-- The queue hands an event to a worker, for the first time or again. -/
  | deliver (envelope : EventEnvelope)
  | insert (i : Nat) (outcome : Outcome)
  | check (i : Nat) (ok : Bool)
  | link (i : Nat) (outcome : Outcome)
  | entry (i : Nat) (outcome : Outcome)
  | create (i : Nat) (id : String) (outcome : Outcome)
  /-- What follows `openFromEvent`: realtime and notification channels. -/
  | finish (i : Nat) (ok : Bool)
  | crash (i : Nat)
  | operate (kind : OperationKind) (tenantId userId : String) (note : Option String) (id : String)
  | commit (i : Nat) (now : Int) (outcome : Outcome)
  deriving DecidableEq, Repr

/-- The fingerprint where it is truthy. -/
def EventEnvelope.key (e : EventEnvelope) : Option String :=
  if e.fingerprint = some "" then none else e.fingerprint

def EventEnvelope.row (e : EventEnvelope) : DomainEvent :=
  { id := e.eventId
    tenantId := e.tenantId
    eventType := e.eventType
    sourceType := e.sourceType
    resourceId := e.resourceId
    severity := e.severity
    fingerprint := e.fingerprint
    observedAt := e.observedAt
    attributesJson := e.attributes
    correlationId := e.correlationId }

def Incident.active (x : Incident) : Bool :=
  x.status ≠ .resolved && x.status ≠ .closed

/-- The where clause of the search for an open incident. -/
def Incident.openFor (e : EventEnvelope) (x : Incident) : Bool :=
  x.tenantId = e.tenantId && x.fingerprint = e.fingerprint && x.active

def State.stored (s : State) (eventId : String) : Bool :=
  s.events.any (fun r => r.id = eventId)

def State.setPc (s : State) (i : Nat) (pc : DeliveryPc) : State :=
  { s with deliveries := s.deliveries.modify i (fun d => { d with pc }) }

def State.complete (s : State) (i : Nat) (e : EventEnvelope) : State :=
  { s.setPc i .done with completed := s.completed ++ [e] }

def EventEnvelope.link (e : EventEnvelope) (incidentId : String) : IncidentEvent :=
  { incidentId, eventId := e.eventId, tenantId := e.tenantId }

def EventEnvelope.recurrence (e : EventEnvelope) (incidentId : String) : TimelineEntry :=
  { tenantId := e.tenantId
    incidentId
    entryType := .eventRecurred
    payload := .event e.eventId none }

def EventEnvelope.incident (e : EventEnvelope) (id : String) : Incident :=
  { id
    tenantId := e.tenantId
    title := e.eventType ++ " on " ++ e.resourceId.getD "resource"
    severity := e.severity
    primaryResourceId := e.resourceId
    fingerprint := e.fingerprint }

def EventEnvelope.opening (e : EventEnvelope) (incidentId : String) : TimelineEntry :=
  { tenantId := e.tenantId, incidentId, entryType := .created,
    payload := .event e.eventId (some e.source) }

/-- The transaction that opens an incident. -/
def State.create (s : State) (e : EventEnvelope) (id : String) : State :=
  { s with
    incidents := s.incidents ++ [e.incident id]
    links := s.links ++ [e.link id]
    timeline := s.timeline ++ [e.opening id] }

/-- The link insert; one that is there already is left as it is. -/
def State.link (s : State) (e : EventEnvelope) (incidentId : String) : State :=
  if e.link incidentId ∈ s.links then s else { s with links := s.links ++ [e.link incidentId] }

def OperationKind.allows (kind : OperationKind) (status : IncidentStatus) : Bool :=
  match kind with
  | .acknowledge => status = .detected
  | .resolve => status ≠ .resolved && status ≠ .closed
  | .reopen => true

def OperationKind.apply (kind : OperationKind) (now : Int) (x : Incident) : Incident :=
  match kind with
  | .acknowledge => { x with status := .acknowledged, acknowledgedAt := some now }
  | .resolve => { x with status := .resolved, resolvedAt := some now }
  | .reopen => { x with status := .acknowledged, resolvedAt := none }

def OperationKind.entryType : OperationKind → EntryType
  | .acknowledge => .acknowledged
  | .resolve => .resolved
  | .reopen => .reopened

/-- An empty note is left out like an absent one; reopen takes none. -/
def Operation.payload (op : Operation) : Payload :=
  match op.kind, op.note with
  | .reopen, _ => .absent
  | _, some text => if text = "" then .absent else .note text
  | _, none => .absent

def Operation.entry (op : Operation) : TimelineEntry :=
  { tenantId := op.tenantId
    incidentId := op.incidentId
    entryType := op.kind.entryType
    actorId := some op.userId
    payload := op.payload }

/-- The transaction of an operation; it writes by id whatever the status is by now. -/
def State.apply (s : State) (op : Operation) (now : Int) : State :=
  if s.incidents.any (fun x => x.id = op.incidentId) then
    { s with
      incidents := s.incidents.map (fun x =>
        if x.id = op.incidentId then op.kind.apply now x else x)
      timeline := s.timeline ++ [op.entry] }
  else s

def validNote (note : Option String) : Bool :=
  match note with
  | some text => Js.length text ≤ 1000
  | none => true

def State.endOperation (s : State) (i : Nat) : State :=
  { s with operations := s.operations.set i none }

def step (s : State) : Action → Option State
  | .deliver e =>
    -- the job's id is the event's, so the queue holds one envelope under an event id
    if s.deliveries.all (fun d => d.envelope.eventId = e.eventId → d.envelope = e) then
      some { s with deliveries := s.deliveries ++ [{ envelope := e }] }
    else none
  | .insert i outcome =>
    match s.deliveries[i]? with
    | some ⟨e, .received⟩ =>
      match outcome with
      | .aborted => some (s.setPc i .failed)
      | .committed =>
        if s.stored e.eventId then some (s.complete i e)
        else some ({ s with events := s.events ++ [e.row] }.setPc i .stored)
      | .unanswered =>
        if s.stored e.eventId then some (s.setPc i .failed)
        else some ({ s with events := s.events ++ [e.row] }.setPc i .failed)
    | _ => none
  | .check i ok =>
    match s.deliveries[i]? with
    | some ⟨e, .stored⟩ =>
      match e.key with
      | none => some (s.setPc i (.opened ""))
      | some _ =>
        if ok then
          match s.incidents.find? (Incident.openFor e) with
          | some x => some (s.setPc i (.found x.id))
          | none => some (s.setPc i .notFound)
        else some (s.setPc i .failed)
    | _ => none
  | .link i outcome =>
    match s.deliveries[i]? with
    | some ⟨e, .found incidentId⟩ =>
      -- every error of this insert is taken for a duplicate
      match outcome with
      | .aborted => some (s.setPc i (.linked incidentId))
      | _ => some ((s.link e incidentId).setPc i (.linked incidentId))
    | _ => none
  | .entry i outcome =>
    match s.deliveries[i]? with
    | some ⟨e, .linked incidentId⟩ =>
      let written := { s with timeline := s.timeline ++ [e.recurrence incidentId] }
      match outcome with
      | .aborted => some (s.setPc i .failed)
      | .committed => some (written.setPc i (.opened incidentId))
      | .unanswered => some (written.setPc i .failed)
    | _ => none
  | .create i id outcome =>
    match s.deliveries[i]? with
    | some ⟨e, .notFound⟩ =>
      if s.incidents.any (fun x => x.id = id) then some (s.setPc i .failed)
      else
        match outcome with
        | .aborted => some (s.setPc i .failed)
        | .committed => some ((s.create e id).setPc i (.opened id))
        | .unanswered => some ((s.create e id).setPc i .failed)
    | _ => none
  | .finish i ok =>
    match s.deliveries[i]? with
    | some ⟨e, .opened _⟩ => if ok then some (s.complete i e) else some (s.setPc i .failed)
    | _ => none
  | .crash i =>
    match s.deliveries[i]? with
    | some ⟨_, .done⟩ | none => none
    | some _ => some (s.setPc i .failed)
  | .operate kind tenantId userId note id =>
    if kind ≠ .reopen ∧ !validNote note then some s
    else
      match s.incidents.find? (fun x => x.id = id ∧ x.tenantId = tenantId) with
      | some x =>
        if kind.allows x.status then
          let op := { kind, tenantId, userId, note, incidentId := x.id }
          some { s with operations := s.operations ++ [some op] }
        else some s
      | none => some s
  | .commit i now outcome =>
    match s.operations[i]? with
    | some (some op) =>
      match outcome with
      | .aborted => some (s.endOperation i)
      | _ => some ((s.apply op now).endOperation i)
    | _ => none

end WaOps.Incidents
