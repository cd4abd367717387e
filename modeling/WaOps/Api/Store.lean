import WaOps.Gateway.State
import WaOps.Incidents.State
import WaOps.Lib.Tables

namespace WaOps.Api
open Lib Lib.Scoped Lib.Tables
open Gateway (AgentStatus TokenStatus)
open Incidents (IncidentStatus EntryType)

/-- Times are in milliseconds, here and in all tables. -/
structure Host where
  id : String
  tenantId : String
  organizationId : Option String := none
  name : String
  osType : Option String
  osVersion : Option String
  arch : Option String
  environment : Option String
  status : String := "pending"
  machineId : Option String := none
  metadataJson : Option Js.Json := none
  createdAt : Int
  updatedAt : Int

structure Container where
  id : String
  tenantId : String
  hostId : String
  runtimeId : String
  name : String
  image : Option String
  state : String
  health : Option String
  lastSeenAt : Int

structure Agent where
  id : String
  tenantId : String
  hostId : Option String
  machineId : Option String
  name : String
  version : Option String
  protocolVersion : Option Int
  status : AgentStatus
  lastSeenAt : Option Int
  capabilities : List String
  createdAt : Int

structure AgentEnrollmentToken where
  id : String
  tokenHash : String
  tenantId : String
  status : TokenStatus := .active
  agentId : Option String := none
  expiresAt : Int
  usedAt : Option Int := none
  createdAt : Int

structure Incident where
  id : String
  tenantId : String
  title : String
  severity : String
  status : IncidentStatus
  primaryResourceId : Option String
  fingerprint : Option String
  detectedAt : Int
  acknowledgedAt : Option Int
  resolvedAt : Option Int
  createdAt : Int
  updatedAt : Int

structure IncidentTimelineEntry where
  id : String
  tenantId : String
  incidentId : String
  entryType : EntryType
  actorType : String
  actorId : Option String
  payloadJson : Option Js.Json := none
  createdAt : Int

structure MetricSample where
  id : String
  tenantId : String
  resourceId : String
  metric : String
  value : Rat
  /-- What `->>` gives for a dimension. -/
  dimensions : List (String × String)
  observedAt : Int

/-- A row of metric_samples_5m. -/
structure RollupRow where
  tenantId : String
  resourceId : String
  metric : String
  mount : Option String
  interface : Option String
  bucket : Int
  avg : Rat
  max : Rat
  deriving DecidableEq

inductive TicketStatus where
  | open | inProgress | resolved | closed
  deriving DecidableEq, Repr

inductive Priority where
  | low | normal | high | urgent
  deriving DecidableEq, Repr

structure SupportTicket where
  id : String
  tenantId : String
  organizationId : Option String
  number : Nat
  title : String
  description : String
  status : TicketStatus := .open
  priority : Priority
  requesterId : String
  assigneeId : Option String := none
  incidentId : Option String
  labels : List String
  openSince : Int
  resolvedAt : Option Int := none
  createdAt : Int
  updatedAt : Int
  deriving DecidableEq, Repr

structure SupportTicketComment where
  id : String
  tenantId : String
  ticketId : String
  authorId : String
  body : String
  createdAt : Int
  deriving DecidableEq, Repr

structure SupportSequence where
  tenantId : String
  value : Nat

structure Membership where
  id : String
  tenantId : String
  userId : String
  status : String

inductive AuditData where
  | host (created : Host)
  | fields (values : List (String × Js.Json))

structure AuditLog where
  id : String
  tenantId : Option String
  actorType : String
  actorId : Option String
  action : String
  resourceType : String
  resourceId : Option String
  beforeData : Option AuditData
  afterData : Option AuditData
  requestId : Option String
  createdAt : Int

inductive TableName where
  | hosts | containers | agents | agentEnrollmentTokens | incidents | incidentTimeline
  | metricSamples | rollup | supportTickets | supportTicketComments | supportSequences
  | memberships | auditLogs
  deriving DecidableEq, Repr

@[reducible] def TableName.Row : TableName → Type
  | .hosts => Host
  | .containers => Container
  | .agents => Agent
  | .agentEnrollmentTokens => AgentEnrollmentToken
  | .incidents => Incident
  | .incidentTimeline => IncidentTimelineEntry
  | .metricSamples => MetricSample
  | .rollup => RollupRow
  | .supportTickets => SupportTicket
  | .supportTicketComments => SupportTicketComment
  | .supportSequences => SupportSequence
  | .memberships => Membership
  | .auditLogs => AuditLog

/-- The primary keys; a row of the rollup is its own. -/
@[reducible] def TableName.Key : TableName → Type
  | .metricSamples => String × Int
  | .rollup => RollupRow
  | _ => String

instance : ∀ i : TableName, DecidableEq i.Key
  | .metricSamples => inferInstanceAs (DecidableEq (String × Int))
  | .rollup => inferInstanceAs (DecidableEq RollupRow)
  | .hosts | .containers | .agents | .agentEnrollmentTokens | .incidents | .incidentTimeline
  | .supportTickets | .supportTicketComments | .supportSequences | .memberships | .auditLogs =>
    inferInstanceAs (DecidableEq String)

def TableName.key : (i : TableName) → i.Row → i.Key
  | .hosts, r => r.id
  | .containers, r => r.id
  | .agents, r => r.id
  | .agentEnrollmentTokens, r => r.id
  | .incidents, r => r.id
  | .incidentTimeline, r => r.id
  | .metricSamples, r => (r.id, r.observedAt)
  | .rollup, r => r
  | .supportTickets, r => r.id
  | .supportTicketComments, r => r.id
  | .supportSequences, r => r.tenantId
  | .memberships, r => r.id
  | .auditLogs, r => r.id

@[simp] def TableName.tenantId : (i : TableName) → i.Row → Option String
  | .hosts, r => some r.tenantId
  | .containers, r => some r.tenantId
  | .agents, r => some r.tenantId
  | .agentEnrollmentTokens, r => some r.tenantId
  | .incidents, r => some r.tenantId
  | .incidentTimeline, r => some r.tenantId
  | .metricSamples, r => some r.tenantId
  | .rollup, r => some r.tenantId
  | .supportTickets, r => some r.tenantId
  | .supportTicketComments, r => some r.tenantId
  | .supportSequences, r => some r.tenantId
  | .memberships, r => some r.tenantId
  | .auditLogs, r => r.tenantId

@[reducible] def schema : Schema TableName String where
  Row := TableName.Row
  Key := TableName.Key
  key := @TableName.key
  owner := @TableName.tenantId

theorem noRows_unique (i : TableName) : (([] : List i.Row).map i.key).Nodup := List.nodup_nil

end WaOps.Api
