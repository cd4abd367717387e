import WaOps.Contracts.AgentProtocol

namespace WaOps.Contracts
open Lib Lib.Zod

structure EventEnvelope where
  eventId : String
  tenantId : String
  source : String
  sourceType : String
  /-- Of a field that may be null or left out, both are kept apart. -/
  resourceId : Option (Option String)
  eventType : String
  severity : String
  fingerprint : Option (Option String)
  observedAt : String
  receivedAt : String
  attributes : List (String × Js.Json)
  correlationId : Option (Option String)
  traceId : Option (Option String)

def eventSeverities : List String := ["info", "warning", "high", "critical"]

/-- `EventSeverity` -/
def eventSeverity : Option Js.Json → Option String
  | some (.string s) => if s ∈ eventSeverities then some s else none
  | _ => none

/-- `z.string()` -/
def anyText : Option Js.Json → Option String
  | some (.string s) => some s
  | _ => none

/-- `z.string().nullable()` -/
def textOrNull : Option Js.Json → Option (Option String)
  | some .null => some none
  | v => (anyText v).map some

/-- `z.record(z.unknown())` -/
def record : Option Js.Json → Option (List (String × Js.Json))
  | some (.object fields) => some fields
  | _ => none

def envelopeKeys : List String :=
  ["event_id", "schema_version", "tenant_id", "source", "source_type", "resource_id",
    "event_type", "severity", "fingerprint", "observed_at", "received_at", "attributes",
    "correlation_id", "trace_id"]

def EventEnvelopeV1 : Js.Json → Option EventEnvelope
  | .object fields => do
    let v := Js.Json.object fields
    guard (fields.all (fun f => f.1 ∈ envelopeKeys))
    let eventId ← nonEmpty (v.field "event_id")
    let _ ← literalOne (v.field "schema_version")
    let tenantId ← nonEmpty (v.field "tenant_id")
    let source ← anyText (v.field "source")
    let sourceType ← anyText (v.field "source_type")
    let resourceId ← orAbsent textOrNull (v.field "resource_id")
    let eventType ← nonEmpty (v.field "event_type")
    let severity ← eventSeverity (v.field "severity")
    let fingerprint ← orAbsent textOrNull (v.field "fingerprint")
    let observedAt ← accept datetime v "observed_at"
    let receivedAt ← accept datetime v "received_at"
    let attributes ← record (v.field "attributes")
    let correlationId ← orAbsent textOrNull (v.field "correlation_id")
    let traceId ← orAbsent textOrNull (v.field "trace_id")
    some { eventId, tenantId, source, sourceType, resourceId, eventType, severity, fingerprint,
           observedAt, receivedAt, attributes, correlationId, traceId }
  | _ => none

end WaOps.Contracts
