import WaOps.Lib.Zod

namespace WaOps.Contracts
open Lib Lib.Zod

inductive Dimension where
  | text (value : String)
  | number (value : Rat)
  | bool (value : Bool)
  deriving DecidableEq, Repr

structure MetricSample where
  metric : String
  resourceId : String
  observedAt : String
  value : Rat
  dimensions : Option (List (String × Dimension))
  deriving DecidableEq, Repr

structure MetricsBatch where
  agentId : String
  sequence : Int
  samples : List MetricSample
  deriving DecidableEq, Repr

/-- What `safeParse` gives when it succeeds. The gateway answers 400 whatever the issues are. -/
def accept {α : Type} (check : Check α) (v : Js.Json) (name : String) : Option α :=
  (field v name check).toOption

/-- `z.number().finite()` -/
def finite : Option Js.Json → Option Rat
  | some (.number (.finite q)) => some q
  | _ => none

def dimension : Js.Json → Option Dimension
  | .string s => if Js.length s ≤ 256 then some (.text s) else none
  | .number (.finite q) => some (.number q)
  | .bool b => some (.bool b)
  | _ => none

def dimensions : Js.Json → Option (List (String × Dimension))
  | .object fields => do
    let ds ← fields.mapM (fun f => (dimension f.2).map (fun d => (f.1, d)))
    -- The record that zod makes never has the key `__proto__`.
    let ds := ds.filter (fun d => d.1 ≠ "__proto__")
    if ds.length ≤ 16 ∧ ds.all (fun d => Js.length d.1 ≤ 64) then some ds else none
  | _ => none

def MetricSampleV1 : Js.Json → Option MetricSample
  | .object fields => do
    let v := Js.Json.object fields
    let metric ← accept (string 1 128) v "metric"
    let resourceId ← accept (string 1 256) v "resource_id"
    let observedAt ← accept datetime v "observed_at"
    let value ← finite (v.field "value")
    let dims ← match v.field "dimensions" with
      | none => some none
      | some d => (dimensions d).map some
    some { metric, resourceId, observedAt, value, dimensions := dims }
  | _ => none

/-- `z.number().int().min(0)` -/
def natural : Option Js.Json → Option Int
  | some (.number (.finite q)) => if q.den = 1 ∧ 0 ≤ q.num then some q.num else none
  | _ => none

/-- `z.literal(1)` -/
def literalOne : Option Js.Json → Option Unit
  | some (.number (.finite q)) => if q = 1 then some () else none
  | _ => none

/-- `z.string().min(1)` -/
def nonEmpty : Option Js.Json → Option String
  | some (.string s) => if s = "" then none else some s
  | _ => none

def maxSamples : Nat := 5000

def samplesV1 : Option Js.Json → Option (List MetricSample)
  | some (.array vs) => if vs.length ≤ maxSamples then vs.mapM MetricSampleV1 else none
  | _ => none

def MetricsBatchV1 : Js.Json → Option MetricsBatch
  | .object fields => do
    let v := Js.Json.object fields
    let _ ← literalOne (v.field "protocol_version")
    let agentId ← nonEmpty (v.field "agent_id")
    let sequence ← natural (v.field "sequence")
    let samples ← samplesV1 (v.field "samples")
    some { agentId, sequence, samples }
  | _ => none

/-- `z.number().int()` -/
def integer : Option Js.Json → Option Int
  | some (.number (.finite q)) => if q.den = 1 then some q.num else none
  | _ => none

/-- A field that may be left out; null is not left out. -/
def orAbsent {α : Type} (check : Option Js.Json → Option α) : Option Js.Json → Option (Option α)
  | none => some none
  | v => (check v).map some

/-- One of the capabilities: `z.string().max(64)` -/
def capability : Js.Json → Option String
  | .string s => if Js.length s ≤ 64 then some s else none
  | _ => none

def capabilities : Option Js.Json → Option (List String)
  | some (.array vs) => if vs.length ≤ 32 then vs.mapM capability else none
  | _ => none

structure Heartbeat where
  machineId : Option String
  agentId : String
  agentVersion : String
  sentAt : String
  uptimeSeconds : Option Int
  clockOffsetMs : Option Int
  bufferBytes : Option Int
  capabilities : Option (List String)
  deriving DecidableEq, Repr

def HeartbeatV1 : Js.Json → Option Heartbeat
  | .object fields => do
    let v := Js.Json.object fields
    let machineId ← accept (optional (string 8 128)) v "machine_id"
    let _ ← literalOne (v.field "protocol_version")
    let agentId ← accept (string 1 128) v "agent_id"
    let agentVersion ← accept (string 1 64) v "agent_version"
    let sentAt ← accept datetime v "sent_at"
    let uptimeSeconds ← orAbsent natural (v.field "uptime_seconds")
    let clockOffsetMs ← orAbsent integer (v.field "clock_offset_ms")
    let bufferBytes ← orAbsent natural (v.field "buffer_bytes")
    let capabilities ← orAbsent capabilities (v.field "capabilities")
    some { machineId, agentId, agentVersion, sentAt, uptimeSeconds, clockOffsetMs, bufferBytes,
           capabilities }
  | _ => none

theorem mapM_isSome_iff {α β : Type} {f : α → Option β} {l : List α} :
    (l.mapM f).isSome ↔ ∀ a ∈ l, (f a).isSome := by
  induction l with
  | nil => simp
  | cons a l ih =>
    rw [List.mapM_cons]
    cases ha : f a with
    | none => simp [ha]
    | some b =>
      have hrest : (l.mapM f).isSome ↔ ∀ a ∈ l, (f a).isSome := ih
      cases hl : l.mapM f with
      | none => simpa [ha, hl] using hrest
      | some bs => simpa [ha, hl] using hrest

theorem samplesV1_isSome_iff {vs : List Js.Json} : (samplesV1 (some (.array vs))).isSome ↔
    vs.length ≤ maxSamples ∧ ∀ v ∈ vs, (MetricSampleV1 v).isSome := by
  simp only [samplesV1]
  split
  · rename_i h
    simp only [h, true_and]
    exact mapM_isSome_iff
  · rename_i h
    simp [h]

end WaOps.Contracts
