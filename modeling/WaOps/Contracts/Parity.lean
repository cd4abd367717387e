import WaOps.Contracts.EventEnvelope
import WaOps.Contracts.Schemas
import WaOps.Lib.DateTimes

namespace WaOps.Contracts
open Lib Lib.Zod

def Text (o : Option Js.Json) : Prop := ∃ s, o = some (.string s)

/-- What is asked of a text; another value is not asked anything. -/
def OfText (p : String → Prop) (o : Option Js.Json) : Prop := ∀ s, o = some (.string s) → p s

def TextOrAbsent (o : Option Js.Json) : Prop := o = none ∨ Text o

def TextNullOrAbsent (o : Option Js.Json) : Prop := o = some .null ∨ TextOrAbsent o

def One (o : Option Js.Json) : Prop := o = some (.number (.finite 1))

def Numeric (o : Option Js.Json) : Prop := ∃ n, o = some (.number n)

/-- An infinity counts as whole. -/
def Whole (o : Option Js.Json) : Prop := ∃ n, o = some (.number n) ∧ JsonSchema.isWhole n

def Natural (o : Option Js.Json) : Prop :=
  ∃ n, o = some (.number n) ∧ JsonSchema.isWhole n ∧ Js.Number.lt n (.finite 0) = false

def Severity (o : Option Js.Json) : Prop := ∃ s, o = some (.string s) ∧ s ∈ eventSeverities

def Object (o : Option Js.Json) : Prop := ∃ fields, o = some (.object fields)

section
variable {o : Option Js.Json} {v : Js.Json} {name : String} {p : String → Prop}

end

section
open JsonSchema
variable {o : Option Js.Json}

end

inductive Contract where
  | eventEnvelope | heartbeat | metricsBatch
  deriving DecidableEq, Repr

/-- `safeParse` succeeds. -/
def Contract.zod : Contract → Js.Json → Bool
  | .eventEnvelope, v => (EventEnvelopeV1 v).isSome
  | .heartbeat, v => (HeartbeatV1 v).isSome
  | .metricsBatch, v => (MetricsBatchV1 v).isSome

/-- What both validators ask of an envelope. -/
def EnvelopeShared (v : Js.Json) : Prop :=
  (∃ fields, v = .object fields) ∧ JsonSchema.Closed envelopeKeys v ∧
    (Text (v.field "event_id") ∧ OfText (· ≠ "") (v.field "event_id")) ∧
    One (v.field "schema_version") ∧
    (Text (v.field "tenant_id") ∧ OfText (· ≠ "") (v.field "tenant_id")) ∧
    Text (v.field "source") ∧ Text (v.field "source_type") ∧
    TextNullOrAbsent (v.field "resource_id") ∧ Text (v.field "event_type") ∧
    Severity (v.field "severity") ∧ TextNullOrAbsent (v.field "fingerprint") ∧
    Text (v.field "observed_at") ∧ Text (v.field "received_at") ∧
    Object (v.field "attributes") ∧ TextNullOrAbsent (v.field "correlation_id") ∧
    TextNullOrAbsent (v.field "trace_id")

def Texts (o : Option Js.Json) : Prop :=
  ∃ vs, o = some (.array vs) ∧ ∀ v ∈ vs, ∃ s, v = .string s

def HeartbeatShared (v : Js.Json) : Prop :=
  (∃ fields, v = .object fields) ∧ One (v.field "protocol_version") ∧ Text (v.field "agent_id") ∧
    TextOrAbsent (v.field "machine_id") ∧ Text (v.field "agent_version") ∧
    Text (v.field "sent_at") ∧
    (v.field "uptime_seconds" = none ∨ Natural (v.field "uptime_seconds")) ∧
    (v.field "clock_offset_ms" = none ∨ Whole (v.field "clock_offset_ms")) ∧
    (v.field "buffer_bytes" = none ∨ Natural (v.field "buffer_bytes")) ∧
    (v.field "capabilities" = none ∨ Texts (v.field "capabilities"))

def SampleShared (v : Js.Json) : Prop :=
  (∃ fields, v = .object fields) ∧ Text (v.field "metric") ∧ Text (v.field "resource_id") ∧
    Text (v.field "observed_at") ∧ Numeric (v.field "value") ∧
    (v.field "dimensions" = none ∨ Object (v.field "dimensions"))

/-- The keys that count as dimensions. -/
def dimensionKeys (fields : List (String × Js.Json)) : List String :=
  (fields.map Prod.fst).filter (· ≠ "__proto__")

/-- At most 16 dimensions of short keys, each a short text, a finite number or a bool. -/
def Bounded (o : Option Js.Json) : Prop :=
  ∀ fields, o = some (.object fields) → (dimensionKeys fields).length ≤ 16 ∧
    (∀ key ∈ dimensionKeys fields, Js.length key ≤ 64) ∧ ∀ f ∈ fields, (dimension f.2).isSome

/-- What is asked of each element of an array. -/
def OfEach (p : Js.Json → Prop) (o : Option Js.Json) : Prop :=
  ∀ vs, o = some (.array vs) → ∀ v ∈ vs, p v

def BatchShared (v : Js.Json) : Prop :=
  (∃ fields, v = .object fields) ∧ One (v.field "protocol_version") ∧ Text (v.field "agent_id") ∧
    Natural (v.field "sequence") ∧
    (∃ vs, v.field "samples" = some (.array vs) ∧ vs.length ≤ maxSamples) ∧
    OfEach SampleShared (v.field "samples")

/-- Something about a value. -/
abbrev Feature := Js.Json → Prop

/-- A timestamp that one of the two validators takes. -/
def Stamp (s : String) : Prop := DateTimes.Brief s ∨ JsonSchema.isDateTime s = true

/-- What neither validator of a contract goes without. -/
def Contract.Sound : Contract → Feature
  | .eventEnvelope => fun v => EnvelopeShared v ∧ OfText Stamp (v.field "observed_at") ∧
    OfText Stamp (v.field "received_at")
  | .heartbeat => fun v => HeartbeatShared v ∧ OfText Stamp (v.field "sent_at") ∧
    OfText (fun s => 8 ≤ Js.length s ∧ s.length ≤ 128) (v.field "machine_id")
  | .metricsBatch => fun v => BatchShared v ∧
    OfEach (fun sample => OfText Stamp (sample.field "observed_at")) (v.field "samples")

section
variable {v : Js.Json} {name : String} {names : List String} {f : Feature} {fs : List Feature}
  {p q r : String → Prop}

/-- A text has as many code units as characters, or more. -/
theorem length_le (s : String) : s.length ≤ Js.length s := by
  have hsum : ∀ cs : List Char,
      cs.length ≤ (cs.map (fun c => if c.toNat < 0x10000 then 1 else 2)).sum := by
    intro cs
    induction cs with
    | nil => exact Nat.le_refl _
    | cons c cs ih =>
      rw [List.map_cons, List.sum_cons, List.length_cons]
      split <;> omega
  exact hsum s.toList

end

end WaOps.Contracts
