import WaOps.Lib.Js
import WaOps.Lib.Runs

namespace WaOps.Rules
open Lib

inductive Comparator where
  | gt | lt
  deriving DecidableEq, Repr

structure ThresholdRule where
  metric : String
  comparator : Comparator
  threshold : Js.Number
  consecutiveSamples : Js.Number
  severity : String
  eventType : String
  deriving DecidableEq, Repr

structure RuleEvaluation where
  fired : Bool
  eventType : Option String := none
  severity : Option String := none
  value : Js.Number
  consecutiveCount : Nat
  deriving DecidableEq, Repr

def evaluateThresholdRule (rule : ThresholdRule) (priorConsecutiveCount : Nat)
    (value : Js.Number) : RuleEvaluation :=
  let violates :=
    match rule.comparator with
    | .gt => rule.threshold.lt value
    | .lt => value.lt rule.threshold
  let consecutiveCount : Nat := if violates then priorConsecutiveCount + 1 else 0
  if (Js.Number.finite consecutiveCount).ge rule.consecutiveSamples then
    { fired := true, eventType := some rule.eventType, severity := some rule.severity, value,
      consecutiveCount }
  else { fired := false, value, consecutiveCount }

def defaultCpuRule : ThresholdRule :=
  { metric := "host.cpu.usage_percent"
    comparator := .gt
    threshold := .finite 90
    consecutiveSamples := .finite 6
    severity := "high"
    eventType := "infra.cpu.high" }

structure AlertRule where
  tenantId : String
  eventType : String
  severity : String
  conditionJson : Js.Json
  enabled : Bool := true

/-- One row's rule; none where it is skipped. -/
def AlertRule.rule (ofText : Js.Json → Js.Number) (r : AlertRule) : Option ThresholdRule :=
  let c := r.conditionJson
  let metric :=
    match c.field "metric" with
    | some (.string m) => m
    | _ => ""
  let threshold := Js.toNumber ofText (Js.nullish (c.field "threshold") (.number .nan))
  if metric = "" || !threshold.isFinite then none
  else some
    { metric
      comparator :=
        match c.field "comparator" with
        | some (.string "<") => .lt
        | _ => .gt
      threshold
      consecutiveSamples :=
        Js.toNumber ofText (Js.nullish (c.field "consecutive_samples") (.number (.finite 6)))
      severity := r.severity
      eventType := r.eventType }

/-- What loadRules makes of the rows; a condition that is JSON null makes it throw. -/
def fromDb (ofText : Js.Json → Js.Number) (rows : List AlertRule) : Option (List ThresholdRule) :=
  let enabled := rows.filter AlertRule.enabled
  if enabled.any (fun r => match r.conditionJson with | .null => true | _ => false) then none
  else some (enabled.filterMap (AlertRule.rule ofText))

structure Sample where
  metric : String
  resourceId : String
  observedAt : String
  value : Js.Number
  deriving DecidableEq, Repr

/-- The rules of a job, with the documented fallback. -/
def withFallback (dbRules : List ThresholdRule) : List ThresholdRule :=
  if dbRules.length > 0 then dbRules else [defaultCpuRule]

/-- The bodies of the two nested loops of a job, in order. -/
def worklist (dbRules : List ThresholdRule) (samples : List Sample) :
    List (Sample × ThresholdRule) :=
  samples.flatMap (fun sample =>
    ((withFallback dbRules).filter (fun rule => rule.metric = sample.metric)).map (sample, ·))

/-- An event the engine publishes, without its generated id and receive time. -/
structure Event where
  tenantId : String
  source : String := "rules-engine"
  sourceType : String := "engine"
  eventType : String
  severity : String
  observedAt : String
  metric : String
  value : Js.Number
  threshold : Js.Number
  consecutiveSamples : Nat
  resourceId : String
  fingerprint : String
  deriving DecidableEq, Repr

def composeFingerprint (sha256 : String → String) (rule tenantId resourceId : String) : String :=
  let segments := if resourceId = "" then [rule, tenantId] else [rule, tenantId, resourceId]
  "sha256:" ++ sha256 (String.intercalate "|" segments)

/-- Where an attempt at a job of ingest.metrics stands. -/
inductive JobPc where
  | taken
  /-- The samples are inserted; loadRules is called. -/
  | inserted
  /-- The rows were read; their rules are not in the cache yet. -/
  | loading (rows : List AlertRule)
  | evaluating (rest : List (Sample × ThresholdRule))
  | publishing (event : Event) (rest : List (Sample × ThresholdRule))
  | done
  | failed

structure Job where
  samples : List Sample
  pc : JobPc := .taken

/-- The jobs of all tenants share one process and interleave between their steps. -/
structure Worker where
  rows : List AlertRule := []
  cacheRules : List ThresholdRule := []
  loadedAt : Int := 0
  /-- The tracker's map; a key that is absent counts zero. -/
  counts : String → Nat := fun _ => 0
  /-- The jobs by tenant and by the attempt's number among that tenant's. -/
  jobs : String → Nat → Option Job := fun _ _ => none
  published : List Event := []

inductive Action where
  /-- The alert rules of a tenant are replaced. -/
  | setRules (tenantId : String) (rules : List AlertRule)
  | take (tenantId : String) (k : Nat) (samples : List Sample)
  /-- loadRules finds its cache too old and reads the rows. -/
  | query (tenantId : String) (k : Nat) (now : Int)
  /-- The job takes its next step, which may fail where it is an insert, a read or a publish. -/
  | turn (tenantId : String) (k : Nat) (ok : Bool) (now : Int)

def trackKey (sample : Sample) (rule : ThresholdRule) : String :=
  rule.eventType ++ ":" ++ sample.resourceId

def severities : List String := ["info", "warning", "high", "critical"]

def Worker.setPc (s : Worker) (tenantId : String) (k : Nat) (job : Job) (pc : JobPc) : Worker :=
  { s with jobs := (fun t n =>
      if t = tenantId ∧ n = k then some { job with pc } else s.jobs t n) }

/-- The count the tracker stores for a key. -/
def Worker.setCount (s : Worker) (key : String) (n : Nat) : Worker :=
  { s with counts := fun key' => if key' = key then n else s.counts key' }

def event (sha256 : String → String) (tenantId : String) (sample : Sample) (rule : ThresholdRule)
    (evaluation : RuleEvaluation) (eventType severity : String) : Event :=
  { tenantId
    eventType
    severity
    observedAt := sample.observedAt
    metric := sample.metric
    value := sample.value
    threshold := rule.threshold
    consecutiveSamples := evaluation.consecutiveCount
    resourceId := sample.resourceId
    fingerprint := composeFingerprint sha256 "tenant_host" tenantId sample.resourceId }

/-- Where a job goes on after one evaluation: an empty event type or severity publishes
nothing, a severity the envelope does not know fails the job. What else the envelope's schema
asks for, the gateway's asks of every sample. -/
def afterEvaluation (sha256 : String → String) (tenantId : String) (sample : Sample)
    (rule : ThresholdRule) (evaluation : RuleEvaluation)
    (rest : List (Sample × ThresholdRule)) : JobPc :=
  match evaluation.eventType, evaluation.severity with
  | some eventType, some severity =>
    if !evaluation.fired || eventType = "" || severity = "" then .evaluating rest
    else if severity ∈ severities then
      .publishing (event sha256 tenantId sample rule evaluation eventType severity) rest
    else .failed
  | _, _ => .evaluating rest

variable (ofText : Js.Json → Js.Number) (sha256 : String → String)

/-- The next step of a job: the samples' insert, loadRules' answer, one body of the nested
loops, or a publish. Nothing happens to a job that is over. -/
def Worker.turn (s : Worker) (tenantId : String) (k : Nat) (ok : Bool) (now : Int) (job : Job) :
    Option Worker :=
  match job.pc with
  | .taken => some (s.setPc tenantId k job (if ok then .inserted else .failed))
  | .inserted =>
    if now - s.loadedAt < 30000 ∧ ok then
      some (s.setPc tenantId k job (.evaluating (worklist s.cacheRules job.samples)))
    else none
  | .loading rows =>
    match if ok then fromDb ofText rows else none with
    | some rules =>
      some { s.setPc tenantId k job (.evaluating (worklist rules job.samples)) with
        cacheRules := rules, loadedAt := now }
    | none => some (s.setPc tenantId k job .failed)
  | .evaluating ((sample, rule) :: rest) =>
    let key := trackKey sample rule
    let evaluation := evaluateThresholdRule rule (s.counts key) sample.value
    some ((s.setCount key evaluation.consecutiveCount).setPc tenantId k job
      (afterEvaluation sha256 tenantId sample rule evaluation rest))
  | .evaluating [] => some (s.setPc tenantId k job .done)
  | .publishing event rest =>
    if ok then
      some { s.setPc tenantId k job (.evaluating rest) with published := s.published ++ [event] }
    else some (s.setPc tenantId k job .failed)
  | .done | .failed => some s

def step (s : Worker) : Action → Option Worker
  | .setRules tenantId rules =>
    let kept := s.rows.filter (fun r => r.tenantId ≠ tenantId)
    some { s with rows := kept ++ rules.map (fun r => { r with tenantId }) }
  | .take tenantId k samples =>
    match s.jobs tenantId k with
    | none => some (s.setPc tenantId k { samples } .taken)
    | some _ => none
  | .query tenantId k now =>
    match s.jobs tenantId k with
    | some ⟨samples, .inserted⟩ =>
      if now - s.loadedAt < 30000 then none
      else some (s.setPc tenantId k { samples } (.loading s.rows))
    | _ => none
  | .turn tenantId k ok now => (s.jobs tenantId k).bind (s.turn ofText sha256 tenantId k ok now)

end WaOps.Rules
