import WaOps.Contracts.AgentProtocol
import WaOps.Gateway.Credentials
import WaOps.Gateway.RateLimited
import WaOps.Lib.Remote

namespace WaOps.Ingest
open Lib Lib.Remote Contracts Gateway

structure Request where
  authorization : Option String
  /-- None where it is no JSON. -/
  body : Option Js.Json

structure JobData where
  tenantId : String
  agentId : String
  samples : List Contracts.MetricSample

/-- A row of metric_samples. -/
structure SampleRow where
  tenantId : String
  resourceId : String
  metric : String
  value : Rat
  dimensionsJson : List (String × Dimension)
  observedAt : Int

inductive JobStatus where
  | waiting
  /-- The attempt that has the job's lock. -/
  | active (attempt : Nat)
  | completed
  | failed
  deriving DecidableEq

structure Job where
  jobId : String
  data : JobData
  status : JobStatus := .waiting
  /-- How often the queue has taken it back from an attempt. -/
  stalled : Nat := 0

/-- Where an attempt at a job stands. -/
inductive AttemptPc where
  /-- At the bridge of identities, whose failures are dropped, or before the insert. -/
  | taken
  /-- The rules are evaluated. -/
  | inserted
  | over
  deriving DecidableEq

structure Attempt where
  job : Nat
  pc : AttemptPc := .taken
  /-- History: its insert was committed. -/
  stored : Bool := false

/-- History: a batch that was to be added, the request it came with, and the agents then. -/
structure Sent where
  request : Request
  agents : List Agent
  identity : AgentIdentity
  batch : MetricsBatch

/-- History: a row that the retention has dropped, and when. -/
structure Expired where
  row : SampleRow
  droppedAt : Int

/-- History: a batch that was answered with its sequence, and the job it is told of. -/
structure Acked where
  jobId : String
  data : JobData
  job : Nat
  /-- No job of this id was known. -/
  added : Bool

structure State where
  agents : List Agent := []
  rateBuckets : RateBuckets := fun _ => none
  jobs : List Job := []
  /-- The jobs that have completed, the latest first. -/
  completed : List Nat := []
  attempts : List Attempt := []
  metricSamples : List SampleRow := []
  sent : List Sent := []
  expired : List Expired := []
  acked : List Acked := []
  /-- History: the jobs whose samples were inserted, in order. -/
  inserts : List Nat := []

/-- What rewrites the rows of agents. -/
structure AgentEdit where
  edit : Agent → Agent
  id : ∀ a, (edit a).id = a.id
  tenantId : ∀ a, (edit a).tenantId = a.tenantId

/-- A worker may die, or lose the job to another, between any two of its statements. -/
inductive Action where
  | enroll (agent : Agent)
  | edit (edit : AgentEdit)
  | metrics (request : Request) (now : ℚ) (add close : Fate Unit)
  /-- A worker gets the job. -/
  | take (job : Nat)
  /-- The createMany of an attempt. -/
  | insert (attempt : Nat) (createMany : Fate Unit)
  /-- The loop over the rules has ended, or thrown. -/
  | finish (attempt : Nat) (ok : Bool)
  | die (attempt : Nat)
  /-- The queue takes the job back from an attempt that no longer answers. -/
  | stall (job : Nat)
  /-- The retention policy of metric_samples. -/
  | retain (now : Int)

/-- What is not the repository's own. -/
structure Env where
  parseUuid : String → Option String
  sha256 : String → String
  /-- `String(n)` -/
  numberText : Int → String
  /-- `new Date(text)`, none where it is no date. -/
  parseDate : String → Option Int
  maxStalledCount : Nat := 1
  /-- METRIC_RETENTION_DAYS -/
  retentionDays : Int := 30

def keptCompleted : Nat := 500

section
variable (env : Env)

/-- The handler up to its `queue.add`: the status of a refusal, or what is to be added. -/
def received (s : State) (request : Request) (now : ℚ) :
    Except Nat (AgentIdentity × MetricsBatch) × RateBuckets :=
  match authenticateAgentByUuid env.parseUuid env.sha256 s.agents request.authorization with
  | .error _ => (.error 500, s.rateBuckets)
  | .ok none => (.error 401, s.rateBuckets)
  | .ok (some identity) =>
    let (limited, rateBuckets) := rateLimited 120 60000 now identity.agentId s.rateBuckets
    if limited then (.error 429, rateBuckets)
    else
      match request.body.bind MetricsBatchV1 with
      | none => (.error 400, rateBuckets)
      | some batch =>
        if batch.agentId = identity.agentId then (.ok (identity, batch), rateBuckets)
        else (.error 403, rateBuckets)

def jobIdOf (agentId : String) (sequence : Int) : String :=
  "metrics_" ++ agentId ++ "_" ++ env.numberText sequence

/-- Of the completed jobs the queue forgets all but the latest. -/
def State.knows (s : State) (j : Nat) : Bool := j ∉ s.completed.drop keptCompleted

def State.find (s : State) (jobId : String) : Option Nat :=
  (List.range s.jobs.length).find? (fun j =>
    s.knows j && (s.jobs[j]?.map Job.jobId) = some jobId)

/-- `queue.add` changes nothing where it knows a job of the id. -/
def State.add (s : State) (jobId : String) (data : JobData) : State :=
  if (s.find jobId).isSome then s else { s with jobs := s.jobs ++ [{ jobId, data }] }

/-- The job of a batch that is answered: the one that the queue knows, or a new one. -/
def State.jobOf (s : State) (jobId : String) (data : JobData) : Acked :=
  { jobId, data, job := (s.find jobId).getD s.jobs.length, added := (s.find jobId).isNone }

def State.enqueue (s : State) (jobId : String) (data : JobData) (add close : Fate Unit) : State :=
  let t := if add.effective then s.add jobId data else s
  match add, close with
  | .answered, .answered => { t with acked := t.acked ++ [s.jobOf jobId data] }
  | _, _ => t

def Sent.jobId (x : Sent) : String :=
  jobIdOf env x.identity.agentId x.batch.sequence

def Sent.data (x : Sent) : JobData :=
  { tenantId := x.identity.tenantId, agentId := x.identity.agentId, samples := x.batch.samples }

def State.accept (s : State) (x : Sent) (add close : Fate Unit) : State :=
  { s with sent := s.sent ++ [x] }.enqueue (x.jobId env) x.data add close

/-- The rows of a job's createMany; none where it has no date to insert. -/
def rowsOf (data : JobData) : Option (List SampleRow) :=
  data.samples.mapM fun sample =>
    (env.parseDate sample.observedAt).map fun observedAt =>
      { tenantId := data.tenantId
        resourceId := sample.resourceId
        metric := sample.metric
        value := sample.value
        dimensionsJson := sample.dimensions.getD []
        observedAt }

def State.setJob (s : State) (j : Nat) (job : Job) (status : JobStatus) : State :=
  { s with jobs := s.jobs.set j { job with status } }

def State.setAttempt (s : State) (k : Nat) (attempt : Attempt) : State :=
  { s with attempts := s.attempts.set k attempt }

/-- An attempt's end, which the queue hears of only while the attempt has the lock. -/
def State.report (s : State) (k j : Nat) (ok : Bool) : State :=
  match s.jobs[j]? with
  | some job =>
    if job.status = .active k then
      if ok then { s.setJob j job .completed with completed := j :: s.completed }
      else s.setJob j job .failed
    else s
  | none => s

def State.insert (s : State) (k : Nat) (attempt : Attempt) (job : Job)
    (createMany : Fate Unit) : State :=
  match rowsOf env job.data with
  | none => (s.setAttempt k { attempt with pc := .over }).report k attempt.job false
  | some rows =>
    let stored := createMany.effective
    let s := if stored then
        { s with
          metricSamples := s.metricSamples ++ rows
          inserts := s.inserts ++ [attempt.job] }
      else s
    match createMany with
    | .answered => s.setAttempt k { attempt with pc := .inserted, stored }
    | _ => (s.setAttempt k { attempt with pc := .over, stored }).report k attempt.job false

/-- The end of the row's chunk of metric_samples; a chunk is of seven days. -/
def SampleRow.chunkEnd (row : SampleRow) : Int :=
  (row.observedAt / 604800000 + 1) * 604800000

/-- A chunk goes as a whole, once all of it is older than the policy's interval. -/
def SampleRow.outdated (row : SampleRow) (now : Int) : Bool :=
  row.chunkEnd ≤ now - env.retentionDays * 86400000

def State.retain (s : State) (now : Int) : State :=
  { s with
    metricSamples := s.metricSamples.filter (fun row => !row.outdated env now)
    expired := s.expired ++
      (s.metricSamples.filter (fun row => row.outdated env now)).map
        (fun row => { row, droppedAt := now }) }

def step (s : State) : Action → Option State
  | .enroll agent =>
    if s.agents.any (fun a => a.id = agent.id) then none
    else some { s with agents := s.agents ++ [agent] }
  | .edit edit => some { s with agents := s.agents.map edit.edit }
  | .metrics request now add close =>
    let (result, rateBuckets) := received env s request now
    let s := { s with rateBuckets }
    match result with
    | .error _ => some s
    | .ok (identity, batch) =>
      some (s.accept env { request, agents := s.agents, identity, batch } add close)
  | .take j =>
    match s.jobs[j]? with
    | some job =>
      if job.status = .waiting then
        some { s.setJob j job (.active s.attempts.length) with
               attempts := s.attempts ++ [{ job := j }] }
      else none
    | none => none
  | .insert k createMany =>
    match s.attempts[k]? with
    | some attempt =>
      if attempt.pc = .taken then
        (s.jobs[attempt.job]?).map fun job => s.insert env k attempt job createMany
      else none
    | none => none
  | .finish k ok =>
    match s.attempts[k]? with
    | some attempt =>
      if attempt.pc = .inserted then
        some ((s.setAttempt k { attempt with pc := .over }).report k attempt.job ok)
      else none
    | none => none
  | .die k =>
    match s.attempts[k]? with
    | some attempt => some (s.setAttempt k { attempt with pc := .over })
    | none => none
  | .stall j =>
    match s.jobs[j]? with
    | some job =>
      match job.status with
      | .active _ =>
        if job.stalled < env.maxStalledCount then
          some (s.setJob j { job with stalled := job.stalled + 1 } .waiting)
        else some (s.setJob j job .failed)
      | _ => none
    | none => none
  | .retain now => some (s.retain env now)

end

end WaOps.Ingest
