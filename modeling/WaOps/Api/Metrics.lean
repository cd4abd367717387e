import WaOps.Api.Request
import WaOps.Lib.Doubles
import WaOps.Lib.Lists

namespace WaOps.Api
open Lib Lib.Scoped Lib.Sorting

variable (env : Env) (ctx : Caller)

structure SeriesPoint where
  t : Int
  avg : Rat
  max : Rat
  last : Rat
  deriving DecidableEq, Repr

structure SeriesAnswer where
  hostId : String
  resourceId : String
  fromMs : Int
  toMs : Int
  bucketMs : Int
  series : List (String × List SeriesPoint)
  deriving DecidableEq, Repr

structure LongSeriesAnswer where
  hostId : String
  resourceId : String
  windowDays : Int
  source : String := "metric_samples_5m (continuous aggregate)"
  series : List (String × List SeriesPoint)
  deriving DecidableEq, Repr

structure ContainerItem where
  id : String
  name : String
  image : Option String
  state : String
  health : Option String
  lastSeenAt : Int
  deriving DecidableEq, Repr

structure FilesystemItem where
  mount : Option String
  usedBytes : Option Rat
  availableBytes : Option Rat
  observedAt : Int
  deriving DecidableEq, Repr

/-- The rows by key, in the order in which the keys first appear. -/
def groupBy {α κ : Type} [DecidableEq κ] (key : α → κ) (rows : List α) : List (κ × List α) :=
  (rows.map key).eraseDups.map (fun k => (k, rows.filter (fun r => key r = k)))

section
variable {α κ : Type} [DecidableEq κ] {key : α → κ} {rows : List α} {g : κ × List α}

theorem groupBy_keys : (groupBy key rows).map Prod.fst = (rows.map key).eraseDups := by
  rw [groupBy, List.map_map]
  exact List.map_id _

theorem groupBy_nodup : ((groupBy key rows).map Prod.fst).Nodup := by
  rw [groupBy_keys]
  exact Lists.nodup_eraseDups _

theorem mem_groupBy {k : κ} : k ∈ (groupBy key rows).map Prod.fst ↔ k ∈ rows.map key := by
  rw [groupBy_keys, List.mem_eraseDups]

theorem groupBy_rows (h : g ∈ groupBy key rows) : g.2 = rows.filter (fun r => key r = g.1) := by
  obtain ⟨k, -, rfl⟩ := List.mem_map.mp h
  rfl

end

/-- Averages are exact. -/
def average (values : List Rat) : Rat := values.sum / values.length

def greatest (values : List Rat) : Option Rat :=
  values.foldl (fun m v => some (m.elim v (max v))) none

def findHost (id : String) : Handler Host :=
  findOrNotFound env .hosts "Host" id (fun id r => r.id = id ∧ r.tenantId = ctx.tenantId)

def metricResource (host : Host) : String :=
  match host.machineId with
  | none | some "" => host.id
  | some machineId => "host_" ++ machineId

def defaultWindowMs : Int := 6 * 60 * 60 * 1000

def defaultBuckets : Int := 60

def seriesMetrics : Option String → List String
  | some metric => [metric]
  | none => ["host.cpu.usage_percent", "host.memory.used_bytes", "host.memory.available_bytes",
      "host.load.1", "host.load.5", "host.load.15", "host.uptime_seconds"]

/-- The numbers `series` computes of its query, in doubles. -/
structure Window where
  fromMs : Js.Number
  toMs : Js.Number
  spanMs : Js.Number
  buckets : Js.Number
  bucketMs : Js.Number
  minutes : Js.Number
  deriving DecidableEq, Repr

def fromFor (q : SeriesQuery) (toMs : Js.Number) : Js.Number :=
  match q.fromMs with
  | some ms => .finite ms
  | none => toMs.sub (.finite defaultWindowMs)

def bucketsFor (q : SeriesQuery) (spanMs : Js.Number) : Js.Number :=
  match q.buckets with
  | some b => .finite b
  | none =>
    (Js.Number.finite defaultBuckets).min
      ((Js.Number.finite (10 : Int)).max (spanMs.div (.finite (60000 : Int))).floor)

def window (q : SeriesQuery) (now : Int) : Window :=
  let toMs : Js.Number := .finite (q.toMs.getD now)
  let fromMs := fromFor q toMs
  let spanMs := toMs.sub fromMs
  let buckets := bucketsFor q spanMs
  let bucketMs := (spanMs.div buckets).ceil
  { fromMs, toMs, spanMs, buckets, bucketMs
    minutes := (Js.Number.finite (1 : Int)).max (bucketMs.div (.finite (60000 : Int))).round }

/-- `${n}::int`, none where the database throws. -/
def int4 (n : Js.Number) : Option Int :=
  n.integer.filter (fun n => -2147483648 ≤ n ∧ n ≤ 2147483647)

/-- What the statement and the answer are made with. -/
structure Bins where
  fromMs : Int
  toMs : Int
  bucketMs : Int
  minutes : Int
  deriving DecidableEq, Repr

/-- None where `toISOString` throws or the database refuses a parameter. -/
def Window.bins (readsInstant : Int → Bool) (w : Window) : Option Bins := do
  let minutes ← int4 w.minutes
  let fromMs ← w.fromMs.timeClip
  let toMs ← w.toMs.timeClip
  let bucketMs ← w.bucketMs.integer
  if readsInstant fromMs ∧ readsInstant toMs then some { fromMs, toMs, bucketMs, minutes }
  else none

def orInternal {α : Type} : Option α → Handler α
  | some a => pure a
  | none => throw .internal

def ceilDiv (a b : Int) : Int := (a + b - 1) / b

def dateBin (strideMs origin t : Int) : Int := origin + (t - origin) / strideMs * strideMs

def dimensionIs (name : String) (wanted : Option String) (r : MetricSample) : Bool :=
  wanted.isNone || r.dimensions.lookup name = wanted

/-- One row of the binned query. -/
def binned (key : String × Int) (rows : List MetricSample) : String × SeriesPoint :=
  let values := rows.map MetricSample.value
  (key.1,
    { t := key.2
      avg := average values
      max := (greatest values).getD 0
      last := ((orderDesc MetricSample.observedAt rows).map MetricSample.value).headD 0 })

def orderPoints (rows : List (String × SeriesPoint)) : List (String × SeriesPoint) :=
  rows.insertionSort (fun a b => a.1 < b.1 ∨ a.1 = b.1 ∧ a.2.t ≤ b.2.t)

/-- The series of each metric. A metric named like a property of `Object.prototype` has none in the
source, which throws there. -/
def toSeries (rows : List (String × SeriesPoint)) : List (String × List SeriesPoint) :=
  (groupBy Prod.fst rows).map (fun g => (g.1, g.2.map Prod.snd))

/-- The WHERE clause of the binned query. -/
def picked (tenantId resourceId : String) (q : SeriesQuery) (b : Bins) (r : MetricSample) : Bool :=
  r.tenantId = tenantId ∧ r.resourceId = resourceId ∧ r.metric ∈ seriesMetrics q.metric ∧
    b.fromMs ≤ r.observedAt ∧ r.observedAt ≤ b.toMs ∧
    dimensionIs "mount" q.mount r ∧ dimensionIs "interface" q.interface r

def Bins.widthMs (b : Bins) : Int := b.minutes * 60000

/-- The metric and the bin of a sample. -/
def Bins.place (b : Bins) (r : MetricSample) : String × Int :=
  (r.metric, dateBin b.widthMs b.fromMs r.observedAt)

def binnedRows (b : Bins) (rows : List MetricSample) : List (String × SeriesPoint) :=
  orderPoints ((groupBy b.place rows).map (fun g => binned g.1 g.2))

def binnedSeries (b : Bins) (rows : List MetricSample) : List (String × List SeriesPoint) :=
  toSeries (binnedRows b rows)

def parseQuery {α : Type} (message : String) : Zod.Parsed α → Handler α
  | .ok a => pure a
  | .error issues => throw (.api (.validation message (some (.issues issues))))

def MetricsController.series (id : String) (query : Option Js.Json) : Handler SeriesAnswer := do
  let q ← parseQuery "invalid metrics query" (QuerySchema env.ofText query)
  let host ← findHost env ctx id
  let resourceId := metricResource host
  let w := window q env.now
  throwIf (w.fromMs.ge w.toMs) (.api (.validation "from must be before to" none))
  let b ← orInternal (w.bins env.readsInstant)
  let rows ← Prisma.findMany .metricSamples (picked ctx.tenantId resourceId q b)
  return { hostId := host.id, resourceId, fromMs := b.fromMs, toMs := b.toMs,
           bucketMs := b.bucketMs, series := binnedSeries b rows }

def MetricsController.containers (id : String) : Handler (List ContainerItem) := do
  let host ← findHost env ctx id
  let rows ← Prisma.findMany .containers (fun r =>
    r.tenantId = ctx.tenantId ∧ r.hostId = host.id)
  return ((orderDesc Container.lastSeenAt rows).take 100).map fun c =>
    { id := c.id
      name := c.name
      image := c.image
      state := c.state
      health := c.health
      lastSeenAt := c.lastSeenAt }

def filesystem (mount : Option String) (rows : List MetricSample) : FilesystemItem :=
  let of (metric : String) :=
    greatest ((rows.filter (fun r => r.metric = metric)).map MetricSample.value)
  { mount
    usedBytes := of "host.filesystem.used_bytes"
    availableBytes := of "host.filesystem.available_bytes"
    observedAt := ((orderDesc MetricSample.observedAt rows).map MetricSample.observedAt).headD 0 }

def mountLe : Option String → Option String → Bool
  | _, none => true
  | none, some _ => false
  | some m, some n => m ≤ n

def MetricsController.filesystems (id : String) : Handler (String × List FilesystemItem) := do
  let host ← findHost env ctx id
  let resourceId := metricResource host
  let rows ← Prisma.findMany .metricSamples (fun r =>
    r.tenantId = ctx.tenantId ∧ r.resourceId = resourceId ∧
      (r.metric = "host.filesystem.used_bytes" ∨ r.metric = "host.filesystem.available_bytes") ∧
      env.now - 3600000 ≤ r.observedAt)
  let groups := groupBy (fun r => r.dimensions.lookup "mount") rows
  let items := groups.map (fun g => filesystem g.1 g.2)
  return (host.id, items.insertionSort (fun a b => mountLe a.mount b.mount))

def longMetrics : Option String → List String
  | some metric => [metric]
  | none => ["host.cpu.usage_percent", "host.memory.used_bytes"]

/-- The newest bucket's average is the last value of all points of a metric. -/
def withLast (points : List RollupRow) : List SeriesPoint :=
  let lastAvg := (points.getLast?.map RollupRow.avg).getD 0
  points.map (fun p => { t := p.bucket, avg := p.avg, max := p.max, last := lastAvg })

def downsample (buckets : Option Int) (points : List SeriesPoint) : List SeriesPoint :=
  let stride := max 1 (ceilDiv points.length (buckets.getD 288))
  (points.zipIdx.filter (fun p => (p.2 : Int) % stride = 0)).map Prod.fst

def rollupUnavailable : ApiError :=
  { code := "dependency_unavailable"
    message := "long-window rollup unavailable (Timescale aggregate missing)"
    status := 503 }

def MetricsController.longSeries (id : String) (query : Option Js.Json) :
    Handler LongSeriesAnswer := do
  let q ← parseQuery "invalid long-series query" (LongQuerySchema env.ofText query)
  let host ← findHost env ctx id
  let resourceId := metricResource host
  let fromMs := env.now - q.days * 24 * 60 * 60 * 1000
  throwIf (!env.rollupAvailable) (.api rollupUnavailable)
  let raw ← Prisma.findMany .rollup (fun r =>
    r.tenantId = ctx.tenantId ∧ r.resourceId = resourceId ∧ r.metric ∈ longMetrics q.metric ∧
      fromMs ≤ r.bucket ∧ r.bucket ≤ env.now)
  let ordered := raw.insertionSort (fun a b =>
    a.metric < b.metric ∨ a.metric = b.metric ∧ a.bucket ≤ b.bucket)
  let byMetric := groupBy RollupRow.metric ordered
  let series := byMetric.map (fun g => (g.1, downsample q.buckets (withLast g.2)))
  return { hostId := host.id, resourceId, windowDays := q.days, series }

end WaOps.Api
