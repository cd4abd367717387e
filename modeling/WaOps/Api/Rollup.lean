import Mathlib.Data.Finset.Sort
import Mathlib.Data.String.Basic
import WaOps.Api.Window
import WaOps.Lib.Thinning

namespace WaOps.Api
open Lib Lib.Scoped Lib.Tables Lib.Thinning

/-- `time_bucket(INTERVAL '5 minutes', observed_at)` -/
def timeBucket (t : Int) : Int := t / 300000 * 300000

/-- The GROUP BY clause of metric_samples_5m. -/
@[ext] structure RollupKey where
  tenantId : String
  resourceId : String
  metric : String
  mount : Option String
  interface : Option String
  bucket : Int
  deriving DecidableEq

def rollupKey (r : MetricSample) : RollupKey :=
  { tenantId := r.tenantId
    resourceId := r.resourceId
    metric := r.metric
    mount := r.dimensions.lookup "mount"
    interface := r.dimensions.lookup "interface"
    bucket := timeBucket r.observedAt }

def rollupRow (key : RollupKey) (rows : List MetricSample) : RollupRow :=
  { tenantId := key.tenantId
    resourceId := key.resourceId
    metric := key.metric
    mount := key.mount
    interface := key.interface
    bucket := key.bucket
    avg := average (rows.map MetricSample.value)
    max := (greatest (rows.map MetricSample.value)).getD 0 }

/-- metric_samples_5m -/
def rollup (samples : List MetricSample) : List RollupRow :=
  (groupBy rollupKey samples).map (fun g => rollupRow g.1 g.2)

/-- The samples of a metric in the buckets of a window. -/
def inSeries (tenantId resourceId metric : String) (fromMs toMs : Int) (r : MetricSample) : Bool :=
  r.tenantId = tenantId ∧ r.resourceId = resourceId ∧ r.metric = metric ∧
    fromMs ≤ timeBucket r.observedAt ∧ timeBucket r.observedAt ≤ toMs

def metricBuckets (rows : List MetricSample) : List Int :=
  (rows.map (fun r => timeBucket r.observedAt)).toFinset.sort

def dimensionPair (r : MetricSample) : Option String × Option String :=
  (r.dimensions.lookup "mount", r.dimensions.lookup "interface")

/-- How many mounts and interfaces, taken in pairs, have samples in a bucket. -/
def pairsIn (rows : List MetricSample) (bucket : Int) : ℕ :=
  ((rows.filter (fun r => timeBucket r.observedAt = bucket)).map dimensionPair).toFinset.card

/-- How many rows of the metric there are for each point that is asked for. -/
def stepFor (rows : List MetricSample) (limit : Int) : ℕ :=
  (max 1 (ceilDiv (before (pairsIn rows) (metricBuckets rows) (metricBuckets rows).length)
    limit)).toNat

/-- One point a bucket, no more than are asked for, at a constant stride. -/
structure Thinned (buckets : List Int) (limit : Int) (points : List SeriesPoint) : Prop where
  increasing : (points.map SeriesPoint.t).Pairwise (· < ·)
  count : (points.length : Int) ≤ limit
  stride : AtStride buckets (points.map SeriesPoint.t)

/-- The WHERE clause of the query on the rollup. -/
def inWindow (tenantId resourceId : String) (q : LongQuery) (now : Int) (r : RollupRow) : Bool :=
  r.tenantId = tenantId ∧ r.resourceId = resourceId ∧ r.metric ∈ longMetrics q.metric ∧
    now - q.days * 24 * 60 * 60 * 1000 ≤ r.bucket ∧ r.bucket ≤ now

/-- Its ORDER BY clause. -/
def orderRollup (rows : List RollupRow) : List RollupRow :=
  rows.insertionSort (fun a b => a.metric < b.metric ∨ a.metric = b.metric ∧ a.bucket ≤ b.bucket)

def longRows (buckets : Option Int) (rows : List RollupRow) : List (String × List SeriesPoint) :=
  (groupBy RollupRow.metric (orderRollup rows)).map
    (fun g => (g.1, downsample buckets (withLast g.2)))

section
variable {env : Env} {ctx : Caller} {id : String} {query : Option Js.Json} {q : LongQuery}
  {host : Host} {db : Store} {samples rows : List MetricSample} {raw : List RollupRow}
  {s : String × List SeriesPoint} {t fromMs toMs limit : Int}
  {tenantId resourceId metric : String}

theorem longSeries_outcome (hq : LongQuerySchema env.ofText query = .ok q)
    (hhost : outcome (findHost env ctx id) db = (.ok host, db))
    (havailable : env.rollupAvailable = true) :
    outcome (MetricsController.longSeries env ctx id query) db =
      (.ok { hostId := host.id, resourceId := metricResource host, windowDays := q.days
             series := longRows q.buckets ((db .rollup).rows.filter
               (inWindow ctx.tenantId (metricResource host) q env.now)) }, db) := by
  unfold MetricsController.longSeries
  simp only [parseQuery, hq, pure_bind]
  rw [outcome_bind, hhost]
  simp only [havailable, throwIf]
  rfl

theorem orderRollup_perm (raw : List RollupRow) : (orderRollup raw).Perm raw :=
  List.perm_insertionSort _ _

theorem orderRollup_sorted (raw : List RollupRow) : (orderRollup raw).Pairwise
    (fun a b => a.metric < b.metric ∨ a.metric = b.metric ∧ a.bucket ≤ b.bucket) := by
  have : Std.Total (fun a b : RollupRow =>
      a.metric < b.metric ∨ a.metric = b.metric ∧ a.bucket ≤ b.bucket) := by
    constructor
    intro a b
    rcases lt_trichotomy a.metric b.metric with h | h | h
    · exact .inl (.inl h)
    · rcases le_total a.bucket b.bucket with hle | hle
      · exact .inl (.inr ⟨h, hle⟩)
      · exact .inr (.inr ⟨h.symm, hle⟩)
    · exact .inr (.inl h)
  have : IsTrans RollupRow (fun a b =>
      a.metric < b.metric ∨ a.metric = b.metric ∧ a.bucket ≤ b.bucket) := by
    constructor
    intro a b c hab hbc
    rcases hab with hab | ⟨hab, hab'⟩
    · rcases hbc with hbc | ⟨hbc, -⟩
      · exact .inl (hab.trans hbc)
      · exact .inl (hbc ▸ hab)
    · rcases hbc with hbc | ⟨hbc, hbc'⟩
      · exact .inl (hab ▸ hbc)
      · exact .inr ⟨hab.trans hbc, hab'.trans hbc'⟩
  exact List.pairwise_insertionSort _ _

/-- The buckets of the rows of one metric are in order. -/
theorem buckets_sorted (raw : List RollupRow) (metric : String) :
    (((orderRollup raw).filter (fun r => r.metric = metric)).map RollupRow.bucket).Pairwise
      (· ≤ ·) := by
  rw [List.pairwise_map]
  apply ((orderRollup_sorted raw).filter _).imp_of_mem
  intro a b ha hb hab
  have hma : a.metric = metric := by simpa using (List.mem_filter.mp ha).2
  have hmb : b.metric = metric := by simpa using (List.mem_filter.mp hb).2
  rcases hab with hab | ⟨-, hab⟩
  · rw [hma, hmb] at hab
    exact absurd hab (lt_irrefl _)
  · exact hab

theorem downsample_times (buckets : Option Int) (points : List SeriesPoint) :
    (downsample buckets points).map SeriesPoint.t =
      every (max 1 (ceilDiv points.length (buckets.getD 288))).toNat
        (points.map SeriesPoint.t) := by
  rw [← map_every, downsample, every]
  set stride := max 1 (ceilDiv points.length (buckets.getD 288)) with hstride
  have hnat : (stride.toNat : Int) = stride := Int.toNat_of_nonneg (by omega)
  congr 2
  apply List.filter_congr
  intro p _
  have hmod : (p.2 : Int) % stride = ((p.2 % stride.toNat : ℕ) : Int) := by
    rw [Int.natCast_mod, hnat]
  rw [hmod, decide_eq_decide, Int.natCast_eq_zero]

theorem withLast_times (points : List RollupRow) :
    (withLast points).map SeriesPoint.t = points.map RollupRow.bucket := by
  rw [withLast, List.map_map]
  rfl

def RollupRow.key (r : RollupRow) : RollupKey :=
  { tenantId := r.tenantId
    resourceId := r.resourceId
    metric := r.metric
    mount := r.mount
    interface := r.interface
    bucket := r.bucket }

/-- The rollup has one row for each key that has samples. -/
theorem rollup_keys (samples : List MetricSample) :
    (rollup samples).map RollupRow.key = (samples.map rollupKey).eraseDups := by
  rw [rollup, List.map_map, ← groupBy_keys]
  rfl

def RollupKey.inBucket (tenantId resourceId metric : String) (fromMs toMs t : Int)
    (k : RollupKey) : Bool :=
  k.tenantId = tenantId ∧ k.resourceId = resourceId ∧ k.metric = metric ∧
    fromMs ≤ k.bucket ∧ k.bucket ≤ toMs ∧ k.bucket = t

theorem inBucket_key {r : RollupRow} :
    r.key.inBucket tenantId resourceId metric fromMs toMs t = true ↔
      r.tenantId = tenantId ∧ r.resourceId = resourceId ∧ r.metric = metric ∧
        fromMs ≤ r.bucket ∧ r.bucket ≤ toMs ∧ r.bucket = t :=
  decide_eq_true_iff

/-- In a bucket of a metric the pair of the mount and the interface is the key. -/
theorem inBucket_ext {k k' : RollupKey}
    (h : k.inBucket tenantId resourceId metric fromMs toMs t = true)
    (h' : k'.inBucket tenantId resourceId metric fromMs toMs t = true)
    (hpair : (k.mount, k.interface) = (k'.mount, k'.interface)) : k = k' := by
  simp only [RollupKey.inBucket, decide_eq_true_eq] at h h'
  obtain ⟨hmount, hinterface⟩ := Prod.mk.inj hpair
  obtain ⟨htenant, hresource, hmetric, -, -, hbucket⟩ := h
  obtain ⟨htenant', hresource', hmetric', -, -, hbucket'⟩ := h'
  exact RollupKey.ext (htenant.trans htenant'.symm) (hresource.trans hresource'.symm)
    (hmetric.trans hmetric'.symm) hmount hinterface (hbucket.trans hbucket'.symm)

/-- A metric has as many rows in a bucket as it has pairs of mounts and interfaces there. -/
theorem rows_in_bucket (samples : List MetricSample) (tenantId resourceId metric : String)
    (fromMs toMs t : Int) :
    (rollup samples).countP
        (fun r => r.key.inBucket tenantId resourceId metric fromMs toMs t) =
      pairsIn (samples.filter (inSeries tenantId resourceId metric fromMs toMs)) t := by
  set keys := (samples.map rollupKey).eraseDups with hkeys
  set p := RollupKey.inBucket tenantId resourceId metric fromMs toMs t with hp
  have hcount : (rollup samples).countP (fun r => p r.key) = (keys.filter p).length := by
    rw [hkeys, ← rollup_keys, ← List.countP_eq_length_filter, List.countP_map]
    rfl
  have hnodup : ((keys.filter p).map (fun k => (k.mount, k.interface))).Nodup := by
    apply List.Nodup.map_on _ ((Lists.nodup_eraseDups _).filter _)
    intro k hk k' hk' hpair
    exact inBucket_ext (List.mem_filter.mp hk).2 (List.mem_filter.mp hk').2 hpair
  rw [hcount, pairsIn, ← List.length_map (f := fun k : RollupKey => (k.mount, k.interface)),
    ← List.toFinset_card_of_nodup hnodup]
  congr 1
  ext d
  simp only [List.mem_toFinset, List.mem_map, List.mem_filter, hkeys, List.mem_eraseDups]
  constructor
  · rintro ⟨k, ⟨⟨r, hr, rfl⟩, hk⟩, rfl⟩
    simp only [hp, RollupKey.inBucket, rollupKey, decide_eq_true_eq] at hk
    obtain ⟨htenant, hresource, hmetric, hfrom, hto, hbucket⟩ := hk
    refine ⟨r, ⟨⟨hr, ?_⟩, decide_eq_true hbucket⟩, rfl⟩
    exact decide_eq_true ⟨htenant, hresource, hmetric, hfrom, hto⟩
  · rintro ⟨r, ⟨⟨hr, hin⟩, hbucket⟩, rfl⟩
    simp only [inSeries, decide_eq_true_eq] at hin hbucket
    obtain ⟨htenant, hresource, hmetric, hfrom, hto⟩ := hin
    refine ⟨rollupKey r, ⟨⟨r, hr, rfl⟩, ?_⟩, rfl⟩
    exact decide_eq_true ⟨htenant, hresource, hmetric, hfrom, hto, hbucket⟩

theorem mem_metricBuckets :
    t ∈ metricBuckets rows ↔ ∃ r ∈ rows, timeBucket r.observedAt = t := by
  rw [metricBuckets, Finset.mem_sort, List.mem_toFinset, List.mem_map]

theorem metricBuckets_sorted (rows : List MetricSample) :
    (metricBuckets rows).Pairwise (· < ·) :=
  (Finset.sortedLT_sort _).pairwise

theorem pairsIn_pos (h : t ∈ metricBuckets rows) : 1 ≤ pairsIn rows t := by
  obtain ⟨r, hr, hbucket⟩ := mem_metricBuckets.mp h
  apply Finset.card_pos.mpr
  refine ⟨dimensionPair r, List.mem_toFinset.mpr (List.mem_map_of_mem ?_)⟩
  exact List.mem_filter.mpr ⟨hr, decide_eq_true hbucket⟩

theorem pairsIn_zero (h : t ∉ metricBuckets rows) : pairsIn rows t = 0 := by
  have hnone : rows.filter (fun r => timeBucket r.observedAt = t) = [] := by
    rw [List.filter_eq_nil_iff]
    intro r hr hbucket
    exact h (mem_metricBuckets.mpr ⟨r, hr, of_decide_eq_true hbucket⟩)
  rw [pairsIn, hnone]
  rfl

/-- The rows of one metric of the answer: each bucket as often as it has pairs. -/
theorem metric_rows {g : String × List RollupRow}
    (hrollup : (db .rollup).rows.Perm (rollup samples))
    (hg : g ∈ groupBy RollupRow.metric (orderRollup ((db .rollup).rows.filter
      (inWindow tenantId resourceId q env.now)))) :
    g.2.map RollupRow.bucket =
      expand (pairsIn (samples.filter (inSeries tenantId resourceId g.1
          (env.now - q.days * 24 * 60 * 60 * 1000) env.now)))
        (metricBuckets (samples.filter (inSeries tenantId resourceId g.1
          (env.now - q.days * 24 * 60 * 60 * 1000) env.now))) := by
  set raw := (db .rollup).rows.filter (inWindow tenantId resourceId q env.now) with hraw
  have hmetric : g.1 ∈ longMetrics q.metric := by
    obtain ⟨r, hr, hmetric⟩ := List.mem_map.mp (mem_groupBy.mp (List.mem_map_of_mem hg))
    have hin := (List.mem_filter.mp ((orderRollup_perm raw).mem_iff.mp hr)).2
    simp only [inWindow, decide_eq_true_eq] at hin
    rw [← hmetric]
    exact hin.2.2.1
  rw [groupBy_rows hg]
  apply eq_expand (buckets_sorted raw g.1) (metricBuckets_sorted _)
  intro t
  have hcount :
      (((orderRollup raw).filter (fun r => r.metric = g.1)).map RollupRow.bucket).count t =
      pairsIn (samples.filter (inSeries tenantId resourceId g.1
        (env.now - q.days * 24 * 60 * 60 * 1000) env.now)) t := by
    rw [← rows_in_bucket, List.count, List.countP_map, List.countP_filter,
      (orderRollup_perm raw).countP_eq, hraw, List.countP_filter, hrollup.countP_eq]
    apply List.countP_congr
    intro r _
    rw [inBucket_key]
    simp only [inWindow, Function.comp_apply, Bool.and_eq_true, decide_eq_true_eq, beq_iff_eq]
    constructor
    · rintro ⟨⟨hbucket, hsame⟩, htenant, hresource, -, hfrom, hto⟩
      exact ⟨htenant, hresource, hsame, hfrom, hto, hbucket⟩
    · rintro ⟨htenant, hresource, hsame, hfrom, hto, hbucket⟩
      exact ⟨⟨hbucket, hsame⟩, htenant, hresource, hsame ▸ hmetric, hfrom, hto⟩
  rw [hcount]
  split
  · rfl
  · rename_i hnot
    exact pairsIn_zero hnot

/-- With as many rows a point as are needed, there are no more points than are asked for. -/
theorem step_suffices {n : ℕ} (hlimit : 1 ≤ limit) :
    0 < (max 1 (ceilDiv n limit)).toNat ∧ n ≤ limit.toNat * (max 1 (ceilDiv n limit)).toNat := by
  have hle := (ceilDiv_le_iff (a := n) (k := max 1 (ceilDiv n limit)) hlimit).mp
    (le_max_right _ _)
  refine ⟨by omega, ?_⟩
  have hcast : ((limit.toNat * (max 1 (ceilDiv n limit)).toNat : ℕ) : Int) =
      max 1 (ceilDiv n limit) * limit := by
    rw [Int.natCast_mul, Int.toNat_of_nonneg (by omega), Int.toNat_of_nonneg (by omega), mul_comm]
  omega

/-- The points of a metric of which the buckets and their pairs are known. -/
theorem thinned_iff {points : List RollupRow} {buckets : Option Int}
    (hlimit : 1 ≤ buckets.getD 288)
    (hpoints : points.map RollupRow.bucket = expand (pairsIn rows) (metricBuckets rows)) :
    ((downsample buckets (withLast points)).length : Int) ≤ buckets.getD 288 ∧
    (Thinned (metricBuckets rows) (buckets.getD 288) (downsample buckets (withLast points)) ↔
      Aligned (pairsIn rows) (metricBuckets rows) (stepFor rows (buckets.getD 288))) := by
  have hlength : (withLast points).length =
      before (pairsIn rows) (metricBuckets rows) (metricBuckets rows).length := by
    rw [← length_expand, ← hpoints, List.length_map, withLast, List.length_map]
  have htimes : (downsample buckets (withLast points)).map SeriesPoint.t =
      every (stepFor rows (buckets.getD 288)) (expand (pairsIn rows) (metricBuckets rows)) := by
    rw [downsample_times, withLast_times, hpoints, hlength, stepFor]
  obtain ⟨hstep, hfits⟩ : 0 < stepFor rows (buckets.getD 288) ∧
      before (pairsIn rows) (metricBuckets rows) (metricBuckets rows).length ≤
        (buckets.getD 288).toNat * stepFor rows (buckets.getD 288) := step_suffices hlimit
  have hcount : ((downsample buckets (withLast points)).length : Int) ≤ buckets.getD 288 := by
    rw [← List.length_map (f := SeriesPoint.t), htimes]
    have hle := length_every_le (l := expand (pairsIn rows) (metricBuckets rows)) hstep
      (by rwa [length_expand])
    omega
  refine ⟨hcount, ?_⟩
  rw [← atStride_iff ((metricBuckets_sorted rows).imp ne_of_lt) hstep]
  constructor
  · intro h
    have hstride := h.stride
    rwa [htimes] at hstride
  · intro h
    have hstride : AtStride (metricBuckets rows)
        ((downsample buckets (withLast points)).map SeriesPoint.t) := by
      rw [htimes]
      exact h
    exact ⟨hstride.increasing (metricBuckets_sorted rows), hcount, hstride⟩

theorem longQuerySchema_ok {ofText : Js.Json → Js.Number}
    (h : LongQuerySchema ofText query = .ok q) : ∀ n ∈ q.buckets, 10 ≤ n := by
  unfold LongQuerySchema Zod.object at h
  split at h
  · obtain ⟨f₂, buckets, h₂, hbuckets, rfl⟩ := Zod.ap_ok h
    obtain ⟨f₁, days, h₁, -, rfl⟩ := Zod.ap_ok h₂
    obtain ⟨metric, -, rfl⟩ := Zod.map_ok h₁
    exact fun n hn => (Zod.optional_coerceInt_ok hbuckets n hn).1
  · cases h

/-- The host's samples of a metric in the buckets of the query's window. -/
def seriesSamples (env : Env) (ctx : Caller) (host : Host) (q : LongQuery)
    (samples : List MetricSample) (metric : String) : List MetricSample :=
  samples.filter (inSeries ctx.tenantId (metricResource host) metric
    (env.now - q.days * 24 * 60 * 60 * 1000) env.now)

/-- Every series has at most as many points as are asked for; they have one bucket each, at a
constant stride, exactly where the step between the rows is aligned with the pairs of the
buckets. -/
theorem longSeries_thinned_iff (hq : LongQuerySchema env.ofText query = .ok q)
    (hhost : outcome (findHost env ctx id) db = (.ok host, db))
    (havailable : env.rollupAvailable = true)
    (hrollup : (db .rollup).rows.Perm (rollup (db .metricSamples).rows)) :
    ∃ a, outcome (MetricsController.longSeries env ctx id query) db = (.ok a, db) ∧
      ∀ s ∈ a.series, ∀ rows, rows = seriesSamples env ctx host q (db .metricSamples).rows s.1 →
        (s.2.length : Int) ≤ q.buckets.getD 288 ∧
        (Thinned (metricBuckets rows) (q.buckets.getD 288) s.2 ↔
          Aligned (pairsIn rows) (metricBuckets rows) (stepFor rows (q.buckets.getD 288))) := by
  have hlimit : 1 ≤ q.buckets.getD 288 := by
    have hbuckets := longQuerySchema_ok hq
    cases hb : q.buckets with
    | none =>
      rw [Option.getD_none]
      omega
    | some n =>
      have hn := hbuckets n hb
      rw [Option.getD_some]
      omega
  refine ⟨_, longSeries_outcome hq hhost havailable, ?_⟩
  intro s hs rows hrows
  obtain ⟨g, hg, rfl⟩ := List.mem_map.mp hs
  rw [hrows]
  exact thinned_iff hlimit (metric_rows hrollup hg)

/-- A metric without mounts and interfaces has one pair in each of its buckets. -/
theorem aligned_of_single (hlimit : 1 ≤ limit)
    (h : ∀ t ∈ metricBuckets rows, pairsIn rows t = 1) :
    Aligned (pairsIn rows) (metricBuckets rows) (stepFor rows limit) :=
  aligned_single h (step_suffices hlimit).1

/-- Where no rows are left out, no bucket may have two pairs. -/
theorem aligned_unthinned (h : stepFor rows limit = 1) :
    Aligned (pairsIn rows) (metricBuckets rows) (stepFor rows limit) ↔
      ∀ t ∈ metricBuckets rows, pairsIn rows t = 1 := by
  rw [h]
  exact aligned_one_iff fun t ht => pairsIn_pos ht

theorem rollup_unique (samples : List MetricSample) :
    ((rollup samples).map TableName.rollup.key).Nodup := by
  have hkeys : ((rollup samples).map RollupRow.key).Nodup := by
    rw [rollup_keys]
    exact Lists.nodup_eraseDups _
  exact (List.Nodup.of_map _ hkeys).map fun a b hab => hab
end

def rolledUp (samples : Table schema .metricSamples) : Store :=
  Function.update (Function.update oneHost .metricSamples samples) .rollup
    { rows := rollup samples.rows, unique := rollup_unique samples.rows }

def tenMinutesAgo (id metric : String) (dimensions : List (String × String)) : MetricSample :=
  { id
    tenantId := "t"
    resourceId := "web-1"
    metric
    value := 1
    dimensions
    observedAt := viewEnv.now - 600000 }

theorem samples_unique (r r' : MetricSample) (h : r.id ≠ r'.id) :
    ([r, r'].map TableName.metricSamples.key).Nodup := by
  simp [TableName.key, h]

def cpuSamples : Table schema .metricSamples where
  rows :=
    [tenMinutesAgo "1" "host.cpu.usage_percent" [], tenMinutesAgo "2" "host.cpu.usage_percent" []]
  unique := samples_unique _ _ (by decide)

def mountSamples : Table schema .metricSamples where
  rows :=
    [tenMinutesAgo "1" "host.filesystem.used_bytes" [("mount", "/")],
      tenMinutesAgo "2" "host.filesystem.used_bytes" [("mount", "/data")]]
  unique := samples_unique _ _ (by decide)

def usedQuery : Option Js.Json :=
  some (.object [("metric", .string "host.filesystem.used_bytes")])

theorem usedQuery_parsed : LongQuerySchema viewEnv.ofText usedQuery =
    .ok { metric := some "host.filesystem.used_bytes", days := 7, buckets := none } :=
  rfl

theorem rolledHost_found (samples : Table schema .metricSamples) :
    outcome (findHost viewEnv viewer "web-1") (rolledUp samples) =
      (.ok webHost, rolledUp samples) :=
  rfl

/-- The default query on one metric without mounts. -/
theorem cpu_thinned : ∃ a,
    outcome (MetricsController.longSeries viewEnv viewer "web-1" (some (.object [])))
      (rolledUp cpuSamples) = (.ok a, rolledUp cpuSamples) ∧
    ∀ s ∈ a.series, ∀ rows, rows = seriesSamples viewEnv viewer webHost
        { metric := none, days := 7, buckets := none } cpuSamples.rows s.1 →
      (s.2.length : Int) ≤ 288 ∧
      (Thinned (metricBuckets rows) 288 s.2 ↔
        Aligned (pairsIn rows) (metricBuckets rows) (stepFor rows 288)) :=
  longSeries_thinned_iff (q := { metric := none, days := 7, buckets := none }) rfl
    (rolledHost_found cpuSamples) rfl (List.Perm.refl _)

/-- Two mounts give two points at one time. -/
theorem mounts_repeat_time : ∃ a,
    outcome (MetricsController.longSeries viewEnv viewer "web-1" usedQuery)
      (rolledUp mountSamples) = (.ok a, rolledUp mountSamples) ∧
    a.series.map (fun s => (s.1, s.2.map SeriesPoint.t)) =
      [("host.filesystem.used_bytes", [1782906600000, 1782906600000])] ∧
    ∀ s ∈ a.series, ∀ buckets limit, ¬ Thinned buckets limit s.2 := by
  have htimes : (longRows none ((rollup mountSamples.rows).filter
      (inWindow "t" "web-1"
        { metric := some "host.filesystem.used_bytes", days := 7, buckets := none }
        viewEnv.now))).map (fun s => (s.1, s.2.map SeriesPoint.t)) =
      [("host.filesystem.used_bytes", [1782906600000, 1782906600000])] := by decide +kernel
  refine ⟨_, longSeries_outcome usedQuery_parsed (rolledHost_found mountSamples) rfl, htimes, ?_⟩
  intro s hs buckets limit hthinned
  have hpair : (s.1, s.2.map SeriesPoint.t) ∈
      [("host.filesystem.used_bytes", [1782906600000, 1782906600000])] := by
    rw [← htimes]
    exact List.mem_map.mpr ⟨s, hs, rfl⟩
  have hincreasing := hthinned.increasing
  rw [(Prod.mk.inj (List.mem_singleton.mp hpair)).2] at hincreasing
  exact absurd hincreasing (by decide)

end WaOps.Api
