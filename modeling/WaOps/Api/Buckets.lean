import WaOps.Api.Window

namespace WaOps.Api
open Lib Lib.Scoped Lib.Tables

variable {b : Bins} {rows : List MetricSample} {s : String × List SeriesPoint}
  {xs : List (String × SeriesPoint)} {m : String} {t : Int}

/-- The metric and the bin of a row of the query. -/
def place (x : String × SeriesPoint) : String × Int := (x.1, x.2.t)

/-- The query has one row for each metric and bin that has samples. -/
theorem places (b : Bins) (rows : List MetricSample) :
    ((binnedRows b rows).map place).Perm ((groupBy b.place rows).map Prod.fst) := by
  have hperm := (List.perm_insertionSort
    (fun a b : String × SeriesPoint => a.1 < b.1 ∨ a.1 = b.1 ∧ a.2.t ≤ b.2.t)
    ((groupBy b.place rows).map (fun g => binned g.1 g.2))).map place
  rw [List.map_map] at hperm
  exact hperm

theorem places_nodup (b : Bins) (rows : List MetricSample) :
    ((binnedRows b rows).map place).Nodup :=
  (places b rows).nodup_iff.mpr groupBy_nodup

theorem mem_places {k : String × Int} :
    k ∈ (binnedRows b rows).map place ↔ k ∈ rows.map b.place := by
  rw [(places b rows).mem_iff, mem_groupBy]

theorem series_points (h : s ∈ toSeries xs) :
    s.2.map SeriesPoint.t = (xs.filter (fun x => x.1 = s.1)).map (fun x => x.2.t) := by
  obtain ⟨g, hg, rfl⟩ := List.mem_map.mp h
  rw [groupBy_rows hg, List.map_map]
  rfl

/-- The points of a series are the bins with samples of its metric, each once. -/
theorem binnedSeries_nodup (h : s ∈ binnedSeries b rows) : (s.2.map SeriesPoint.t).Nodup := by
  have hpart := (places_nodup b rows).sublist
    ((List.filter_sublist (p := fun x : String × SeriesPoint => x.1 = s.1)).map place)
  have hpair : ((binnedRows b rows).filter (fun x => x.1 = s.1)).map place =
      (s.2.map SeriesPoint.t).map (fun t => (s.1, t)) := by
    rw [series_points h, List.map_map]
    apply List.map_congr_left
    intro x hx
    have hmetric : x.1 = s.1 := by simpa using (List.mem_filter.mp hx).2
    simp [place, hmetric]
  rw [hpair] at hpart
  exact List.Nodup.of_map _ hpart

theorem mem_binnedSeries (h : s ∈ binnedSeries b rows) :
    t ∈ s.2.map SeriesPoint.t ↔ (s.1, t) ∈ rows.map b.place := by
  rw [series_points h, ← mem_places]
  simp [place, and_comm]

theorem binnedSeries_metric (h : m ∈ rows.map MetricSample.metric) :
    ∃ s ∈ binnedSeries b rows, s.1 = m := by
  obtain ⟨r, hr, rfl⟩ := List.mem_map.mp h
  have hplace : b.place r ∈ (binnedRows b rows).map place :=
    mem_places.mpr (List.mem_map_of_mem hr)
  obtain ⟨x, hx, hxr⟩ := List.mem_map.mp hplace
  have hkey : r.metric ∈ (groupBy Prod.fst (binnedRows b rows)).map Prod.fst :=
    mem_groupBy.mpr (List.mem_map.mpr ⟨x, hx, congrArg Prod.fst hxr⟩)
  obtain ⟨g, hg, hgm⟩ := List.mem_map.mp hkey
  exact ⟨(g.1, g.2.map Prod.snd), List.mem_map.mpr ⟨g, hg, rfl⟩, hgm⟩

variable {q : SeriesQuery} {env : Env} {ctx : Caller} {id : String} {query : Option Js.Json}
  {host : Host} {db : Store} {now width origin : Int}

theorem dateBin_bin (h : 0 < width) (k : Int) :
    dateBin width origin (origin + k * width) = origin + k * width := by
  rw [dateBin, add_sub_cancel_left, Int.mul_ediv_cancel _ h.ne']

/-- A bin is as wide as reported where the reported width is one of whole minutes. -/
theorem stride_width (h : 1 ≤ width) : strideMinutes width * 60000 = width ↔ 60000 ∣ width := by
  unfold strideMinutes
  omega

theorem ceilDiv_mul_gt {a c : Int} (hc : 1 ≤ c) (h : ¬ c ∣ a) : a < ceilDiv a c * c := by
  have hdiv := Int.mul_ediv_add_emod (a + c - 1) c
  have hmod := Int.emod_lt_of_pos (a + c - 1) (by omega : 0 < c)
  have hne : a ≠ ceilDiv a c * c := fun he => h (he ▸ dvd_mul_left c _)
  unfold ceilDiv at hne ⊢
  have hcomm := mul_comm c ((a + c - 1) / c)
  omega

theorem ceilDiv_dvd {a c : Int} (hc : 1 ≤ c) (h : c ∣ a) : ceilDiv a c * c = a := by
  obtain ⟨k, rfl⟩ := h
  have hk : (c * k + c - 1) / c = k := by
    rw [Int.ediv_eq_iff_of_pos (by omega)]
    constructor <;> nlinarith
  rw [ceilDiv, hk, mul_comm]

/-- What is promised of an answer. -/
structure SeriesAnswer.Bounded (a : SeriesAnswer) (buckets widthMs : Int) : Prop where
  count : ∀ s ∈ a.series, (s.2.length : Int) ≤ buckets ∧ s.2.length ≤ 200
  width : a.bucketMs = widthMs
  grid : ∀ s ∈ a.series, ∀ p ∈ s.2, ∃ k : Nat, p.t = a.fromMs + k * a.bucketMs

/-- The store with other samples. -/
def withSamples (db : Store) (samples : Table schema .metricSamples) : Store :=
  Function.update db .metricSamples samples

/-- Whatever samples there are, the answer is as promised. -/
def AlwaysBounded (env : Env) (ctx : Caller) (id : String) (query : Option Js.Json)
    (q : SeriesQuery) (db : Store) : Prop :=
  ∀ samples b a db', (window q env.now).bins env.readsInstant = some b →
    outcome (MetricsController.series env ctx id query) (withSamples db samples) = (.ok a, db') →
    a.Bounded (q.bucketsOr env.now) b.widthMs

theorem findHost_withSamples {samples : Table schema .metricSamples}
    (h : outcome (findHost env ctx id) db = (.ok host, db)) :
    outcome (findHost env ctx id) (withSamples db samples) =
      (.ok host, withSamples db samples) := by
  have hhosts : withSamples db samples .hosts = db .hosts := Function.update_of_ne (by decide) _ _
  unfold findHost findOrNotFound uuidOf at h ⊢
  cases hparse : env.parseUuid id with
  | none =>
    rw [hparse] at h
    cases h
  | some uuid =>
    simp only [hparse, pure_bind] at h ⊢
    rw [outcome_bind] at h ⊢
    simp only [Prisma.findFirst, findFirst, outcome_query, hhosts] at h ⊢
    cases hfound : (db .hosts).rows.find? _ with
    | none =>
      rw [hfound] at h
      cases h
    | some r =>
      rw [hfound] at h
      cases h
      rfl

/-- The points lie in different bins, the first of which begins at from. -/
theorem points_bounded {n : Nat} (hwidth : 0 < b.widthMs)
    (hrows : ∀ r ∈ rows, b.fromMs ≤ r.observedAt ∧ r.observedAt - b.fromMs < n * b.widthMs)
    (h : s ∈ binnedSeries b rows) :
    s.2.length ≤ n ∧ ∀ t ∈ s.2.map SeriesPoint.t, ∃ k : Nat, t = b.fromMs + k * b.widthMs := by
  have hbin : ∀ t ∈ s.2.map SeriesPoint.t,
      ∃ k < n, t = b.fromMs + (k : Int) * b.widthMs := by
    intro t ht
    obtain ⟨r, hr, hplace⟩ := List.mem_map.mp ((mem_binnedSeries h).mp ht)
    obtain ⟨hlow, hhigh⟩ := hrows r hr
    obtain rfl : dateBin b.widthMs b.fromMs r.observedAt = t := congrArg Prod.snd hplace
    have hnonneg : 0 ≤ (r.observedAt - b.fromMs) / b.widthMs :=
      Int.ediv_nonneg (by omega) hwidth.le
    have hlt : (r.observedAt - b.fromMs) / b.widthMs < n :=
      (Int.ediv_lt_iff_lt_mul hwidth).mpr hhigh
    refine ⟨((r.observedAt - b.fromMs) / b.widthMs).toNat, by omega, ?_⟩
    rw [Int.toNat_of_nonneg hnonneg]
    rfl
  have hsubset : s.2.map SeriesPoint.t ⊆
      (List.range n).map (fun k : Nat => b.fromMs + (k : Int) * b.widthMs) := by
    intro t ht
    obtain ⟨k, hk, rfl⟩ := hbin t ht
    exact List.mem_map.mpr ⟨k, List.mem_range.mpr hk, rfl⟩
  have hlength := (List.subperm_of_subset (binnedSeries_nodup h) hsubset).length_le
  rw [List.length_map, List.length_map, List.length_range] at hlength
  refine ⟨hlength, ?_⟩
  intro t ht
  obtain ⟨k, -, hk⟩ := hbin t ht
  exact ⟨k, hk⟩

/-- A sample of the first metric asked for, with the dimensions asked for. -/
def sampleAt (tenantId resourceId : String) (q : SeriesQuery) (observedAt : Int) : MetricSample :=
  { id := "sample"
    tenantId
    resourceId
    metric := (seriesMetrics q.metric).headD ""
    value := 0
    dimensions := q.mount.toList.map ("mount", ·) ++ q.interface.toList.map ("interface", ·)
    observedAt }

theorem sampleAt_picked {tenantId resourceId : String} (hlow : b.fromMs ≤ t) (hhigh : t ≤ b.toMs) :
    picked tenantId resourceId q b (sampleAt tenantId resourceId q t) := by
  have hmetric : (seriesMetrics q.metric).headD "" ∈ seriesMetrics q.metric := by
    cases q.metric <;> simp [seriesMetrics]
  have hmount : dimensionIs "mount" q.mount (sampleAt tenantId resourceId q t) := by
    unfold dimensionIs sampleAt
    cases q.mount <;> simp
  have hinterface : dimensionIs "interface" q.interface (sampleAt tenantId resourceId q t) := by
    unfold dimensionIs sampleAt
    cases q.mount <;> cases q.interface <;> simp [List.lookup_cons]
  simp only [picked, hmount, hinterface, decide_eq_true_eq]
  exact ⟨rfl, rfl, hmetric, hlow, hhigh, trivial, trivial⟩

/-- Where every bin has a sample, every bin has a point. -/
theorem points_full {n : Nat} (hwidth : 0 < b.widthMs) (hm : s.1 = m)
    (hrows : ∀ k < n, ∃ r ∈ rows, r.metric = m ∧ r.observedAt = b.fromMs + k * b.widthMs)
    (h : s ∈ binnedSeries b rows) : n ≤ s.2.length := by
  have hsubset : (List.range n).map (fun k : Nat => b.fromMs + (k : Int) * b.widthMs) ⊆
      s.2.map SeriesPoint.t := by
    intro t ht
    obtain ⟨k, hk, rfl⟩ := List.mem_map.mp ht
    obtain ⟨r, hr, hmetric, hobserved⟩ := hrows k (List.mem_range.mp hk)
    rw [mem_binnedSeries h]
    refine List.mem_map.mpr ⟨r, hr, ?_⟩
    rw [Bins.place, hmetric, hobserved, dateBin_bin hwidth, hm]
  have hnodup : ((List.range n).map (fun k : Nat => b.fromMs + (k : Int) * b.widthMs)).Nodup := by
    apply List.Nodup.map _ List.nodup_range
    intro k k' heq
    have heq : (k : Int) * b.widthMs = k' * b.widthMs := by
      dsimp only at heq
      omega
    exact_mod_cast Int.eq_of_mul_eq_mul_right hwidth.ne' heq
  have hlength := (List.subperm_of_subset hnodup hsubset).length_le
  rwa [List.length_map, List.length_map, List.length_range] at hlength

def SeriesQuery.bins (q : SeriesQuery) (now : Int) : Bins :=
  { fromMs := q.fromOr now
    toMs := q.toOr now
    bucketMs := q.bucketMs now
    minutes := strideMinutes (q.bucketMs now) }

/-- A query has bins where it fits. -/
theorem bins_iff (hq : Accepted q) (hnow : 0 ≤ env.now) (hspan : 0 < q.spanMs env.now) :
    (window q env.now).bins env.readsInstant = some b ↔ q.Fits env ∧ b = q.bins env.now := by
  constructor
  · intro h
    have hto := inRange_date (bins_inRange h)
    rw [bins_exact hq hnow hto hspan] at h
    split at h
    · rename_i hfit
      cases h
      exact ⟨⟨hto, hfit.1, hfit.2⟩, rfl⟩
    · cases h
  · rintro ⟨hfits, rfl⟩
    rw [bins_exact hq hnow hfits.date hspan, if_pos ⟨hfits.width, hfits.read⟩]
    rfl

/-- What a query that fits is answered. -/
theorem series_answers (hnow : 0 ≤ env.now) (hq : QuerySchema env.ofText query = .ok q)
    (hhost : outcome (findHost env ctx id) db = (.ok host, db)) (hspan : 0 < q.spanMs env.now)
    (hfits : q.Fits env) (samples : Table schema .metricSamples) :
    outcome (MetricsController.series env ctx id query) (withSamples db samples) =
      (.ok { hostId := host.id, resourceId := metricResource host, fromMs := q.fromOr env.now
             toMs := q.toOr env.now, bucketMs := q.bucketMs env.now
             series := binnedSeries (q.bins env.now) (samples.rows.filter
               (picked ctx.tenantId (metricResource host) q (q.bins env.now))) },
        withSamples db samples) := by
  have hge : ¬ (window q env.now).fromMs.ge (window q env.now).toMs := by
    rw [window_ge (querySchema_ok hq) hnow hfits.date]
    omega
  have hbins := (bins_iff (querySchema_ok hq) hnow hspan).mpr ⟨hfits, rfl⟩
  have hsamples : (withSamples db samples .metricSamples) = samples := Function.update_self _ _ _
  rw [series_outcome hq (findHost_withSamples hhost)]
  simp only [if_neg hge, hbins, hsamples]
  rfl

/-- A sample at the beginning of each of the first bins. -/
def perBin (tenantId resourceId : String) (q : SeriesQuery) (b : Bins) (h : 0 < b.widthMs)
    (n : Nat) : Table schema .metricSamples where
  rows := (List.range n).map (fun k : Nat =>
    sampleAt tenantId resourceId q (b.fromMs + k * b.widthMs))
  unique := by
    rw [List.map_map]
    apply List.Nodup.map _ List.nodup_range
    intro k k' heq
    have heq : b.fromMs + (k : Int) * b.widthMs = b.fromMs + k' * b.widthMs :=
      congrArg Prod.snd heq
    exact_mod_cast Int.eq_of_mul_eq_mul_right h.ne' (Int.add_left_cancel heq)

/-- No samples break the promises only where the width is one of whole minutes and the last instant
of the window begins no bin. -/
theorem whole_minutes_of_bounded (hnow : 0 ≤ env.now) (hq : QuerySchema env.ofText query = .ok q)
    (hhost : outcome (findHost env ctx id) db = (.ok host, db)) (hspan : 0 < q.spanMs env.now)
    (hfits : q.Fits env) (hall : AlwaysBounded env ctx id query q db) :
    60000 ∣ q.bucketMs env.now ∧ ¬ q.bucketsOr env.now ∣ q.spanMs env.now := by
  have haccepted := querySchema_ok hq
  have hone : 1 ≤ q.bucketsOr env.now :=
    (bucketCount_bounds (q.spanMs env.now) haccepted.buckets).1
  have hbins := (bins_iff haccepted hnow hspan).mpr ⟨hfits, rfl⟩
  have hanswer := fun samples => hall samples _ _ _ hbins
    (series_answers hnow hq hhost hspan hfits samples)
  have hpos : 1 ≤ q.bucketMs env.now := (ceilDiv_bounds hspan hone).1
  have hwidth : q.bucketMs env.now = (q.bins env.now).widthMs := (hanswer (db .metricSamples)).width
  refine ⟨(stride_width hpos).mp hwidth.symm, ?_⟩
  intro hdvd
  have hspans : q.bucketMs env.now * q.bucketsOr env.now = q.spanMs env.now :=
    ceilDiv_dvd hone hdvd
  -- One sample in each bin, the last of them at the end of the window.
  set b := q.bins env.now with hb
  have hbpos : 0 < b.widthMs := by omega
  set n := (q.bucketsOr env.now).toNat + 1 with hn
  set rows := (perBin ctx.tenantId (metricResource host) q b hbpos n).rows.filter
    (picked ctx.tenantId (metricResource host) q b) with hrows
  have hsample : ∀ k < n, ∃ r ∈ rows, r.metric = (seriesMetrics q.metric).headD "" ∧
      r.observedAt = b.fromMs + (k : Int) * b.widthMs := by
    intro k hk
    refine ⟨sampleAt ctx.tenantId (metricResource host) q (b.fromMs + k * b.widthMs), ?_, rfl, rfl⟩
    refine List.mem_filter.mpr ⟨List.mem_map.mpr ⟨k, List.mem_range.mpr hk, rfl⟩, ?_⟩
    have hstep : (k : Int) * b.widthMs ≤ q.spanMs env.now := by
      rw [← hspans, hwidth, mul_comm]
      exact mul_le_mul_of_nonneg_left (by omega) hbpos.le
    have hnonneg : 0 ≤ (k : Int) * b.widthMs := by positivity
    have hend : b.fromMs + q.spanMs env.now = b.toMs := by
      change q.fromOr env.now + (q.toOr env.now - q.fromOr env.now) = q.toOr env.now
      omega
    exact sampleAt_picked (by omega) (by omega)
  obtain ⟨r, hr, hmetric, -⟩ := hsample 0 (by omega)
  obtain ⟨s, hs, hsm⟩ := binnedSeries_metric (b := b)
    (List.mem_map.mpr ⟨r, hr, hmetric⟩)
  have hfull := points_full hbpos hsm hsample hs
  have hcount := ((hanswer (perBin ctx.tenantId (metricResource host) q b hbpos n)).count s hs).1
  omega

theorem bounded_of_whole_minutes (hnow : 0 ≤ env.now) (hq : QuerySchema env.ofText query = .ok q)
    (hhost : outcome (findHost env ctx id) db = (.ok host, db))
    (hcond : 0 < q.spanMs env.now → q.Fits env →
      60000 ∣ q.bucketMs env.now ∧ ¬ q.bucketsOr env.now ∣ q.spanMs env.now) :
    AlwaysBounded env ctx id query q db := by
  have haccepted := querySchema_ok hq
  obtain ⟨hone, hmax⟩ : 1 ≤ q.bucketsOr env.now ∧ q.bucketsOr env.now ≤ 200 :=
    bucketCount_bounds (q.spanMs env.now) haccepted.buckets
  intro samples b a db' hbins houtcome
  have hto := inRange_date (bins_inRange hbins)
  have hspan : 0 < q.spanMs env.now := by
    by_contra hspan
    have hge := (window_ge haccepted hnow hto).mpr (by omega)
    rw [series_outcome hq (findHost_withSamples hhost)] at houtcome
    simp only [if_pos hge] at houtcome
    cases houtcome
  obtain ⟨hfits, rfl⟩ := (bins_iff haccepted hnow hspan).mp hbins
  obtain ⟨hminutes, hndvd⟩ := hcond hspan hfits
  rw [series_answers hnow hq hhost hspan hfits] at houtcome
  cases houtcome
  have hpos : 1 ≤ q.bucketMs env.now := (ceilDiv_bounds hspan hone).1
  have hwidth : (q.bins env.now).widthMs = q.bucketMs env.now := (stride_width hpos).mpr hminutes
  have hwide : q.spanMs env.now < q.bucketMs env.now * q.bucketsOr env.now :=
    ceilDiv_mul_gt hone hndvd
  have hrows : ∀ r ∈ samples.rows.filter
      (picked ctx.tenantId (metricResource host) q (q.bins env.now)),
      (q.bins env.now).fromMs ≤ r.observedAt ∧ r.observedAt - (q.bins env.now).fromMs <
        ((q.bucketsOr env.now).toNat : Int) * (q.bins env.now).widthMs := by
    intro r hr
    have hpicked := (List.mem_filter.mp hr).2
    simp only [picked, decide_eq_true_eq] at hpicked
    obtain ⟨-, -, -, hlow, hhigh, -⟩ := hpicked
    have hend : (q.bins env.now).toMs - (q.bins env.now).fromMs = q.spanMs env.now := rfl
    refine ⟨hlow, ?_⟩
    rw [Int.toNat_of_nonneg (by omega), hwidth, mul_comm]
    omega
  have hpoints := fun s hs => points_bounded (s := s) (by omega) hrows hs
  refine ⟨?_, hwidth.symm, ?_⟩
  · intro s hs
    have hlength := (hpoints s hs).1
    omega
  · intro s hs p hp
    obtain ⟨k, hk⟩ := (hpoints s hs).2 p.t (List.mem_map_of_mem hp)
    refine ⟨k, ?_⟩
    rw [hwidth] at hk
    exact hk

/-- The promises are kept exactly where the reported width is one of whole minutes and the last
instant of the window does not begin a bin of its own. -/
theorem series_bounded_iff (hnow : 0 ≤ env.now) (hq : QuerySchema env.ofText query = .ok q)
    (hhost : outcome (findHost env ctx id) db = (.ok host, db)) :
    AlwaysBounded env ctx id query q db ↔ (0 < q.spanMs env.now → q.Fits env →
      60000 ∣ q.bucketMs env.now ∧ ¬ q.bucketsOr env.now ∣ q.spanMs env.now) :=
  ⟨fun hall hspan hfits => whole_minutes_of_bounded hnow hq hhost hspan hfits hall,
    bounded_of_whole_minutes hnow hq hhost⟩

/-- Ten minutes less a millisecond, in ten bins. -/
def tenMinutes : Option Js.Json :=
  some (.object [("from", .string "0"), ("to", .string "599999"), ("buckets", .string "10")])

def tenBins : SeriesQuery :=
  { noBounds with fromMs := some 0, toMs := some 599999, buckets := some 10 }

theorem tenMinutes_parsed : QuerySchema viewEnv.ofText tenMinutes = .ok tenBins := by
  have hfrom : Js.number "0" = .finite (0 : Int) := by
    rw [show "0" = Js.integerText 0 by decide +kernel]
    exact Js.number_integerText (by decide)
  have hto : Js.number "599999" = .finite (599999 : Int) := by
    rw [show "599999" = Js.integerText 599999 by decide +kernel]
    exact Js.number_integerText (by decide)
  have hbuckets : Js.number "10" = .finite (10 : Int) := by
    rw [show "10" = Js.integerText 10 by decide +kernel]
    exact Js.number_integerText (by decide)
  have hmax : (10 : Rat) ≤ 200 := by norm_num
  simp [QuerySchema, tenMinutes, Zod.object, Zod.field, Js.Json.field, Zod.optional,
    Zod.coerceInt, Js.toNumber, viewEnv, hfrom, hto, hbuckets, hmax, Zod.settle,
    Zod.Parsed.map, Zod.Parsed.ap, noBounds, tenBins]

theorem tenMinutes_bounded : AlwaysBounded viewEnv viewer "web-1" tenMinutes tenBins oneHost :=
  (series_bounded_iff (by decide) tenMinutes_parsed webHost_found).mpr
    (fun _ _ => by decide)

/-- A query without parameters may be answered with 61 points in 60 bins. -/
theorem defaults_unbounded : ¬ ∀ (env : Env) (ctx : Caller) (id : String)
    (query : Option Js.Json) (q : SeriesQuery) (host : Host) (db : Store), 0 ≤ env.now →
    QuerySchema env.ofText query = .ok q →
    outcome (findHost env ctx id) db = (.ok host, db) →
    AlwaysBounded env ctx id query q db := by
  intro h
  have hparsed : QuerySchema viewEnv.ofText (some (.object [])) = .ok noBounds := rfl
  have hall := h viewEnv viewer "web-1" _ noBounds webHost oneHost (by decide) hparsed
    webHost_found
  have hnot := (whole_minutes_of_bounded (by decide) hparsed webHost_found (by decide)
    ⟨by decide, by decide, by decide⟩ hall).2
  revert hnot
  decide

end WaOps.Api
