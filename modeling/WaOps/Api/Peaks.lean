import Mathlib.Data.String.Basic
import WaOps.Api.Buckets
import WaOps.Api.Filesystems
import WaOps.Api.Reads

namespace WaOps.Api
open Lib Lib.Scoped Lib.Tables Lib.Sorting

/-- A point tells of some samples: their greatest value, their mean and the value of a latest
one. -/
structure SeriesPoint.TellsOf (p : SeriesPoint) (samples : List MetricSample) : Prop where
  some : samples ≠ []
  max : (∃ r ∈ samples, r.value = p.max) ∧ ∀ r ∈ samples, r.value ≤ p.max
  mean : p.avg * samples.length = (samples.map MetricSample.value).sum
  last : ∃ r, Latest samples r ∧ r.value = p.last

/-- The samples of a metric that a point stands for: those of the bin that begins at it. -/
def samplesOf (b : Bins) (rows : List MetricSample) (metric : String) (p : SeriesPoint) :
    List MetricSample :=
  rows.filter (fun r => r.metric = metric ∧ p.t ≤ r.observedAt ∧ r.observedAt < p.t + b.widthMs)

/-- A series accounts for the samples of its metric: its points follow each other a bin or more
apart and tell of the samples of their bins, every sample is in one of these, and the last point
has the latest value. -/
structure Accounts (b : Bins) (rows : List MetricSample) (s : String × List SeriesPoint) :
    Prop where
  order : (s.2.map SeriesPoint.t).Pairwise (fun t t' => t + b.widthMs ≤ t')
  points : ∀ p ∈ s.2, p.TellsOf (samplesOf b rows s.1 p)
  covered : ∀ r ∈ rows, r.metric = s.1 → ∃ p ∈ s.2, r ∈ samplesOf b rows s.1 p
  newest : ∃ p, s.2.getLast? = some p ∧
    ∃ r, Latest (rows.filter (fun r => r.metric = s.1)) r ∧ r.value = p.last

section
variable {b : Bins} {rows : List MetricSample} {s : String × List SeriesPoint} {p : SeriesPoint}
  {width origin t t' : Int}

theorem dateBin_iff (h : 0 < width) {k : Int} :
    dateBin width origin t = origin + k * width ↔
      origin + k * width ≤ t ∧ t < origin + k * width + width := by
  have hdiv : (t - origin) / width = k ↔
      k * width ≤ t - origin ∧ t - origin < k * width + width := Int.ediv_eq_iff_of_pos h
  have hmul : (t - origin) / width * width = k * width ↔ (t - origin) / width = k :=
    ⟨fun heq => Int.eq_of_mul_eq_mul_right h.ne' heq, fun heq => by rw [heq]⟩
  unfold dateBin
  constructor
  · intro heq
    have := hdiv.mp (hmul.mp (by omega))
    omega
  · intro hin
    have := hmul.mpr (hdiv.mpr ⟨by omega, by omega⟩)
    omega

/-- A point of a series stands for a bin with samples. -/
theorem point_bin (h : s ∈ binnedSeries b rows) (hp : p ∈ s.2) :
    ∃ k : Int, p.t = b.fromMs + k * b.widthMs := by
  have hmem : p.t ∈ s.2.map SeriesPoint.t := List.mem_map_of_mem hp
  obtain ⟨r, -, hr⟩ := List.mem_map.mp ((mem_binnedSeries h).mp hmem)
  exact ⟨_, (congrArg Prod.snd hr).symm⟩

/-- The bin of a point by its bounds. -/
theorem samplesOf_eq (hwidth : 0 < b.widthMs) (h : s ∈ binnedSeries b rows) (hp : p ∈ s.2) :
    samplesOf b rows s.1 p = rows.filter (fun r => b.place r = (s.1, p.t)) := by
  obtain ⟨k, hk⟩ := point_bin h hp
  apply List.filter_congr
  intro r _
  rw [decide_eq_decide, Bins.place, Prod.mk.injEq, hk, dateBin_iff hwidth]

/-- Each point is a row of the query. -/
theorem point_binned (h : s ∈ binnedSeries b rows) (hp : p ∈ s.2) :
    p = (binned (s.1, p.t) (rows.filter (fun r => b.place r = (s.1, p.t)))).2 := by
  obtain ⟨g, hg, rfl⟩ := List.mem_map.mp h
  rw [groupBy_rows hg] at hp
  obtain ⟨x, hx, rfl⟩ := List.mem_map.mp hp
  obtain ⟨hx, hmetric⟩ := List.mem_filter.mp hx
  have hmetric : x.1 = g.1 := by simpa using hmetric
  obtain ⟨g', hg', rfl⟩ := List.mem_map.mp ((List.mem_insertionSort _).mp hx)
  have hplace : g'.1 = (g.1, (binned g'.1 g'.2).2.t) := by
    rw [← hmetric]
    rfl
  rw [← hplace, ← groupBy_rows hg']

theorem latest_last {samples : List MetricSample} (h : samples ≠ []) : ∃ r, Latest samples r ∧
    r.value = ((orderDesc MetricSample.observedAt samples).map MetricSample.value).headD 0 := by
  have hperm : (orderDesc MetricSample.observedAt samples).Perm samples :=
    List.perm_insertionSort _ _
  have hsorted : (orderDesc MetricSample.observedAt samples).Pairwise
      (fun a b => b.observedAt ≤ a.observedAt) := List.pairwise_insertionSort _ _
  cases horder : orderDesc MetricSample.observedAt samples with
  | nil =>
    rw [horder] at hperm
    exact absurd hperm.nil_eq.symm h
  | cons r rest =>
    rw [horder] at hperm hsorted
    refine ⟨r, ⟨hperm.mem_iff.mp List.mem_cons_self, ?_⟩, rfl⟩
    intro r' hr'
    rcases List.mem_cons.mp (hperm.mem_iff.mpr hr') with rfl | hr'
    · exact le_refl _
    · exact (List.pairwise_cons.mp hsorted).1 r' hr'

theorem binned_tellsOf {samples : List MetricSample} (key : String × Int) (h : samples ≠ []) :
    (binned key samples).2.TellsOf samples := by
  refine ⟨h, ?_, ?_, latest_last h⟩
  · have hne : samples.map MetricSample.value ≠ [] := by simpa using h
    rcases greatest_cases (samples.map MetricSample.value) with ⟨hnil, -⟩ | ⟨v, hv, hsome, hall⟩
    · exact absurd hnil hne
    · have hmax : (binned key samples).2.max = v := by
        simp only [binned, hsome, Option.getD_some]
      rw [hmax]
      exact ⟨List.mem_map.mp hv, fun r hr => hall _ (List.mem_map_of_mem hr)⟩
  · have hlength : (samples.length : Rat) ≠ 0 :=
      Nat.cast_ne_zero.mpr (List.length_pos_iff.mpr h).ne'
    simp only [binned, average, List.length_map]
    exact div_mul_cancel₀ _ hlength

theorem series_order (hwidth : 0 < b.widthMs) (h : s ∈ binnedSeries b rows) :
    (s.2.map SeriesPoint.t).Pairwise (fun t t' => t + b.widthMs ≤ t') := by
  have hsorted : (s.2.map SeriesPoint.t).Pairwise (· ≤ ·) := by
    rw [series_points h, List.pairwise_map]
    apply ((pairwise_lex Prod.fst (fun x : String × SeriesPoint => x.2.t) _).filter _).imp_of_mem
    intro x y hx hy hxy
    have hmx : x.1 = s.1 := by simpa using (List.mem_filter.mp hx).2
    have hmy : y.1 = s.1 := by simpa using (List.mem_filter.mp hy).2
    rcases hxy with hxy | ⟨-, hxy⟩
    · rw [hmx, hmy] at hxy
      exact absurd hxy (lt_irrefl _)
    · exact hxy
  refine (hsorted.and (binnedSeries_nodup h)).imp_of_mem ?_
  rintro t t' ht ht' ⟨hle, hne⟩
  obtain ⟨p, hp, rfl⟩ := List.mem_map.mp ht
  obtain ⟨p', hp', rfl⟩ := List.mem_map.mp ht'
  obtain ⟨k, hk⟩ := point_bin h hp
  obtain ⟨k', hk'⟩ := point_bin h hp'
  have hlt : k * b.widthMs < k' * b.widthMs := by omega
  have hkk : k + 1 ≤ k' := lt_of_mul_lt_mul_right hlt hwidth.le
  have hstep : (k + 1) * b.widthMs ≤ k' * b.widthMs := mul_le_mul_of_nonneg_right hkk hwidth.le
  rw [add_mul, one_mul] at hstep
  omega

theorem series_covered (hwidth : 0 < b.widthMs) (h : s ∈ binnedSeries b rows) {r : MetricSample}
    (hr : r ∈ rows) (hm : r.metric = s.1) : ∃ p ∈ s.2, r ∈ samplesOf b rows s.1 p := by
  have hplace : (s.1, (b.place r).2) ∈ rows.map b.place :=
    List.mem_map.mpr ⟨r, hr, by rw [← hm]; rfl⟩
  obtain ⟨p, hp, hpt⟩ := List.mem_map.mp ((mem_binnedSeries h).mpr hplace)
  refine ⟨p, hp, ?_⟩
  rw [samplesOf_eq hwidth h hp, hpt, ← hm]
  exact List.mem_filter.mpr ⟨hr, decide_eq_true rfl⟩

theorem series_tellsOf (hwidth : 0 < b.widthMs) (h : s ∈ binnedSeries b rows) (hp : p ∈ s.2) :
    p.TellsOf (samplesOf b rows s.1 p) := by
  rw [samplesOf_eq hwidth h hp]
  have hsome : rows.filter (fun r => b.place r = (s.1, p.t)) ≠ [] := by
    have hmem : p.t ∈ s.2.map SeriesPoint.t := List.mem_map_of_mem hp
    obtain ⟨r, hr, hplace⟩ := List.mem_map.mp ((mem_binnedSeries h).mp hmem)
    exact List.ne_nil_of_mem (List.mem_filter.mpr ⟨hr, decide_eq_true hplace⟩)
  have htells := binned_tellsOf (s.1, p.t) hsome
  rwa [← point_binned h hp] at htells

theorem series_nonempty (h : s ∈ binnedSeries b rows) : s.2 ≠ [] := by
  obtain ⟨g, hg, rfl⟩ := List.mem_map.mp h
  obtain ⟨x, hx, hkey⟩ := List.mem_map.mp (mem_groupBy.mp (List.mem_map_of_mem hg))
  rw [groupBy_rows hg]
  exact List.ne_nil_of_mem
    (List.mem_map_of_mem (List.mem_filter.mpr ⟨hx, decide_eq_true hkey⟩))

/-- The last point has the latest sample: the bins before it end before its own begins. -/
theorem series_newest (hwidth : 0 < b.widthMs) (h : s ∈ binnedSeries b rows) :
    ∃ p, s.2.getLast? = some p ∧
      ∃ r, Latest (rows.filter (fun r => r.metric = s.1)) r ∧ r.value = p.last := by
  have hne := series_nonempty h
  have hp : s.2.getLast hne ∈ s.2 := List.getLast_mem hne
  refine ⟨s.2.getLast hne, List.getLast?_eq_some_getLast hne, ?_⟩
  obtain ⟨r, ⟨hr, hlatest⟩, hvalue⟩ := (series_tellsOf hwidth h hp).last
  obtain ⟨hrow, hin⟩ := List.mem_filter.mp hr
  have hin := of_decide_eq_true hin
  refine ⟨r, ⟨List.mem_filter.mpr ⟨hrow, decide_eq_true hin.1⟩, ?_⟩, hvalue⟩
  intro r' hr'
  obtain ⟨hrow', hmetric⟩ := List.mem_filter.mp hr'
  obtain ⟨p', hp', hin'⟩ := series_covered hwidth h hrow' (by simpa using hmetric)
  have horder := series_order hwidth h
  rw [List.pairwise_map, ← List.dropLast_append_getLast hne, List.pairwise_append] at horder
  rw [← List.dropLast_append_getLast hne] at hp'
  rcases List.mem_append.mp hp' with hearlier | hlast
  · have hbefore := horder.2.2 p' hearlier _ (List.mem_singleton.mpr rfl)
    have hbounds := of_decide_eq_true (List.mem_filter.mp hin').2
    omega
  · rw [List.mem_singleton.mp hlast] at hin'
    exact hlatest r' hin'

theorem series_accounted (hwidth : 0 < b.widthMs) (h : s ∈ binnedSeries b rows) :
    Accounts b rows s where
  order := series_order hwidth h
  points := fun _ hp => series_tellsOf hwidth h hp
  covered := fun _ hr hm => series_covered hwidth h hr hm
  newest := series_newest hwidth h

theorem binnedSeries_keys : ((binnedSeries b rows).map Prod.fst).Nodup ∧
    ∀ m, m ∈ (binnedSeries b rows).map Prod.fst ↔ m ∈ rows.map MetricSample.metric := by
  have hkeys : (binnedSeries b rows).map Prod.fst =
      (groupBy Prod.fst (binnedRows b rows)).map Prod.fst := by
    rw [binnedSeries, toSeries, List.map_map]
    rfl
  rw [hkeys]
  refine ⟨groupBy_nodup, fun m => ?_⟩
  rw [mem_groupBy]
  constructor
  · intro hm
    obtain ⟨x, hx, rfl⟩ := List.mem_map.mp hm
    obtain ⟨r, hr, hplace⟩ := List.mem_map.mp (mem_places.mp (List.mem_map_of_mem hx))
    exact List.mem_map.mpr ⟨r, hr, congrArg Prod.fst hplace⟩
  · intro hm
    obtain ⟨r, hr, rfl⟩ := List.mem_map.mp hm
    obtain ⟨x, hx, hplace⟩ := List.mem_map.mp
      (mem_places.mpr (List.mem_map_of_mem (f := b.place) hr))
    exact List.mem_map.mpr ⟨x, hx, congrArg Prod.fst hplace⟩

end

/-- Every answer has one series for each metric with samples in its window, and it accounts for
these. -/
theorem series_accounts {env : Env} {ctx : Caller} {id : String} {query : Option Js.Json}
    {db db' : Store} {a : SeriesAnswer} (hnow : 0 ≤ env.now)
    (h : outcome (MetricsController.series env ctx id query) db = (.ok a, db')) :
    ∃ q b, QuerySchema env.ofText query = .ok q ∧
      (window q env.now).bins env.readsInstant = some b ∧
      let rows := (db .metricSamples).rows.filter (picked ctx.tenantId a.resourceId q b)
      (a.series.map Prod.fst).Nodup ∧
        (∀ m, m ∈ a.series.map Prod.fst ↔ m ∈ rows.map MetricSample.metric) ∧
        ∀ s ∈ a.series, Accounts b rows s := by
  cases hq : QuerySchema env.ofText query with
  | error issues =>
    unfold MetricsController.series at h
    rw [hq] at h
    cases h
  | ok q =>
    have hhost : ∃ host, outcome (findHost env ctx id) db = (.ok host, db) := by
      unfold MetricsController.series at h
      simp only [parseQuery, hq, pure_bind] at h
      obtain ⟨host, db₁, hfound, -⟩ := bind_ok h
      have hsame : (outcome (findHost env ctx id) db).2 = db := findOrNotFound_reads db
      rw [hfound] at hsame
      cases hsame
      exact ⟨host, hfound⟩
    obtain ⟨host, hhost⟩ := hhost
    rw [series_outcome hq hhost] at h
    dsimp only at h
    split at h
    · cases h
    · rename_i hge
      split at h
      · cases h
      · rename_i b hbins
        cases h
        have hto : q.toOr env.now ≤ maxDate := inRange_date (bins_inRange hbins)
        have haccepted := querySchema_ok hq
        have hspan : 0 < q.spanMs env.now :=
          not_le.mp fun hle => hge ((window_ge haccepted hnow hto).mpr hle)
        obtain ⟨-, rfl⟩ := (bins_iff haccepted hnow hspan).mp hbins
        have hwidth : 0 < (q.bins env.now).widthMs := by
          simp only [Bins.widthMs, SeriesQuery.bins, strideMinutes]
          omega
        exact ⟨q, _, rfl, hbins, binnedSeries_keys.1, binnedSeries_keys.2,
          fun s hs => series_accounted hwidth hs⟩

def usageQuery : Option Js.Json :=
  some (.object [("metric", .string "host.filesystem.used_bytes")])

def usageBounds : SeriesQuery :=
  { noBounds with metric := some "host.filesystem.used_bytes" }

theorem usageQuery_parsed : QuerySchema viewEnv.ofText usageQuery = .ok usageBounds := by
  rfl

theorem cleanup_accounted : ∃ a db',
    outcome (MetricsController.series viewEnv viewer "web-1" usageQuery) (usageStore 90 40) =
      (.ok a, db') ∧
    ∃ q b, QuerySchema viewEnv.ofText usageQuery = .ok q ∧
      (window q viewEnv.now).bins viewEnv.readsInstant = some b ∧
      let rows := (usageStore 90 40 .metricSamples).rows.filter
        (picked viewer.tenantId a.resourceId q b)
      (a.series.map Prod.fst).Nodup ∧
        (∀ m, m ∈ a.series.map Prod.fst ↔ m ∈ rows.map MetricSample.metric) ∧
        ∀ s ∈ a.series, Accounts b rows s := by
  have hanswer := series_answers (by decide) usageQuery_parsed webHost_found (by decide)
    ⟨by decide, by decide, by decide⟩ (usageStore 90 40 .metricSamples)
  have hstore : withSamples oneHost (usageStore 90 40 .metricSamples) = usageStore 90 40 := by
    rw [withSamples, usageStore, Function.update_self]
  rw [hstore] at hanswer
  exact ⟨_, _, hanswer, series_accounts (by decide) hanswer⟩

end WaOps.Api
