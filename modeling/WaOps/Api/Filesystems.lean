import Mathlib.Data.List.Induction
import WaOps.Api.Window

namespace WaOps.Api
open Lib Lib.Scoped Lib.Tables Lib.Sorting

def mountOf (r : MetricSample) : Option String := r.dimensions.lookup "mount"

def filesystemMetrics : List String :=
  ["host.filesystem.used_bytes", "host.filesystem.available_bytes"]

/-- The WHERE clause: the hour has no end. -/
def shown (tenantId resourceId : String) (now : Int) (r : MetricSample) : Bool :=
  r.tenantId = tenantId ∧ r.resourceId = resourceId ∧
    (r.metric = "host.filesystem.used_bytes" ∨ r.metric = "host.filesystem.available_bytes") ∧
    now - 3600000 ≤ r.observedAt

def inLastHour (tenantId resourceId : String) (now : Int) (r : MetricSample) : Bool :=
  shown tenantId resourceId now r ∧ r.observedAt ≤ now

def ofMount (mount : Option String) (metric : String) (rows : List MetricSample) :
    List MetricSample :=
  rows.filter (fun r => r.metric = metric ∧ mountOf r = mount)

/-- A row with none after it. -/
def Latest (rows : List MetricSample) (r : MetricSample) : Prop :=
  r ∈ rows ∧ ∀ r' ∈ rows, r'.observedAt ≤ r.observedAt

/-- The value of a latest row; none where there are no rows. -/
def LatestValue (rows : List MetricSample) : Option Rat → Prop
  | none => rows = []
  | some value => ∃ r, Latest rows r ∧ r.value = value

/-- One entry for each mount that has samples, with the latest values and their time. -/
structure ShowsLatest (rows : List MetricSample) (items : List FilesystemItem) : Prop where
  once : (items.map FilesystemItem.mount).Nodup
  mounts : ∀ mount, mount ∈ items.map FilesystemItem.mount ↔ mount ∈ rows.map mountOf
  used : ∀ item ∈ items,
    LatestValue (ofMount item.mount "host.filesystem.used_bytes" rows) item.usedBytes
  available : ∀ item ∈ items,
    LatestValue (ofMount item.mount "host.filesystem.available_bytes" rows) item.availableBytes
  observed : ∀ item ∈ items, ∃ r,
    Latest (rows.filter (fun r => mountOf r = item.mount)) r ∧ r.observedAt = item.observedAt

/-- A latest row has the greatest value. -/
def EndsAtPeak (rows : List MetricSample) : Prop :=
  rows = [] ∨ ∃ r, Latest rows r ∧ ∀ r' ∈ rows, r'.value ≤ r.value

def filesystemItems (rows : List MetricSample) : List FilesystemItem :=
  ((groupBy mountOf rows).map (fun g => filesystem g.1 g.2)).insertionSort
    (fun a b => mountLe a.mount b.mount)

section
variable {rows : List MetricSample} {item : FilesystemItem} {mount : Option String}
  {metric : String} {env : Env} {ctx : Caller} {id : String} {host : Host} {db : Store}

theorem filesystems_outcome (hhost : outcome (findHost env ctx id) db = (.ok host, db)) :
    outcome (MetricsController.filesystems env ctx id) db =
      (.ok (host.id, filesystemItems ((db .metricSamples).rows.filter
        (shown ctx.tenantId (metricResource host) env.now))), db) := by
  unfold MetricsController.filesystems
  rw [outcome_bind, hhost]
  rfl

theorem ofMount_eq_nil (h : ∀ r ∈ rows, r.metric = metric → mountOf r ≠ mount) :
    ofMount mount metric rows = [] := by
  rw [ofMount, List.filter_eq_nil_iff]
  intro r hr hof
  have hboth : r.metric = metric ∧ mountOf r = mount := of_decide_eq_true hof
  exact h r hr hboth.1 hboth.2

theorem greatest_concat (values : List Rat) (v : Rat) :
    greatest (values ++ [v]) = some ((greatest values).elim v (max v)) := by
  rw [greatest, List.foldl_append]
  rfl

theorem greatest_cases (values : List Rat) :
    values = [] ∧ greatest values = none ∨
      ∃ v ∈ values, greatest values = some v ∧ ∀ x ∈ values, x ≤ v := by
  induction values using List.reverseRecOn with
  | nil => exact .inl ⟨rfl, rfl⟩
  | append_singleton values v ih =>
    right
    rw [greatest_concat]
    rcases ih with ⟨rfl, hnone⟩ | ⟨u, hu, hsome, hall⟩
    · refine ⟨v, by simp, by rw [hnone]; rfl, ?_⟩
      intro x hx
      exact le_of_eq (List.mem_singleton.mp hx)
    · refine ⟨max v u, ?_, by rw [hsome]; rfl, ?_⟩
      · rcases max_choice v u with h | h
        · rw [h]
          simp
        · rw [h]
          simp [hu]
      · intro x hx
        rcases List.mem_append.mp hx with hx | hx
        · exact le_max_of_le_right (hall x hx)
        · rw [List.mem_singleton.mp hx]
          exact le_max_left v u

/-- The greatest value is a latest one where the rows end at their peak. -/
theorem latestValue_greatest :
    LatestValue rows (greatest (rows.map MetricSample.value)) ↔ EndsAtPeak rows := by
  rcases greatest_cases (rows.map MetricSample.value) with ⟨hempty, hnone⟩ | ⟨v, hv, hsome, hall⟩
  · have hrows : rows = [] := List.map_eq_nil_iff.mp hempty
    rw [hnone]
    exact ⟨fun _ => .inl hrows, fun _ => hrows⟩
  · have hne : rows ≠ [] := by
      rintro rfl
      cases hv
    have hall : ∀ r ∈ rows, r.value ≤ v := fun r hr => hall _ (List.mem_map_of_mem hr)
    rw [hsome]
    constructor
    · rintro ⟨r, hlatest, rfl⟩
      exact .inr ⟨r, hlatest, hall⟩
    · rintro (hempty | ⟨r, hlatest, hpeak⟩)
      · exact absurd hempty hne
      · obtain ⟨r', hr', rfl⟩ := List.mem_map.mp hv
        exact ⟨r, hlatest, le_antisymm (hall r hlatest.1) (hpeak r' hr')⟩

/-- The first row of the descending order is a latest one. -/
theorem orderDesc_latest (h : rows ≠ []) :
    ∃ r, Latest rows r ∧
      ((orderDesc MetricSample.observedAt rows).map MetricSample.observedAt).headD 0 =
        r.observedAt := by
  have hperm : (orderDesc MetricSample.observedAt rows).Perm rows := List.perm_insertionSort _ _
  have hsorted : (orderDesc MetricSample.observedAt rows).Pairwise
      (fun a b => b.observedAt ≤ a.observedAt) := List.pairwise_insertionSort _ _
  cases horder : orderDesc MetricSample.observedAt rows with
  | nil =>
    rw [horder] at hperm
    exact absurd hperm.nil_eq.symm h
  | cons r rest =>
    rw [horder] at hperm hsorted
    refine ⟨r, ⟨hperm.mem_iff.mp List.mem_cons_self, ?_⟩, rfl⟩
    intro r' hr'
    rcases List.mem_cons.mp (hperm.mem_iff.mpr hr') with rfl | hr'
    · exact le_refl _
    · exact (List.pairwise_cons.mp hsorted).1 r' hr'

theorem items_perm (rows : List MetricSample) : (filesystemItems rows).Perm
    ((groupBy mountOf rows).map (fun g => filesystem g.1 g.2)) :=
  List.perm_insertionSort _ _

theorem items_mounts (rows : List MetricSample) :
    ((filesystemItems rows).map FilesystemItem.mount).Perm
      ((groupBy mountOf rows).map Prod.fst) := by
  have hperm := (items_perm rows).map FilesystemItem.mount
  rw [List.map_map] at hperm
  exact hperm

/-- Each entry is made of the samples of its mount. -/
theorem item_of_mount (h : item ∈ filesystemItems rows) :
    item = filesystem item.mount (rows.filter (fun r => mountOf r = item.mount)) ∧
      rows.filter (fun r => mountOf r = item.mount) ≠ [] := by
  obtain ⟨g, hg, rfl⟩ := List.mem_map.mp ((items_perm rows).mem_iff.mp h)
  have hrows := groupBy_rows hg
  refine ⟨congrArg (filesystem g.1) hrows, ?_⟩
  obtain ⟨r, hr, hmount⟩ := List.mem_map.mp (mem_groupBy.mp (List.mem_map_of_mem hg))
  exact List.ne_nil_of_mem (List.mem_filter.mpr ⟨hr, decide_eq_true hmount⟩)

theorem item_bytes (h : item ∈ filesystemItems rows) :
    item.usedBytes = greatest
        ((ofMount item.mount "host.filesystem.used_bytes" rows).map MetricSample.value) ∧
      item.availableBytes = greatest
        ((ofMount item.mount "host.filesystem.available_bytes" rows).map MetricSample.value) := by
  have hmetric : ∀ metric : String,
      (rows.filter (fun r => mountOf r = item.mount)).filter (fun r => r.metric = metric) =
        ofMount item.mount metric rows := by
    intro metric
    rw [List.filter_filter, ofMount]
    simp only [Bool.decide_and]
  obtain ⟨hitem, -⟩ := item_of_mount h
  rw [← hmetric, ← hmetric]
  exact ⟨congrArg FilesystemItem.usedBytes hitem, congrArg FilesystemItem.availableBytes hitem⟩

theorem item_observed (h : item ∈ filesystemItems rows) : ∃ r,
    Latest (rows.filter (fun r => mountOf r = item.mount)) r ∧ r.observedAt = item.observedAt := by
  obtain ⟨hitem, hne⟩ := item_of_mount h
  obtain ⟨r, hlatest, hhead⟩ := orderDesc_latest hne
  exact ⟨r, hlatest, hhead.symm.trans (congrArg FilesystemItem.observedAt hitem).symm⟩

/-- Without the clock: the entries show the latest values where all rows end at their peak. -/
theorem showsLatest_iff : ShowsLatest rows (filesystemItems rows) ↔
    ∀ item ∈ filesystemItems rows, ∀ metric ∈ filesystemMetrics,
      EndsAtPeak (ofMount item.mount metric rows) := by
  constructor
  · intro h item hitem metric hmetric
    obtain ⟨hused, havailable⟩ := item_bytes hitem
    rcases List.mem_pair.mp hmetric with rfl | rfl
    · exact latestValue_greatest.mp (hused ▸ h.used item hitem)
    · exact latestValue_greatest.mp (havailable ▸ h.available item hitem)
  · intro h
    refine ⟨?_, ?_, ?_, ?_, fun item hitem => item_observed hitem⟩
    · exact (items_mounts rows).nodup_iff.mpr groupBy_nodup
    · intro mount
      rw [(items_mounts rows).mem_iff, mem_groupBy]
    · intro item hitem
      rw [(item_bytes hitem).1]
      exact latestValue_greatest.mpr (h item hitem _ (by simp [filesystemMetrics]))
    · intro item hitem
      rw [(item_bytes hitem).2]
      exact latestValue_greatest.mpr (h item hitem _ (by simp [filesystemMetrics]))

/-- The answer shows the latest samples of the last hour. -/
def AnswersLatest (env : Env) (ctx : Caller) (id : String) (host : Host) (db : Store) : Prop :=
  ∃ items, outcome (MetricsController.filesystems env ctx id) db = (.ok (host.id, items), db) ∧
    ShowsLatest ((db .metricSamples).rows.filter
      (inLastHour ctx.tenantId (metricResource host) env.now)) items

/-- No sample is dated after now, and each metric of each mount ends at its peak. -/
structure Rising (tenantId resourceId : String) (now : Int) (samples : List MetricSample) :
    Prop where
  dated : ∀ r ∈ samples, shown tenantId resourceId now r = true → r.observedAt ≤ now
  peak : ∀ mount, ∀ metric ∈ filesystemMetrics,
    EndsAtPeak (ofMount mount metric (samples.filter (inLastHour tenantId resourceId now)))

variable {tenantId resourceId : String} {now : Int}

/-- Samples that are dated after now are shown, and only those make a difference. -/
theorem shown_eq_inLastHour
    (h : ∀ r ∈ rows, shown tenantId resourceId now r = true → r.observedAt ≤ now) :
    rows.filter (shown tenantId resourceId now) =
      rows.filter (inLastHour tenantId resourceId now) := by
  apply List.filter_congr
  intro r hr
  cases hshown : shown tenantId resourceId now r with
  | false => simp [inLastHour, hshown]
  | true => simp [inLastHour, hshown, h r hr hshown]

/-- The time of an entry is that of a sample of the last hour. -/
theorem dated_of_showsLatest
    (h : ShowsLatest (rows.filter (inLastHour tenantId resourceId now))
      (filesystemItems (rows.filter (shown tenantId resourceId now)))) :
    ∀ r ∈ rows, shown tenantId resourceId now r = true → r.observedAt ≤ now := by
  intro r hr hshown
  have hrow : r ∈ rows.filter (shown tenantId resourceId now) :=
    List.mem_filter.mpr ⟨hr, hshown⟩
  have hmount : mountOf r ∈
      (filesystemItems (rows.filter (shown tenantId resourceId now))).map FilesystemItem.mount := by
    rw [(items_mounts _).mem_iff, mem_groupBy]
    exact List.mem_map_of_mem hrow
  obtain ⟨item, hitem, hmountOf⟩ := List.mem_map.mp hmount
  obtain ⟨last, hlast, htime⟩ := item_observed hitem
  obtain ⟨within, hwithin, htime'⟩ := h.observed item hitem
  have hle : r.observedAt ≤ last.observedAt :=
    hlast.2 r (List.mem_filter.mpr ⟨hrow, decide_eq_true hmountOf.symm⟩)
  have hhour := (List.mem_filter.mp (List.mem_filter.mp hwithin.1).1).2
  simp only [inLastHour, decide_eq_true_eq] at hhour
  omega

/-- The endpoint shows the latest values exactly where usage has not fallen and no sample lies in
the future. -/
theorem filesystems_latest_iff (hhost : outcome (findHost env ctx id) db = (.ok host, db)) :
    AnswersLatest env ctx id host db ↔
      Rising ctx.tenantId (metricResource host) env.now (db .metricSamples).rows := by
  have hout := filesystems_outcome hhost
  constructor
  · rintro ⟨items, hanswer, hshows⟩
    rw [hout] at hanswer
    cases hanswer
    have hdated := dated_of_showsLatest hshows
    rw [shown_eq_inLastHour hdated] at hshows
    refine ⟨hdated, ?_⟩
    intro mount metric hmetric
    by_cases hseen : mount ∈ ((db .metricSamples).rows.filter
        (inLastHour ctx.tenantId (metricResource host) env.now)).map mountOf
    · obtain ⟨item, hitem, rfl⟩ := List.mem_map.mp ((hshows.mounts mount).mpr hseen)
      exact showsLatest_iff.mp hshows item hitem metric hmetric
    · left
      apply ofMount_eq_nil
      intro r hr _ hmount
      exact hseen (List.mem_map.mpr ⟨r, hr, hmount⟩)
  · intro h
    refine ⟨_, hout, ?_⟩
    rw [shown_eq_inLastHour h.dated]
    exact showsLatest_iff.mpr fun item _ metric hmetric => h.peak item.mount metric hmetric
end

def rootUsage (id : String) (value : Rat) (ago : Int) : MetricSample :=
  { id
    tenantId := "t"
    resourceId := "web-1"
    metric := "host.filesystem.used_bytes"
    value
    dimensions := [("mount", "/")]
    observedAt := viewEnv.now - ago }

theorem usage_unique (early late : Rat) :
    ([rootUsage "1" early 60000, rootUsage "2" late 0].map TableName.metricSamples.key).Nodup := by
  simp [rootUsage, TableName.key]

/-- A minute ago and now. -/
def usageStore (early late : Rat) : Store :=
  Function.update oneHost .metricSamples
    { rows := [rootUsage "1" early 60000, rootUsage "2" late 0], unique := usage_unique early late }

theorem usageHost_found (early late : Rat) :
    outcome (findHost viewEnv viewer "web-1") (usageStore early late) =
      (.ok webHost, usageStore early late) :=
  rfl

theorem usage_samples (early late : Rat) : (usageStore early late .metricSamples).rows =
    [rootUsage "1" early 60000, rootUsage "2" late 0] :=
  rfl

theorem usage_rising : Rising "t" "web-1" viewEnv.now (usageStore 40 90 .metricSamples).rows := by
  rw [usage_samples]
  constructor
  · decide
  · intro mount metric _
    by_cases hof : metric = "host.filesystem.used_bytes" ∧ mount = some "/"
    · obtain ⟨rfl, rfl⟩ := hof
      have hrows : ofMount (some "/") "host.filesystem.used_bytes"
          ([rootUsage "1" 40 60000, rootUsage "2" 90 0].filter
            (inLastHour "t" "web-1" viewEnv.now)) =
          [rootUsage "1" 40 60000, rootUsage "2" 90 0] := rfl
      rw [hrows]
      exact .inr ⟨rootUsage "2" 90 0, ⟨by simp, by decide⟩, by decide⟩
    · left
      apply ofMount_eq_nil
      intro r hr hmetric hmount
      apply hof
      rcases List.mem_pair.mp (List.mem_filter.mp hr).1 with rfl | rfl
      · exact ⟨hmetric.symm, hmount.symm⟩
      · exact ⟨hmetric.symm, hmount.symm⟩

theorem rising_usage_latest :
    AnswersLatest viewEnv viewer "web-1" webHost (usageStore 40 90) :=
  (filesystems_latest_iff (usageHost_found 40 90)).mpr usage_rising

/-- After a cleanup the usage before it is shown, with the time after it. -/
theorem fallen_usage_shown :
    outcome (MetricsController.filesystems viewEnv viewer "web-1") (usageStore 90 40) =
      (.ok ("web-1", [{ mount := some "/", usedBytes := some 90, availableBytes := none,
                        observedAt := viewEnv.now }]), usageStore 90 40) ∧
    ¬ AnswersLatest viewEnv viewer "web-1" webHost (usageStore 90 40) := by
  have hout := filesystems_outcome (usageHost_found 90 40)
  have hitems : filesystemItems ((usageStore 90 40 .metricSamples).rows.filter
      (shown viewer.tenantId (metricResource webHost) viewEnv.now)) =
      [{ mount := some "/", usedBytes := some 90, availableBytes := none,
         observedAt := viewEnv.now }] := by decide +kernel
  rw [hitems] at hout
  refine ⟨hout, ?_⟩
  rintro ⟨items, hanswer, hshows⟩
  rw [hout] at hanswer
  cases hanswer
  obtain ⟨r, ⟨hr, hlatest⟩, hvalue⟩ := hshows.used _ List.mem_cons_self
  have hrows : ofMount (some "/") "host.filesystem.used_bytes"
      ((usageStore 90 40 .metricSamples).rows.filter
        (inLastHour viewer.tenantId (metricResource webHost) viewEnv.now)) =
      [rootUsage "1" 90 60000, rootUsage "2" 40 0] := rfl
  rw [hrows] at hr hlatest
  rcases List.mem_pair.mp hr with rfl | rfl
  · exact absurd (hlatest (rootUsage "2" 40 0) (by simp)) (by decide)
  · exact absurd hvalue (by decide)

end WaOps.Api
