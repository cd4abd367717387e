import WaOps.Rules.Worker

namespace WaOps.Rules
open Lib

variable (ofText : Js.Json → Js.Number) (sha256 : String → String) (tenantId : String)

/-- What a job evaluates on a sample, its rules loaded from these rows; nothing where loadRules
throws. -/
def evaluatedOn (rows : List AlertRule) (sample : Sample) : List ThresholdRule :=
  match fromDb ofText rows with
  | some rules => (withFallback rules).filter (fun rule => rule.metric = sample.metric)
  | none => []

/-- The tenant's enabled rules that loadRules does not skip. -/
def ownRules (rows : List AlertRule) : List ThresholdRule :=
  (rows.filter (fun r => r.tenantId = tenantId && r.enabled)).filterMap (AlertRule.rule ofText)

/-- The tenant's rules for the metric; the default rule where there is none. -/
def chosen (rows : List AlertRule) (sample : Sample) : List ThresholdRule :=
  let own := (ownRules ofText tenantId rows).filter (fun rule => rule.metric = sample.metric)
  if own = [] then [defaultCpuRule].filter (fun rule => rule.metric = sample.metric) else own

/-- A sample of the default rule's metric meets a rule of its own or no rule at all, and where a
condition is JSON null there is nothing to evaluate anyway. -/
structure Covered (rows : List AlertRule) (sample : Sample) : Prop where
  fallback : sample.metric = defaultCpuRule.metric → ownRules ofText tenantId rows = [] ∨
    ∃ rule ∈ ownRules ofText tenantId rows, rule.metric = sample.metric
  loads : (∃ r ∈ rows, r.enabled = true ∧ r.conditionJson = .null) →
    sample.metric ≠ defaultCpuRule.metric ∧
      ∀ rule ∈ ownRules ofText tenantId rows, rule.metric ≠ sample.metric

variable {ofText sha256 tenantId} {s t : Worker} {rows : List AlertRule}
  {rules : List ThresholdRule} {sample : Sample} {samples : List Sample} {k : Nat} {now : Int}

theorem fromDb_none_iff : fromDb ofText rows = none ↔
    ∃ r ∈ rows, r.enabled = true ∧ r.conditionJson = .null := by
  simp only [fromDb, ite_eq_left_iff, reduceCtorEq, imp_false, not_not, List.any_eq_true,
    List.mem_filter, and_assoc]
  refine exists_congr fun r => and_congr_right fun _ => and_congr_right fun _ => ?_
  cases r.conditionJson <;> simp

theorem worklist_eq (h : fromDb ofText rows = some rules) : worklist rules samples =
    samples.flatMap (fun sample => (evaluatedOn ofText rows sample).map (sample, ·)) := by
  simp only [worklist, evaluatedOn, h]

/-- Where a job stands once its rules are there. -/
def loadedPc (ofText : Js.Json → Js.Number) (rows : List AlertRule) (samples : List Sample) :
    JobPc :=
  if fromDb ofText rows = none then .failed
  else .evaluating
    (samples.flatMap (fun sample => (evaluatedOn ofText rows sample).map (sample, ·)))

theorem loading_loads (hj : s.jobs tenantId k = some ⟨samples, .loading rows⟩)
    (h : step ofText sha256 s (.turn tenantId k true now) = some t) :
    t.jobs tenantId k = some ⟨samples, loadedPc ofText rows samples⟩ := by
  simp only [step, hj, Option.bind_some, Worker.turn, if_true] at h
  cases hload : fromDb ofText rows with
  | none =>
    simp only [hload] at h
    cases h
    simp [Worker.setPc, loadedPc, hload]
  | some rules =>
    simp only [hload] at h
    cases h
    simp [Worker.setPc, loadedPc, hload, worklist_eq hload]

/-- A fresh cache of these rows' rules serves as well as a load. -/
theorem cached_loads (hj : s.jobs tenantId k = some ⟨samples, .inserted⟩)
    (hcache : fromDb ofText rows = some s.cacheRules)
    (h : step ofText sha256 s (.turn tenantId k true now) = some t) :
    t.jobs tenantId k = some ⟨samples, loadedPc ofText rows samples⟩ := by
  simp only [step, hj, Option.bind_some, Worker.turn] at h
  split at h
  · cases h
    simp [Worker.setPc, loadedPc, hcache, worklist_eq hcache]
  · contradiction

/-- Among rows of one tenant the rules loaded are the tenant's. -/
theorem ownRules_of_load (hrows : ∀ r ∈ rows, r.tenantId = tenantId)
    (h : fromDb ofText rows = some rules) : rules = ownRules ofText tenantId rows := by
  simp only [fromDb, Option.ite_none_left_eq_some] at h
  obtain ⟨-, h⟩ := h
  cases h
  have hfilter : rows.filter AlertRule.enabled =
      rows.filter (fun r => r.tenantId = tenantId && r.enabled) := by
    refine List.filter_congr fun r hr => ?_
    simp [hrows r hr]
  rw [ownRules, hfilter]

theorem filter_metric_nil {own : List ThresholdRule} :
    own.filter (fun rule => rule.metric = sample.metric) = [] ↔
      ∀ rule ∈ own, rule.metric ≠ sample.metric := by
  simp [List.filter_eq_nil_iff]

theorem chosen_nil : chosen ofText tenantId rows sample = [] ↔
    sample.metric ≠ defaultCpuRule.metric ∧
      ∀ rule ∈ ownRules ofText tenantId rows, rule.metric ≠ sample.metric := by
  by_cases hnone : ∀ rule ∈ ownRules ofText tenantId rows, rule.metric ≠ sample.metric
  · rw [chosen, if_pos (filter_metric_nil.mpr hnone), filter_metric_nil]
    constructor
    · intro h
      exact ⟨fun hm => h defaultCpuRule (List.mem_singleton.mpr rfl) hm.symm, hnone⟩
    · intro h rule hrule hm
      rw [List.mem_singleton.mp hrule] at hm
      exact h.1 hm.symm
  · have hsome := mt filter_metric_nil.mp hnone
    rw [chosen, if_neg hsome]
    exact iff_of_false hsome (fun h => hnone h.2)

theorem withFallback_nil : withFallback [] = [defaultCpuRule] := rfl

theorem withFallback_of_ne (h : rules ≠ []) : withFallback rules = rules :=
  if_pos (List.length_pos_of_ne_nil h)

/-- A job evaluates the rules the comment describes exactly on the samples that are covered. -/
theorem evaluates_chosen_iff (hrows : ∀ r ∈ rows, r.tenantId = tenantId) :
    evaluatedOn ofText rows sample = chosen ofText tenantId rows sample ↔
      Covered ofText tenantId rows sample := by
  cases hload : fromDb ofText rows with
  | none =>
    have hnothing : evaluatedOn ofText rows sample = [] := by rw [evaluatedOn, hload]
    rw [hnothing, eq_comm, chosen_nil]
    constructor
    · intro h
      exact ⟨fun hm => absurd hm h.1, fun _ => h⟩
    · intro h
      exact h.loads (fromDb_none_iff.mp hload)
  | some rules =>
    have hloads : ¬ ∃ r ∈ rows, r.enabled = true ∧ r.conditionJson = .null := by
      intro hnull
      rw [fromDb_none_iff.mpr hnull] at hload
      cases hload
    have hown := ownRules_of_load hrows hload
    have hevaluated : evaluatedOn ofText rows sample =
        (withFallback (ownRules ofText tenantId rows)).filter
          (fun rule => rule.metric = sample.metric) := by
      rw [evaluatedOn, hload, hown]
    rw [hevaluated]
    by_cases hnone : ∀ rule ∈ ownRules ofText tenantId rows, rule.metric ≠ sample.metric
    · by_cases hempty : ownRules ofText tenantId rows = []
      · refine iff_of_true ?_ ⟨fun _ => .inl hempty, fun h => absurd h hloads⟩
        rw [hempty, withFallback_nil, chosen, if_pos (filter_metric_nil.mpr hnone)]
      · -- other rules keep the fallback away, and none of them is for the metric
        rw [withFallback_of_ne hempty, filter_metric_nil.mpr hnone, eq_comm, chosen_nil]
        constructor
        · intro h
          exact ⟨fun hm => absurd hm h.1, fun hn => absurd hn hloads⟩
        · intro h
          refine ⟨fun hm => ?_, hnone⟩
          rcases h.fallback hm with hnil | ⟨rule, hrule, hmetric⟩
          · exact hempty hnil
          · exact hnone rule hrule hmetric
    · have hsome : ∃ rule ∈ ownRules ofText tenantId rows, rule.metric = sample.metric := by
        simpa using hnone
      have hne : ownRules ofText tenantId rows ≠ [] := by
        obtain ⟨rule, hrule, -⟩ := hsome
        exact List.ne_nil_of_mem hrule
      refine iff_of_true ?_ ⟨fun _ => .inr hsome, fun h => absurd h hloads⟩
      rw [withFallback_of_ne hne, chosen, if_neg (mt filter_metric_nil.mp hnone)]

def thresholdRow (metric eventType : String) : AlertRule :=
  { tenantId := "t_1"
    eventType
    severity := "high"
    conditionJson := .object
      [("metric", .string metric), ("threshold", .number (.finite 80))] }

/-- With a rule for the processor a processor sample is evaluated by it. -/
theorem own_rule_evaluated :
    (∀ r ∈ [thresholdRow "host.cpu.usage_percent" "infra.cpu.high"], r.tenantId = "t_1") ∧
    evaluatedOn (fun _ => .nan) [thresholdRow "host.cpu.usage_percent" "infra.cpu.high"]
        ⟨"host.cpu.usage_percent", "host_1", "2026-01-01T00:00:00Z", .finite 95⟩ =
      chosen (fun _ => .nan) "t_1" [thresholdRow "host.cpu.usage_percent" "infra.cpu.high"]
        ⟨"host.cpu.usage_percent", "host_1", "2026-01-01T00:00:00Z", .finite 95⟩ := by
  have hrows : ∀ r ∈ [thresholdRow "host.cpu.usage_percent" "infra.cpu.high"],
      r.tenantId = "t_1" := by decide
  refine ⟨hrows, (evaluates_chosen_iff hrows).mpr ⟨fun _ => .inr ?_, fun h => ?_⟩⟩
  · exact ⟨_, List.mem_cons_self, rfl⟩
  · obtain ⟨r, hr, -, hnull⟩ := h
    rw [List.mem_singleton.mp hr] at hnull
    cases hnull

/-- One rule for the disk leaves the processor without the default rule. -/
theorem disk_rule_hides_default : ¬ ∀ (ofText : Js.Json → Js.Number) tenantId rows sample,
    (∀ r ∈ rows, r.tenantId = tenantId) →
    evaluatedOn ofText rows sample = chosen ofText tenantId rows sample := by
  intro h
  have hcpu := h (fun _ => .nan) "t_1" [thresholdRow "host.disk.usage_percent" "infra.disk.high"]
    ⟨"host.cpu.usage_percent", "host_1", "2026-01-01T00:00:00Z", .finite 95⟩ (by decide)
  exact absurd hcpu (by decide +kernel)

end WaOps.Rules
