import WaOps.Rules.Window

namespace WaOps.Rules
open Lib Lib.Tallies

/-- What a rule's keys begin with. -/
def ThresholdRule.keyPrefix (rule : ThresholdRule) : List Char := (rule.eventType ++ ":").toList

/-- Some key of the one rule is a key of the other, for some resources. -/
def Overlap (rule r : ThresholdRule) : Prop :=
  rule.keyPrefix <+: r.keyPrefix ∨ r.keyPrefix <+: rule.keyPrefix

instance Overlap.decidable (rule r : ThresholdRule) : Decidable (Overlap rule r) :=
  inferInstanceAs (Decidable (_ ∨ _))

/-- Both count each sample that either counts, under one key. -/
def Twin (rule r : ThresholdRule) : Prop :=
  r.eventType = rule.eventType ∧ r.metric = rule.metric

instance Twin.decidable (rule r : ThresholdRule) : Decidable (Twin rule r) :=
  inferInstanceAs (Decidable (_ ∧ _))

def twins (rule : ThresholdRule) (rules : List ThresholdRule) : List ThresholdRule :=
  rules.filter (fun r => Twin rule r)

def SameComparison (rule r : ThresholdRule) : Prop :=
  r.comparator = rule.comparator ∧ r.threshold = rule.threshold

/-- The rule's counter is its own. The one counter that may be shared without harm is that of a
rule that counts to two, first of its twins, where the last of them makes the same comparison. -/
structure OwnCounter (pre : List ThresholdRule) (rule : ThresholdRule)
    (post : List ThresholdRule) : Prop where
  apart : ∀ r ∈ pre ++ post, Overlap rule r → Twin rule r
  first : twins rule pre = []
  twins : twins rule post = [] ∨ rule.window = some 2 ∧
    ∀ r ∈ (twins rule post).getLast?, SameComparison rule r

/-- Zero is below the rule's consecutiveSamples, and where it needs more than one sample its
counter is its own. -/
def Sound (pre : List ThresholdRule) (rule : ThresholdRule) (post : List ThresholdRule) : Prop :=
  (Js.Number.finite 0).ge rule.consecutiveSamples = false ∧
    (rule.window = none ∨ rule.window = some 1 ∨ OwnCounter pre rule post)

variable {rules pre post : List ThresholdRule} {rule r : ThresholdRule} {earlier : List Sample}
  {sample s : Sample} {key : String} {n : Nat}

theorem trackKey_toList : (trackKey s r).toList = r.keyPrefix ++ s.resourceId.toList := by
  simp [trackKey, ThresholdRule.keyPrefix, String.toList_append]

theorem overlap_of_key (h : trackKey s r = trackKey sample rule) : Overlap rule r := by
  have hlist := congrArg String.toList h
  rw [trackKey_toList, trackKey_toList] at hlist
  rcases List.append_eq_append_iff.mp hlist with ⟨w, hw, -⟩ | ⟨w, hw, -⟩
  · exact .inr ⟨w, hw.symm⟩
  · exact .inl ⟨w, hw.symm⟩

/-- Rules that overlap share a key for resources that end alike. -/
theorem key_of_overlap (h : Overlap rule r) (tail : String) : ∃ rid rid',
    rule.eventType ++ ":" ++ (rid ++ tail) = r.eventType ++ ":" ++ (rid' ++ tail) := by
  simp only [← String.toList_inj, String.toList_append]
  rcases h with ⟨w, hw⟩ | ⟨w, hw⟩
  · refine ⟨String.ofList w, "", ?_⟩
    have htail := congrArg (· ++ tail.toList) hw
    simpa [ThresholdRule.keyPrefix] using htail
  · refine ⟨"", String.ofList w, ?_⟩
    have htail := congrArg (· ++ tail.toList) hw
    simpa [ThresholdRule.keyPrefix] using htail.symm

theorem key_eq_iff (h : s.resourceId = sample.resourceId) :
    trackKey s r = trackKey sample rule ↔ r.eventType = rule.eventType := by
  rw [← String.toList_inj, trackKey_toList, trackKey_toList, h, List.append_cancel_right_eq,
    ThresholdRule.keyPrefix, ThresholdRule.keyPrefix, String.toList_append, String.toList_append,
    List.append_cancel_right_eq, String.toList_inj]

theorem resource_eq (h : trackKey s r = trackKey sample rule) (hr : Twin rule r) :
    s.resourceId = sample.resourceId := by
  have hlist := congrArg String.toList h
  rw [trackKey_toList, trackKey_toList, ThresholdRule.keyPrefix, ThresholdRule.keyPrefix, hr.1]
    at hlist
  exact String.toList_injective (List.append_cancel_left hlist)

/-- What the rules make of samples under a key. -/
theorem outcomes_cons {samples : List Sample} : outcomes rules (s :: samples) key =
    (rules.filter (fun r => r.metric = s.metric ∧ trackKey s r = key)).map
      (fun r => r.violates s.value) ++ outcomes rules samples key := by
  have hsplit : evaluations rules (s :: samples) =
      (rules.filter (fun r => r.metric = s.metric)).map (s, ·) ++ evaluations rules samples := rfl
  rw [outcomes, hsplit, List.map_append, under_append, ← outcomes]
  congr 1
  simp only [under, List.map_map, List.filter_map, List.filter_filter]
  congr 2
  funext r
  simp only [Function.comp_apply, outcomeOf]
  rw [Bool.decide_and, Bool.and_comm]
  rfl

theorem outcomes_append {samples more : List Sample} :
    outcomes rules (samples ++ more) key =
      outcomes rules samples key ++ outcomes rules more key := by
  rw [outcomes, evaluations, List.flatMap_append, List.map_append, under_append]
  rfl

/-- A sample of the series is counted by the rule's twins, each in its turn. -/
theorem counted_twins (hm : sample.metric = rule.metric) (hs : s.metric = sample.metric)
    (hid : s.resourceId = sample.resourceId) :
    rules.filter (fun r => r.metric = s.metric ∧ trackKey s r = trackKey sample rule) =
      twins rule rules := by
  refine List.filter_congr fun r _ => decide_eq_decide.mpr ?_
  rw [key_eq_iff hid, hs, hm, Twin]
  exact and_comm

/-- Over the samples of one series a key counts what its rule and the twins make of them. -/
theorem outcomes_same (hm : sample.metric = rule.metric)
    (hs : ∀ s ∈ earlier, s.metric = sample.metric ∧ s.resourceId = sample.resourceId) :
    outcomes rules earlier (trackKey sample rule) =
      (earlier.map Sample.value).flatMap
        (lap ((twins rule rules).map ThresholdRule.violates)) := by
  induction earlier with
  | nil => rfl
  | cons s earlier ih =>
    obtain ⟨hmetric, hid⟩ := hs s List.mem_cons_self
    rw [outcomes_cons, ih fun t ht => hs t (List.mem_cons_of_mem s ht),
      counted_twins hm hmetric hid, List.map_cons, List.flatMap_cons, lap, List.map_map]
    rfl

/-- Where no rule but a twin has a key of the rule's, its keys count its own series alone. -/
theorem outcomes_series (hm : sample.metric = rule.metric)
    (hapart : ∀ r ∈ rules, Overlap rule r → Twin rule r) :
    outcomes rules earlier (trackKey sample rule) =
      outcomes rules (series sample earlier) (trackKey sample rule) := by
  induction earlier with
  | nil => rfl
  | cons s earlier ih =>
    rw [outcomes_cons, ih]
    by_cases hown : s.metric = sample.metric ∧ s.resourceId = sample.resourceId
    · have hseries : series sample (s :: earlier) = s :: series sample earlier :=
        List.filter_cons_of_pos (decide_eq_true hown)
      rw [hseries, outcomes_cons]
    · have hseries : series sample (s :: earlier) = series sample earlier :=
        List.filter_cons_of_neg (by simpa using hown)
      have hnone : rules.filter
          (fun r => r.metric = s.metric ∧ trackKey s r = trackKey sample rule) = [] := by
        refine List.filter_eq_nil_iff.mpr fun r hr hcounts => hown ?_
        obtain ⟨hmetric, hkey⟩ := of_decide_eq_true hcounts
        have htwin := hapart r hr (overlap_of_key hkey)
        refine ⟨?_, resource_eq hkey htwin⟩
        rw [← hmetric, htwin.2, hm]
      rw [hnone, hseries]
      rfl

theorem twins_split : twins rule (pre ++ rule :: post) =
    twins rule pre ++ rule :: twins rule post := by
  have hself : Twin rule rule := ⟨rfl, rfl⟩
  simp [twins, hself]

theorem series_self
    (hs : ∀ s ∈ earlier, s.metric = sample.metric ∧ s.resourceId = sample.resourceId) :
    series sample earlier = earlier :=
  List.filter_eq_self.mpr fun s h => decide_eq_true (hs s h)

theorem series_mem (h : s ∈ series sample earlier) :
    s.metric = sample.metric ∧ s.resourceId = sample.resourceId :=
  of_decide_eq_true (List.mem_filter.mp h).2

/-- Where its keys count its own series alone, a rule's count is the twins' shared one. -/
theorem count_eq_shared (hm : sample.metric = rule.metric)
    (hown : outcomes (pre ++ rule :: post) earlier (trackKey sample rule) =
      outcomes (pre ++ rule :: post) (series sample earlier) (trackKey sample rule)) :
    streak (outcomes (pre ++ rule :: post) earlier (trackKey sample rule) ++
      outcomes pre [sample] (trackKey sample rule) ++ [rule.violates sample.value]) =
      shared ((twins rule pre).map ThresholdRule.violates) rule.violates
        ((twins rule post).map ThresholdRule.violates) ((series sample earlier).map Sample.value)
        sample.value := by
  have hbefore : outcomes (pre ++ rule :: post) (series sample earlier)
      (trackKey sample rule) = _ := outcomes_same hm fun s h => series_mem h
  have hpre : outcomes pre [sample] (trackKey sample rule) = _ := outcomes_same hm (by simp)
  rw [hown, hbefore, hpre, twins_split, List.map_append, List.map_cons, shared]
  simp

/-- The law of a rule that does not fire on zero, told of its counts. -/
theorem windowLaw_iff (h : (Js.Number.finite 0).ge rule.consecutiveSamples = false) :
    WindowLaw pre rule post ↔ ∀ earlier sample, sample.metric = rule.metric →
      ∀ k, rule.window = some k →
        (k ≤ streak (outcomes (pre ++ rule :: post) earlier (trackKey sample rule) ++
          outcomes pre [sample] (trackKey sample rule) ++ [rule.violates sample.value]) ↔
          k ≤ own rule.violates ((series sample earlier).map Sample.value) sample.value) := by
  simp only [WindowLaw, fires_eq, ge_iff_window h, lastViolate_iff]
  constructor
  · intro hlaw earlier sample hm k hk
    have hiff := hlaw earlier sample hm
    simpa [hk] using hiff
  · intro hcount earlier sample hm
    refine exists_congr fun k => and_congr_right fun hk => ?_
    exact hcount earlier sample hm k hk

theorem windowLaw_of_sound (h : Sound pre rule post) : WindowLaw pre rule post := by
  obtain ⟨hzero, hcounter⟩ := h
  refine (windowLaw_iff hzero).mpr fun earlier sample hm k hk => ?_
  rcases hcounter with hnone | hone | hown
  · rw [hnone] at hk
    cases hk
  · rw [hone] at hk
    cases hk
    rw [own, List.map_append, one_le_streak_concat]
    exact one_le_streak_concat.symm
  · have hapart : ∀ r ∈ pre ++ rule :: post, Overlap rule r → Twin rule r := by
      intro r hr ho
      rcases List.mem_append.mp hr with hr | hr
      · exact hown.apart r (List.mem_append_left _ hr) ho
      · rcases List.mem_cons.mp hr with rfl | hr
        · exact ⟨rfl, rfl⟩
        · exact hown.apart r (List.mem_append_right _ hr) ho
    rw [count_eq_shared hm (outcomes_series hm hapart), hown.first]
    refine agrees_of ?_ _ _
    rcases hown.twins with hnil | ⟨htwo, hlast⟩
    · exact .inl (by rw [hnil]; rfl)
    · rw [htwo] at hk
      cases hk
      refine .inr ⟨rfl, ?_⟩
      intro q hq value
      rw [List.getLast?_map] at hq
      obtain ⟨r, hr, rfl⟩ := Option.mem_map.mp hq
      obtain ⟨hc, ht⟩ := hlast r hr
      simp only [ThresholdRule.violates, hc, ht]

theorem window_pos {k : Nat} (h : rule.window = some k) : 1 ≤ k := by
  unfold ThresholdRule.window at h
  split at h
  · cases h
  · cases h
  · cases h
    exact Nat.le_refl 1
  · cases h
    exact Nat.le_max_right _ _

theorem threshold_not_violated : rule.violates rule.threshold = false := by
  have hirrefl : ∀ x : Js.Number, x.lt x = false := by
    intro x
    cases x with
    | nan => rfl
    | infinite negative => cases negative <;> rfl
    | finite q => simp [Js.Number.lt]
  unfold ThresholdRule.violates
  cases rule.comparator <;> exact hirrefl _

theorem exists_violating (h : rule.threshold.isFinite = true) : ∃ v, rule.violates v = true := by
  unfold ThresholdRule.violates
  cases ht : rule.threshold with
  | nan => simp [ht, Js.Number.isFinite] at h
  | infinite negative => simp [ht, Js.Number.isFinite] at h
  | finite q =>
    cases rule.comparator with
    | gt => exact ⟨.finite (q + 1), by simp [Js.Number.lt]⟩
    | lt => exact ⟨.finite (q - 1), by simp [Js.Number.lt]⟩

/-- A sample of the rule's metric. -/
def ThresholdRule.measured (rule : ThresholdRule) (resourceId : String) (value : Js.Number) :
    Sample :=
  { metric := rule.metric, resourceId, observedAt := "2026-01-01T00:00:00Z", value }

theorem zero_of_law (h : WindowLaw pre rule post) :
    (Js.Number.finite 0).ge rule.consecutiveSamples = false := by
  cases hzero : (Js.Number.finite 0).ge rule.consecutiveSamples with
  | false => rfl
  | true =>
    have hnot : rule.violates (rule.measured "host" rule.threshold).value = false :=
      threshold_not_violated
    have hfires : fires (pre ++ rule :: post) pre rule []
        (rule.measured "host" rule.threshold) = true := by
      rw [fires_eq, hnot, streak_concat]
      simpa [next] using hzero
    obtain ⟨k, hk, hlast⟩ := (h _ _ rfl).mp hfires
    rw [lastViolate_iff, own, List.map_append, List.map_singleton, hnot, streak_concat] at hlast
    have hk0 : k ≤ 0 := hlast
    have hpos := window_pos hk
    omega

theorem agrees_of_law {k : Nat} (h : WindowLaw pre rule post) (hk : rule.window = some k) :
    Agrees k ((twins rule pre).map ThresholdRule.violates) rule.violates
      ((twins rule post).map ThresholdRule.violates) := by
  intro values value
  have hsame : ∀ s ∈ values.map (rule.measured "host"),
      s.metric = (rule.measured "host" value).metric ∧
        s.resourceId = (rule.measured "host" value).resourceId := by
    intro s hs
    obtain ⟨v, -, rfl⟩ := List.mem_map.mp hs
    exact ⟨rfl, rfl⟩
  have hcount := (windowLaw_iff (zero_of_law h)).mp h (values.map (rule.measured "host"))
    (rule.measured "host" value) rfl k hk
  have hvalues : (values.map (rule.measured "host")).map Sample.value = values := by
    rw [List.map_map]
    exact List.map_id values
  rw [count_eq_shared rfl (by rw [series_self hsame]), series_self hsame, hvalues] at hcount
  exact hcount

theorem exists_last_twin (hr : r ∈ rules) : ∃ qs q, twins r rules = qs ++ [q] := by
  have hmem : r ∈ twins r rules := List.mem_filter.mpr ⟨hr, decide_eq_true ⟨rfl, rfl⟩⟩
  rcases List.eq_nil_or_concat (twins r rules) with hnil | ⟨qs, q, hq⟩
  · rw [hnil] at hmem
    cases hmem
  · exact ⟨qs, q, by rw [hq, List.concat_eq_append]⟩

theorem series_replicate_other (hs : ¬ (s.metric = sample.metric ∧
    s.resourceId = sample.resourceId)) :
    series sample (List.replicate n sample ++ [s]) = List.replicate n sample := by
  rw [series, List.filter_append, List.filter_cons_of_neg (by simpa using hs), List.filter_nil,
    List.append_nil]
  refine series_self fun t ht => ?_
  rw [List.eq_of_mem_replicate ht]
  exact ⟨rfl, rfl⟩

/-- A sample that another rule counts under the rule's key, and that does not violate the last of
them, breaks the rule's count within its own series. -/
theorem apart_of_law {k : Nat} (h : WindowLaw pre rule post) (hk : rule.window = some k)
    (htwo : 2 ≤ k) (hfinite : rule.threshold.isFinite = true) (hfirst : twins rule pre = [])
    (hr : r ∈ pre ++ post) (ho : Overlap rule r) : Twin rule r := by
  by_contra hnot
  obtain ⟨rid, rid', hkey⟩ := key_of_overlap ho "host"
  obtain ⟨v, hv⟩ := exists_violating hfinite
  obtain ⟨qs, q, hq⟩ : ∃ qs q, twins r (pre ++ rule :: post) = qs ++ [q] := by
    refine exists_last_twin ?_
    rcases List.mem_append.mp hr with hr | hr
    · exact List.mem_append_left _ hr
    · exact List.mem_append_right _ (List.mem_cons_of_mem _ hr)
  have hcross : trackKey (rule.measured (rid ++ "host") v) rule =
      trackKey (r.measured (rid' ++ "host") q.threshold) r := hkey
  -- the samples before: enough that violate the rule, then the other rule's
  have hcount := (windowLaw_iff (zero_of_law h)).mp h
    (List.replicate (k - 1) (rule.measured (rid ++ "host") v) ++
      [r.measured (rid' ++ "host") q.threshold]) (rule.measured (rid ++ "host") v) rfl k hk
  have hbroken : outcomes (pre ++ rule :: post) [r.measured (rid' ++ "host") q.threshold]
      (trackKey (rule.measured (rid ++ "host") v) rule) =
        qs.map (fun q' => q'.violates q.threshold) ++ [false] := by
    rw [hcross, outcomes_same rfl (by simp), hq]
    simp [lap, ThresholdRule.measured, threshold_not_violated]
  have hpre : outcomes pre [rule.measured (rid ++ "host") v]
      (trackKey (rule.measured (rid ++ "host") v) rule) = [] := by
    rw [outcomes_same rfl (by simp), hfirst]
    rfl
  have hseries : series (rule.measured (rid ++ "host") v)
      (List.replicate (k - 1) (rule.measured (rid ++ "host") v) ++
        [r.measured (rid' ++ "host") q.threshold]) =
      List.replicate (k - 1) (rule.measured (rid ++ "host") v) := by
    refine series_replicate_other fun hsame => ?_
    obtain ⟨hmetric, hid⟩ := hsame
    have hevent := (key_eq_iff hid).mp hcross.symm
    exact hnot ⟨hevent, hmetric⟩
  rw [outcomes_append, hbroken, hpre, hseries, List.map_replicate, List.append_nil,
    streak_concat, ← List.append_assoc, streak_concat] at hcount
  have hown := own_replicate (m := k - 1) hv
  have hfires := hcount.mpr (by
    have hvalue : (rule.measured (rid ++ "host") v).value = v := rfl
    rw [hvalue, hown]
    omega)
  have hle : next (next (streak (outcomes (pre ++ rule :: post)
      (List.replicate (k - 1) (rule.measured (rid ++ "host") v))
      (trackKey (rule.measured (rid ++ "host") v) rule) ++
      qs.map (fun q' => q'.violates q.threshold))) false)
      (rule.violates (rule.measured (rid ++ "host") v).value) ≤ 1 := by
    unfold next
    split <;> simp
  omega

theorem sameComparison_of_violates (hr : r.threshold.isFinite = true)
    (hfinite : rule.threshold.isFinite = true) (h : ∀ v, r.violates v = rule.violates v) :
    SameComparison rule r := by
  unfold ThresholdRule.violates at h
  cases ht : rule.threshold with
  | nan => simp [ht, Js.Number.isFinite] at hfinite
  | infinite negative => simp [ht, Js.Number.isFinite] at hfinite
  | finite p =>
    cases ht' : r.threshold with
    | nan => simp [ht', Js.Number.isFinite] at hr
    | infinite negative => simp [ht', Js.Number.isFinite] at hr
    | finite q =>
      rw [ht, ht'] at h
      have hq := h (.finite q)
      have hp := h (.finite p)
      cases hc : rule.comparator with
      | gt =>
        cases hc' : r.comparator with
        | gt =>
          simp only [hc, hc', Js.Number.lt] at hq hp
          simp at hq hp
          exact ⟨by rw [hc, hc'], by rw [ht, ht', Rat.le_antisymm hq hp]⟩
        | lt =>
          have hbig := h (.infinite false)
          simp [hc, hc', Js.Number.lt] at hbig
      | lt =>
        cases hc' : r.comparator with
        | gt =>
          have hbig := h (.infinite false)
          simp [hc, hc', Js.Number.lt] at hbig
        | lt =>
          simp only [hc, hc', Js.Number.lt] at hq hp
          simp at hq hp
          exact ⟨by rw [hc, hc'], by rw [ht, ht', Rat.le_antisymm hp hq]⟩

/-- A rule between others fires by its window exactly where it is sound. -/
theorem windowLaw_iff_sound (hfinite : ∀ r ∈ pre ++ rule :: post, r.threshold.isFinite = true) :
    WindowLaw pre rule post ↔ Sound pre rule post := by
  refine ⟨fun h => ⟨zero_of_law h, ?_⟩, windowLaw_of_sound⟩
  have hself := hfinite rule (by simp)
  cases hk : rule.window with
  | none => exact .inl rfl
  | some k =>
    refine .inr ?_
    by_cases hone : k = 1
    · exact .inl (by rw [hone])
    · have htwo : 2 ≤ k := by
        have hpos := window_pos hk
        omega
      obtain ⟨hfirst, hlast⟩ := (agrees_iff (exists_violating hself) htwo).mp (agrees_of_law h hk)
      have hfirst := List.map_eq_nil_iff.mp hfirst
      refine .inr ⟨fun r => apart_of_law h hk htwo hself hfirst, hfirst, ?_⟩
      rcases hlast with hnil | ⟨rfl, hlast⟩
      · exact .inl (List.map_eq_nil_iff.mp hnil)
      · refine .inr ⟨hk, ?_⟩
        intro r hr
        have hmem : r ∈ post := (List.mem_filter.mp (List.mem_of_mem_getLast? hr)).1
        refine sameComparison_of_violates (hfinite r (by simp [hmem])) hself fun v => ?_
        refine hlast _ ?_ v
        rw [List.getLast?_map]
        exact Option.mem_map_of_mem _ hr

section Rows
variable {ofText : Js.Json → Js.Number} {row : AlertRule} {rows : List AlertRule}
  {dbRules : List ThresholdRule}

theorem rule_threshold_finite (h : row.rule ofText = some rule) :
    rule.threshold.isFinite = true := by
  simp only [AlertRule.rule, Option.ite_none_left_eq_some] at h
  obtain ⟨hgood, h⟩ := h
  cases h
  rw [Bool.or_eq_true, not_or] at hgood
  simpa using hgood.2

theorem fallback_threshold_finite (h : fromDb ofText rows = some dbRules)
    (hr : r ∈ withFallback dbRules) : r.threshold.isFinite = true := by
  simp only [fromDb, Option.ite_none_left_eq_some] at h
  obtain ⟨-, h⟩ := h
  cases h
  unfold withFallback at hr
  split at hr
  · obtain ⟨row, -, hrow⟩ := List.mem_filterMap.mp hr
    exact rule_threshold_finite hrow
  · rw [List.mem_singleton.mp hr]
    rfl

/-- The rules of a job fire by their windows exactly where every one of them is sound. -/
theorem windowed_iff_sound (h : fromDb ofText rows = some dbRules) :
    Windowed (withFallback dbRules) ↔
      ∀ pre rule post, withFallback dbRules = pre ++ rule :: post → Sound pre rule post := by
  refine forall_congr' fun pre => forall_congr' fun rule => forall_congr' fun post =>
    forall_congr' fun hsplit => windowLaw_iff_sound fun r hr => ?_
  exact fallback_threshold_finite h (hsplit ▸ hr)

end Rows

def levelRule (eventType metric : String) (threshold samples : Nat) : AlertRule :=
  { tenantId := "t_1"
    eventType
    severity := "high"
    conditionJson := .object
      [("metric", .string metric), ("threshold", .number (.finite threshold)),
       ("consecutive_samples", .number (.finite samples))] }

/-- A rule on the processor and one on the memory, each with its own event type. -/
theorem windowed_own_events : ∃ dbRules, fromDb (fun _ => .nan)
      [levelRule "infra.cpu.high" "host.cpu.usage_percent" 90 6,
       levelRule "infra.memory.high" "host.memory.usage_percent" 80 3] = some dbRules ∧
    dbRules.length = 2 ∧ Windowed (withFallback dbRules) := by
  have hload : fromDb (fun _ => .nan)
      [levelRule "infra.cpu.high" "host.cpu.usage_percent" 90 6,
       levelRule "infra.memory.high" "host.memory.usage_percent" 80 3] = some _ := rfl
  refine ⟨_, hload, rfl, (windowed_iff_sound hload).mpr fun pre rule post hsplit => ?_⟩
  rcases pre with _ | ⟨first, _ | ⟨second, pre⟩⟩
  · cases hsplit
    refine ⟨by decide, .inr (.inr ⟨fun r hr ho => ?_, rfl, .inl (by decide)⟩)⟩
    cases List.mem_singleton.mp hr
    exact absurd ho (by decide)
  · cases hsplit
    refine ⟨by decide, .inr (.inr ⟨fun r hr ho => ?_, by decide, .inl rfl⟩)⟩
    cases List.mem_singleton.mp hr
    exact absurd ho (by decide)
  · cases pre <;> cases hsplit

/-- Two levels of one event share a count: the second fires on one isolated sample. -/
theorem levels_share_count : ¬ ∀ (ofText : Js.Json → Js.Number) rows dbRules,
    fromDb ofText rows = some dbRules → Windowed (withFallback dbRules) := by
  intro h
  have hload : fromDb (fun _ => .nan)
      [levelRule "infra.cpu.high" "host.cpu.usage_percent" 80 2,
       levelRule "infra.cpu.high" "host.cpu.usage_percent" 90 2] = some _ := rfl
  have hlaw := h _ _ _ hload [_] _ [] rfl []
    ⟨"host.cpu.usage_percent", "host_1", "2026-01-01T00:00:00Z", .finite 95⟩ rfl
  obtain ⟨k, hk, hlast⟩ := hlaw.mp (by decide +kernel)
  cases hk
  exact absurd (lastViolate_iff.mp hlast) (by decide +kernel)

end WaOps.Rules
