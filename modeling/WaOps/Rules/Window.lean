import WaOps.Lib.Tallies
import WaOps.Rules.Worker

namespace WaOps.Rules
open Lib Lib.Runs Lib.Tallies

def ThresholdRule.violates (rule : ThresholdRule) (value : Js.Number) : Bool :=
  match rule.comparator with
  | .gt => rule.threshold.lt value
  | .lt => value.lt rule.threshold

/-- The bodies of the two loops for these rules, in order. -/
def evaluations (rules : List ThresholdRule) (samples : List Sample) :
    List (Sample × ThresholdRule) :=
  samples.flatMap (fun sample =>
    (rules.filter (fun rule => rule.metric = sample.metric)).map (sample, ·))

/-- RuleStateTracker.track: the tracker's map after it. -/
def track (counts : String → Nat) (x : Sample × ThresholdRule) : String → Nat :=
  fun key => if key = trackKey x.1 x.2
    then (evaluateThresholdRule x.2 (counts (trackKey x.1 x.2)) x.1.value).consecutiveCount
    else counts key

/-- Whether a rule after the rules `pre` fires on a sample after the earlier samples. -/
def fires (rules pre : List ThresholdRule) (rule : ThresholdRule) (earlier : List Sample)
    (sample : Sample) : Bool :=
  let counts := (evaluations rules earlier ++ evaluations pre [sample]).foldl track (fun _ => 0)
  (evaluateThresholdRule rule (counts (trackKey sample rule)) sample.value).fired

/-- The k of a rule, at least 1; none where no count reaches consecutiveSamples. -/
def ThresholdRule.window (rule : ThresholdRule) : Option Nat :=
  match rule.consecutiveSamples with
  | .nan | .infinite false => none
  | .infinite true => some 1
  | .finite q => some (max q.ceil.toNat 1)

/-- The samples of one metric and resource. -/
def series (sample : Sample) (samples : List Sample) : List Sample :=
  samples.filter (fun s => s.metric = sample.metric ∧ s.resourceId = sample.resourceId)

/-- The sample and those just before it in its series, k in all, violate the rule. -/
def LastViolate (rule : ThresholdRule) (k : Nat) (earlier : List Sample) (sample : Sample) : Prop :=
  ∃ older last, series sample (earlier ++ [sample]) = older ++ last ∧ last.length = k ∧
    ∀ s ∈ last, rule.violates s.value = true

/-- The rule between these others fires when the last k samples violate it, and only then. -/
def WindowLaw (pre : List ThresholdRule) (rule : ThresholdRule) (post : List ThresholdRule) :
    Prop :=
  ∀ earlier sample, sample.metric = rule.metric →
    (fires (pre ++ rule :: post) pre rule earlier sample = true ↔
      ∃ k, rule.window = some k ∧ LastViolate rule k earlier sample)

/-- Every rule of the list, wherever it stands. -/
def Windowed (rules : List ThresholdRule) : Prop :=
  ∀ pre rule post, rules = pre ++ rule :: post → WindowLaw pre rule post

variable {rules pre post : List ThresholdRule} {rule r : ThresholdRule} {earlier : List Sample}
  {sample s : Sample} {counts : String → Nat} {key : String} {n : Nat}

def outcomeOf (x : Sample × ThresholdRule) : String × Bool :=
  (trackKey x.1 x.2, x.2.violates x.1.value)

theorem evaluate_eq {value : Js.Number} : evaluateThresholdRule rule n value =
    if (Js.Number.finite (next n (rule.violates value) : Nat)).ge rule.consecutiveSamples then
      { fired := true, eventType := some rule.eventType, severity := some rule.severity, value
        consecutiveCount := next n (rule.violates value) }
    else { fired := false, value, consecutiveCount := next n (rule.violates value) } := rfl

theorem consecutiveCount_eq {value : Js.Number} :
    (evaluateThresholdRule rule n value).consecutiveCount = next n (rule.violates value) := by
  rw [evaluate_eq]
  split <;> rfl

theorem fired_eq {value : Js.Number} : (evaluateThresholdRule rule n value).fired =
    (Js.Number.finite (next n (rule.violates value) : Nat)).ge rule.consecutiveSamples := by
  rw [evaluate_eq]
  split
  · rename_i h
    exact h.symm
  · rename_i h
    exact (Bool.not_eq_true _ ▸ h).symm

theorem track_eq_bump {x : Sample × ThresholdRule} :
    track counts x = bump counts (outcomeOf x) := by
  funext key
  unfold track bump outcomeOf
  rw [consecutiveCount_eq]
  split
  · rename_i h
    rw [h]
  · rfl

/-- What the rules make of the samples under a key. -/
def outcomes (rules : List ThresholdRule) (samples : List Sample) (key : String) : List Bool :=
  under key ((evaluations rules samples).map outcomeOf)

theorem foldl_track {xs : List (Sample × ThresholdRule)} :
    xs.foldl track counts = (xs.map outcomeOf).foldl bump counts := by
  rw [List.foldl_map]
  congr 1
  funext counts x
  exact track_eq_bump

/-- A rule fires by the streak of outcomes under its key. -/
theorem fires_eq : fires rules pre rule earlier sample =
    (Js.Number.finite (streak (outcomes rules earlier (trackKey sample rule) ++
      outcomes pre [sample] (trackKey sample rule) ++ [rule.violates sample.value]) : Nat)).ge
      rule.consecutiveSamples := by
  simp only [fires, fired_eq, foldl_track, count_eq_streak, List.map_append, under_append,
    streak_concat, outcomes]

/-- Where zero does not fire, a count fires that reaches the window. -/
theorem ge_iff_window (h : (Js.Number.finite 0).ge rule.consecutiveSamples = false) :
    (Js.Number.finite (n : Nat)).ge rule.consecutiveSamples = true ↔
      ∃ k, rule.window = some k ∧ k ≤ n := by
  unfold ThresholdRule.window
  cases hk : rule.consecutiveSamples with
  | nan => simp [Js.Number.ge]
  | infinite negative => cases negative <;> simp_all [Js.Number.ge, Js.Number.lt]
  | finite q =>
    have hq : 0 < q := by simpa [hk, Js.Number.ge, Js.Number.lt] using h
    have hceil : q.ceil ≤ (n : Int) ↔ q ≤ (n : Rat) := Rat.ceil_le_iff
    have hpos : 0 < q.ceil := Rat.lt_ceil_iff.mpr (by simpa using hq)
    have hge : (Js.Number.finite (n : Rat)).ge (.finite q) = true ↔ q ≤ n := by
      simp [Js.Number.ge, Js.Number.lt]
    rw [hge, ← hceil]
    constructor
    · intro hle
      exact ⟨_, rfl, by omega⟩
    · intro ⟨k, hk, hle⟩
      cases hk
      omega

theorem lastViolate_iff {k : Nat} : LastViolate rule k earlier sample ↔
    k ≤ own rule.violates ((series sample earlier).map Sample.value) sample.value := by
  have hseries : series sample (earlier ++ [sample]) = series sample earlier ++ [sample] := by
    simp [series]
  have hown : own rule.violates ((series sample earlier).map Sample.value) sample.value =
      streak ((series sample earlier ++ [sample]).map (fun s => rule.violates s.value)) := by
    simp [own, Function.comp_def]
  rw [hown, le_streak_iff, LastViolate, hseries]
  constructor
  · intro hlast
    obtain ⟨older, last, hsplit, hlen, hall⟩ := hlast
    refine ⟨older.map (fun s => rule.violates s.value), last.map (fun s => rule.violates s.value),
      by rw [hsplit, List.map_append], by rw [List.length_map, hlen], ?_⟩
    intro b hb
    obtain ⟨s, hs, rfl⟩ := List.mem_map.mp hb
    exact hall s hs
  · intro hlast
    obtain ⟨older, last, hsplit, hlen, hall⟩ := hlast
    obtain ⟨older', last', hsamples, rfl, rfl⟩ := List.map_eq_append_iff.mp hsplit
    refine ⟨older', last', hsamples, by simpa using hlen, ?_⟩
    intro s hs
    exact hall _ (List.mem_map_of_mem hs)

section Runs
variable (ofText : Js.Json → Js.Number) (sha256 : String → String)

/-- The pair a step evaluates. -/
def evaluated (s : Worker) : Action → List (Sample × ThresholdRule)
  | .turn t k _ _ =>
    match s.jobs t k with
    | some ⟨_, .evaluating (x :: _)⟩ => [x]
    | _ => []
  | _ => []

/-- The pairs a run evaluates, of all its jobs. -/
def evaluatedIn (s : Worker) : List Action → List (Sample × ThresholdRule)
  | [] => []
  | a :: as =>
    match step ofText sha256 s a with
    | some t => evaluated s a ++ evaluatedIn t as
    | none => []

variable {ofText sha256} {w u : Worker} {a : Action} {as : List Action}

theorem step_counts (h : step ofText sha256 w a = some u) :
    u.counts = (evaluated w a).foldl track w.counts := by
  cases a with
  | setRules t rules =>
    cases h
    rfl
  | take t k samples =>
    simp only [step] at h
    split at h
    · cases h
      rfl
    · contradiction
  | query t k now =>
    simp only [step] at h
    split at h
    · split at h
      · contradiction
      · cases h
        rfl
    · contradiction
  | turn t k ok now =>
    simp only [step, Option.bind_eq_some_iff] at h
    obtain ⟨⟨samples, pc⟩, hj, h⟩ := h
    simp only [evaluated, hj]
    cases pc with
    | evaluating work =>
      cases work with
      | nil =>
        cases h
        rfl
      | cons x rest =>
        cases h
        rfl
    | taken =>
      cases h
      rfl
    | inserted =>
      simp only [Worker.turn] at h
      split at h
      · cases h
        rfl
      · contradiction
    | loading rows =>
      simp only [Worker.turn] at h
      split at h
      · cases h
        rfl
      · cases h
        rfl
    | publishing event rest =>
      simp only [Worker.turn] at h
      split at h
      · cases h
        rfl
      · cases h
        rfl
    | done =>
      cases h
      rfl
    | failed =>
      cases h
      rfl

/-- After any run the counts are the tracker's over the pairs the run evaluated. -/
theorem run_counts (h : exec (step ofText sha256) w as = some u) :
    u.counts = (evaluatedIn ofText sha256 w as).foldl track w.counts := by
  induction as generalizing w with
  | nil =>
    cases h
    rfl
  | cons a as ih =>
    obtain ⟨v, hv, h⟩ := exec_cons h
    rw [ih h, step_counts hv, ← List.foldl_append]
    simp only [evaluatedIn, hv]

/-- A worker that has evaluated the earlier samples in order, and the rules before this one on
the sample, fires the rule as `fires` says. -/
theorem turn_fires {rows : List AlertRule}
    (h : exec (step ofText sha256) { rows } as = some u)
    (hin : evaluatedIn ofText sha256 { rows } as =
      evaluations rules earlier ++ evaluations pre [sample]) :
    (evaluateThresholdRule rule (u.counts (trackKey sample rule)) sample.value).fired =
      fires rules pre rule earlier sample := by
  rw [run_counts h, hin]
  rfl

end Runs

end WaOps.Rules
