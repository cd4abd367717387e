import WaOps.Rules.Worker

namespace WaOps.Rules
open Lib Lib.Runs

/-- A tenant's rows, counters, jobs and events. -/
structure Own where
  rows : List AlertRule
  counts : String → Nat
  jobs : Nat → Option Job
  published : List Event

/-- What a tenant's side of a run shows of an action. -/
inductive Seen where
  | setRules (rules : List AlertRule)
  | take (k : Nat) (samples : List Sample)
  | turn (k : Nat) (ok : Bool)

def observe (tenantId : String) : Action → Option Seen
  | .setRules t rules => if t = tenantId then some (.setRules rules) else none
  | .take t k samples => if t = tenantId then some (.take k samples) else none
  | .query _ _ _ => none
  | .turn t k ok _ => if t = tenantId then some (.turn k ok) else none

def Own.setPc (v : Own) (k : Nat) (job : Job) (pc : JobPc) : Own :=
  { v with jobs := (fun n => if n = k then some { job with pc } else v.jobs n) }

def Own.setCount (v : Own) (key : String) (n : Nat) : Own :=
  { v with counts := (fun key' => if key' = key then n else v.counts key') }

/-- Where a job goes on once what it has to evaluate is known, or could not be loaded. -/
def afterLoad : Option (List (Sample × ThresholdRule)) → JobPc
  | some work => .evaluating work
  | none => .failed

variable (ofText : Js.Json → Js.Number) (sha256 : String → String) (tenantId : String)

/-- A turn of a worker that reads the tenant's own rows each time. -/
def Own.turn (v : Own) (k : Nat) (ok : Bool) (job : Job) : Own :=
  match job.pc with
  | .taken => v.setPc k job (if ok then .inserted else .failed)
  | .inserted | .loading _ =>
    v.setPc k job (afterLoad
      (if ok then (fromDb ofText v.rows).map (worklist · job.samples) else none))
  | .evaluating ((sample, rule) :: rest) =>
    let key := trackKey sample rule
    let evaluation := evaluateThresholdRule rule (v.counts key) sample.value
    (v.setCount key evaluation.consecutiveCount).setPc k job
      (afterEvaluation sha256 tenantId sample rule evaluation rest)
  | .evaluating [] => v.setPc k job .done
  | .publishing event rest =>
    if ok then { v.setPc k job (.evaluating rest) with published := v.published ++ [event] }
    else v.setPc k job .failed
  | .done | .failed => v

def ownStep (v : Own) : Seen → Option Own
  | .setRules rules => some { v with rows := rules.map (fun r => { r with tenantId }) }
  | .take k samples =>
    match v.jobs k with
    | none => some (v.setPc k { samples } .taken)
    | some _ => none
  | .turn k ok => (v.jobs k).map (v.turn ofText sha256 tenantId k ok)

/-- A job that waits for loadRules looks the same whether or not the rows were read. -/
def JobPc.plain : JobPc → JobPc
  | .loading _ => .inserted
  | pc => pc

def Job.plain (job : Job) : Job := { job with pc := job.pc.plain }

def Worker.publishedFor (s : Worker) (tenantId : String) : List Event :=
  s.published.filter (fun e => e.tenantId = tenantId)

def ownRows (tenantId : String) (rows : List AlertRule) : List AlertRule :=
  rows.filter (fun r => r.tenantId = tenantId)

variable (keys : String → Prop) [DecidablePred keys]

/-- The tenant's part of a worker; of the counters only those under its keys. -/
def view (s : Worker) : Own :=
  { rows := ownRows tenantId s.rows
    counts := (fun key => if keys key then s.counts key else 0)
    jobs := (fun k => (s.jobs tenantId k).map Job.plain)
    published := s.publishedFor tenantId }

/-- What loadRules is about to answer to a job. -/
def Worker.answer (s : Worker) : JobPc → Option (Option (List ThresholdRule))
  | .inserted => some (some s.cacheRules)
  | .loading rows => some (fromDb ofText rows)
  | _ => none

def JobPc.next : JobPc → Option (Sample × ThresholdRule)
  | .evaluating (x :: _) => some x
  | _ => none

/-- The tenant's jobs are evaluated against the rules its own rows alone would give, and the
tracker keys its evaluations use are used by no other tenant's. -/
def Apart (s : Worker) : Action → Prop
  | .turn t k ok _ => ∀ job ∈ s.jobs t k,
      (t = tenantId → ok = true → ∀ rules ∈ s.answer ofText job.pc,
        rules.map (worklist · job.samples) =
          (fromDb ofText (ownRows tenantId s.rows)).map (worklist · job.samples)) ∧
      ∀ x ∈ job.pc.next, keys (trackKey x.1 x.2) ↔ t = tenantId
  | _ => True

instance : ∀ s a, Decidable (Apart ofText tenantId keys s a)
  | s, .turn t k _ _ => inferInstanceAs (Decidable (∀ job ∈ s.jobs t k, _ ∧ ∀ x ∈ job.pc.next, _))
  | _, .setRules .. | _, .take .. | _, .query .. => isTrue trivial

/-- An event that waits to be published is its job's tenant's. -/
def Labelled (s : Worker) : Prop :=
  ∀ t k job event rest, s.jobs t k = some job → job.pc = .publishing event rest →
    event.tenantId = t

variable {ofText sha256 tenantId keys} {s t : Worker} {u : String} {k : Nat} {job : Job}
  {p : JobPc}

theorem setPc_labelled (h : Labelled s)
    (hpc : ∀ event rest, p = .publishing event rest → event.tenantId = u) :
    Labelled (s.setPc u k job p) := by
  intro t n job' event rest hj he
  simp only [Worker.setPc] at hj
  split at hj
  · rename_i heq
    cases hj
    rw [heq.1]
    exact hpc event rest he
  · exact h t n job' event rest hj he

theorem afterEvaluation_labelled {sample : Sample} {rule : ThresholdRule}
    {evaluation : RuleEvaluation} {rest rest' : List (Sample × ThresholdRule)} {e : Event}
    (h : afterEvaluation sha256 u sample rule evaluation rest = .publishing e rest') :
    e.tenantId = u := by
  unfold afterEvaluation at h
  split at h
  · split at h
    · contradiction
    · split at h
      · cases h
        rfl
      · contradiction
  · contradiction

theorem step_labelled (s : Worker) (a : Action) (t : Worker) (h : Labelled s)
    (hs : step ofText sha256 s a = some t) : Labelled t := by
  cases a with
  | setRules u rules =>
    cases hs
    exact h
  | take u k samples =>
    simp only [step] at hs
    split at hs
    · cases hs
      exact setPc_labelled h (by simp)
    · contradiction
  | query u k now =>
    simp only [step] at hs
    split at hs
    · split at hs
      · contradiction
      · cases hs
        exact setPc_labelled h (by simp)
    · contradiction
  | turn u k ok now =>
    simp only [step, Option.bind_eq_some_iff] at hs
    obtain ⟨job, hj, hs⟩ := hs
    unfold Worker.turn at hs
    split at hs
    · cases hs
      refine setPc_labelled h ?_
      intro event rest he
      split at he <;> contradiction
    · split at hs
      · cases hs
        exact setPc_labelled h (by simp)
      · contradiction
    · split at hs
      · cases hs
        exact setPc_labelled h (by simp)
      · cases hs
        exact setPc_labelled h (by simp)
    · cases hs
      exact setPc_labelled (s := s.setCount _ _) h fun _ _ he => afterEvaluation_labelled he
    · cases hs
      exact setPc_labelled h (by simp)
    · split at hs
      · cases hs
        exact setPc_labelled h (by simp)
      · cases hs
        exact setPc_labelled h (by simp)
    · cases hs
      exact h
    · cases hs
      exact h

theorem Own.setPc_self {v : Own} (hj : v.jobs k = some job) : v.setPc k job job.pc = v := by
  simp only [Own.setPc]
  congr
  funext n
  by_cases hn : n = k
  · simp [hn, hj]
  · simp [hn]

/-- The rows after a tenant's rules are replaced. -/
theorem ownRows_replaced {rows rules : List AlertRule} :
    ownRows tenantId (rows.filter (fun r => r.tenantId ≠ u) ++
        rules.map (fun r => { r with tenantId := u })) =
      if u = tenantId then rules.map (fun r => { r with tenantId := u })
      else ownRows tenantId rows := by
  unfold ownRows
  rw [List.filter_append, List.filter_filter]
  split
  · rename_i hu
    have hold : rows.filter (fun r => r.tenantId = tenantId && r.tenantId ≠ u) = [] := by
      simp [hu]
    rw [hold]
    simp [List.filter_eq_self, hu]
  · rename_i hu
    have hnew : (rules.map (fun r => { r with tenantId := u })).filter
        (fun r => r.tenantId = tenantId) = [] := by
      simp [hu]
    rw [hnew, List.append_nil]
    apply List.filter_congr
    intro r _
    by_cases hr : r.tenantId = tenantId
    · simp [hr, Ne.symm hu]
    · simp [hr]

theorem view_setPc_own :
    view tenantId keys (s.setPc tenantId k job p) =
      (view tenantId keys s).setPc k job.plain p.plain := by
  simp only [view, Own.setPc, Worker.setPc, Own.mk.injEq, true_and, and_true, Worker.publishedFor]
  funext n
  by_cases hn : n = k
  · simp [hn, Job.plain]
  · simp [hn]

theorem view_setPc_other (hu : u ≠ tenantId) :
    view tenantId keys (s.setPc u k job p) = view tenantId keys s := by
  simp only [view, Worker.setPc, Own.mk.injEq, true_and, and_true, Worker.publishedFor]
  funext n
  simp [hu.symm]

theorem view_setCount_own {key : String} {n : Nat} (hk : keys key) :
    view tenantId keys (s.setCount key n) = (view tenantId keys s).setCount key n := by
  simp only [view, Own.setCount, Worker.setCount, Own.mk.injEq, true_and, and_true,
    Worker.publishedFor]
  funext key'
  by_cases hn : key' = key
  · simp [hn, hk]
  · simp [hn]

theorem view_setCount_other {key : String} {n : Nat} (hk : ¬ keys key) :
    view tenantId keys (s.setCount key n) = view tenantId keys s := by
  simp only [view, Worker.setCount, Own.mk.injEq, true_and, and_true, Worker.publishedFor]
  funext key'
  by_cases hn : key' = key
  · simp [hn, hk]
  · simp [hn]

theorem view_publish_own {e : Event} (he : e.tenantId = tenantId) :
    view tenantId keys { s with published := s.published ++ [e] } =
      { view tenantId keys s with
        published := (view tenantId keys s).published ++ [e] } := by
  simp [view, Worker.publishedFor, he]

theorem view_publish_other {e : Event} (he : e.tenantId ≠ tenantId) :
    view tenantId keys { s with published := s.published ++ [e] } = view tenantId keys s := by
  simp [view, Worker.publishedFor, he]

theorem afterEvaluation_plain {sample : Sample} {rule : ThresholdRule}
    {evaluation : RuleEvaluation} {rest : List (Sample × ThresholdRule)} :
    (afterEvaluation sha256 u sample rule evaluation rest).plain =
      afterEvaluation sha256 u sample rule evaluation rest := by
  unfold afterEvaluation
  repeat' split
  all_goals rfl

theorem afterLoad_plain {work : Option (List (Sample × ThresholdRule))} :
    (afterLoad work).plain = afterLoad work := by
  cases work <;> rfl

/-- Another tenant's job leaves the view alone, as long as it uses none of the keys. -/
theorem turn_other {ok : Bool} {now : Int} (hu : u ≠ tenantId) (hj : s.jobs u k = some job)
    (hkeys : ∀ x ∈ job.pc.next, ¬ keys (trackKey x.1 x.2)) (hl : Labelled s)
    (ht : s.turn ofText sha256 u k ok now job = some t) :
    view tenantId keys t = view tenantId keys s := by
  unfold Worker.turn at ht
  split at ht
  · cases ht
    exact view_setPc_other hu
  · split at ht
    · cases ht
      exact view_setPc_other hu
    · contradiction
  · split at ht
    · cases ht
      -- The cache is not part of the view.
      change view tenantId keys (s.setPc u k job _) = _
      exact view_setPc_other hu
    · cases ht
      exact view_setPc_other hu
  · rename_i sample rule rest hpc
    cases ht
    rw [view_setPc_other hu]
    exact view_setCount_other (hkeys (sample, rule) (by rw [hpc]; rfl))
  · cases ht
    exact view_setPc_other hu
  · rename_i event rest hpc
    have he : event.tenantId ≠ tenantId := by
      rw [hl u k job event rest hj hpc]
      exact hu
    split at ht
    · cases ht
      exact (view_publish_other (s := s.setPc u k job _) he).trans (view_setPc_other hu)
    · cases ht
      exact view_setPc_other hu
  · cases ht
    rfl
  · cases ht
    rfl

/-- A job of the tenant goes on as its own rows and counters say. -/
theorem turn_own {ok : Bool} {now : Int}
    (hrules : ok = true → ∀ rules ∈ s.answer ofText job.pc, rules.map (worklist · job.samples) =
      (fromDb ofText (ownRows tenantId s.rows)).map (worklist · job.samples))
    (hkeys : ∀ x ∈ job.pc.next, keys (trackKey x.1 x.2)) (hl : Labelled s)
    (hj : s.jobs tenantId k = some job)
    (ht : s.turn ofText sha256 tenantId k ok now job = some t) :
    (view tenantId keys s).turn ofText sha256 tenantId k ok job.plain =
      view tenantId keys t := by
  obtain ⟨samples, p⟩ := job
  cases p with
  | taken =>
    cases ht
    rw [view_setPc_own]
    cases ok <;> rfl
  | inserted =>
    simp only [Worker.turn] at ht
    split at ht
    · rename_i hok
      cases ht
      have hr := hrules hok.2 (some s.cacheRules) rfl
      change _ = view tenantId keys
        (s.setPc tenantId k _ (afterLoad (.map (worklist · samples) (some s.cacheRules))))
      rw [view_setPc_own, hr, afterLoad_plain, hok.2]
      rfl
    · contradiction
  | loading rows =>
    simp only [Worker.turn] at ht
    cases ok with
    | false =>
      cases ht
      rw [view_setPc_own]
      rfl
    | true =>
      have hr := hrules rfl (fromDb ofText rows) rfl
      simp only [if_true] at ht
      split at ht
      · rename_i rules hrows
        cases ht
        change _ = view tenantId keys
          (s.setPc tenantId k _ (afterLoad (.map (worklist · samples) (some rules))))
        rw [view_setPc_own, ← hrows, hr, afterLoad_plain]
        rfl
      · rename_i hrows
        cases ht
        change _ = view tenantId keys
          (s.setPc tenantId k _ (afterLoad (.map (worklist · samples) none)))
        rw [view_setPc_own, ← hrows, hr, afterLoad_plain]
        rfl
  | evaluating rest =>
    cases rest with
    | nil =>
      cases ht
      rw [view_setPc_own]
      rfl
    | cons x rest =>
      have hk : keys (trackKey x.1 x.2) := hkeys x rfl
      have hcount : (view tenantId keys s).counts (trackKey x.1 x.2) =
          s.counts (trackKey x.1 x.2) := if_pos hk
      cases ht
      rw [view_setPc_own, view_setCount_own hk, afterEvaluation_plain, ← hcount]
      rfl
  | publishing event rest =>
    have he : event.tenantId = tenantId := hl tenantId k _ event rest hj rfl
    simp only [Worker.turn] at ht
    split at ht
    · rename_i hok
      cases ht
      rw [hok]
      refine ((view_publish_own (s := s.setPc tenantId k _ (.evaluating rest)) he).trans ?_).symm
      rw [view_setPc_own]
      rfl
    · rename_i hok
      cases ht
      rw [view_setPc_own]
      simp [Own.turn, Job.plain, JobPc.plain, hok]
  | done =>
    cases ht
    rfl
  | failed =>
    cases ht
    rfl

theorem step_hidden (s : Worker) (a : Action) (t : Worker) (hl : Labelled s)
    (ha : Apart ofText tenantId keys s a) (hs : step ofText sha256 s a = some t)
    (ho : observe tenantId a = none) : view tenantId keys t = view tenantId keys s := by
  cases a with
  | setRules u rules =>
    have hu : u ≠ tenantId := by
      intro he
      simp [observe, he] at ho
    cases hs
    simp only [view, Own.mk.injEq, Worker.publishedFor, and_true]
    rw [ownRows_replaced, if_neg hu]
  | take u k samples =>
    have hu : u ≠ tenantId := by
      intro he
      simp [observe, he] at ho
    simp only [step] at hs
    split at hs
    · cases hs
      exact view_setPc_other hu
    · contradiction
  | query u k now =>
    simp only [step] at hs
    split at hs
    · rename_i samples hj
      split at hs
      · contradiction
      · cases hs
        by_cases hu : u = tenantId
        · subst hu
          rw [view_setPc_own]
          have hv : (view u keys s).jobs k = some ⟨samples, .inserted⟩ := by
            simp only [view, hj, Option.map_some]
            rfl
          exact Own.setPc_self hv
        · exact view_setPc_other hu
    · contradiction
  | turn u k ok now =>
    have hu : u ≠ tenantId := by
      intro he
      simp [observe, he] at ho
    obtain ⟨job, hj, ht⟩ := Option.bind_eq_some_iff.mp hs
    refine turn_other hu hj ?_ hl ht
    intro x hx hk
    exact hu (((ha job hj).2 x hx).mp hk)

theorem step_seen (s : Worker) (a : Action) (t : Worker) (o : Seen) (hl : Labelled s)
    (ha : Apart ofText tenantId keys s a) (hs : step ofText sha256 s a = some t)
    (ho : observe tenantId a = some o) :
    ownStep ofText sha256 tenantId (view tenantId keys s) o = some (view tenantId keys t) := by
  cases a with
  | setRules u rules =>
    simp only [observe] at ho
    split at ho
    · rename_i hu
      subst hu
      cases ho
      cases hs
      simp only [view, ownStep, Option.some.injEq, Own.mk.injEq, Worker.publishedFor, and_true]
      rw [ownRows_replaced, if_pos rfl]
    · contradiction
  | take u k samples =>
    simp only [observe] at ho
    split at ho
    · rename_i hu
      subst hu
      cases ho
      simp only [step] at hs
      split at hs
      · rename_i hj
        cases hs
        have hv : (view u keys s).jobs k = none := by simp [view, hj]
        simp only [ownStep, hv]
        rw [view_setPc_own]
        rfl
      · contradiction
    · contradiction
  | query u k now => contradiction
  | turn u k ok now =>
    simp only [observe] at ho
    split at ho
    · rename_i hu
      subst hu
      cases ho
      obtain ⟨job, hj, ht⟩ := Option.bind_eq_some_iff.mp hs
      have hv : (view u keys s).jobs k = some job.plain := by simp [view, hj]
      obtain ⟨hrules, hkeys⟩ := ha job hj
      simp only [ownStep, hv, Option.map_some, Option.some.injEq]
      exact turn_own (hrules rfl) (fun x hx => (hkeys x hx).mpr rfl) hl hj ht
    · contradiction

end WaOps.Rules
