import WaOps.Rules.OwnView

namespace WaOps.Rules
open Lib Lib.Runs

/-- Every job of the tenant is over. -/
def Worker.Idle (s : Worker) (tenantId : String) : Prop :=
  ∀ k job, s.jobs tenantId k = some job → job.pc = .done ∨ job.pc = .failed

/-- Two runs that agree on the tenant's rules and jobs publish the same events for it, whatever
the other tenants have and do. -/
def TenantBlind (ofText : Js.Json → Js.Number) (sha256 : String → String) (tenantId : String) :
    Prop :=
  ∀ rows₁ rows₂ as₁ as₂ t₁ t₂, ownRows tenantId rows₁ = ownRows tenantId rows₂ →
    as₁.filterMap (observe tenantId) = as₂.filterMap (observe tenantId) →
    exec (step ofText sha256) { rows := rows₁ } as₁ = some t₁ →
    exec (step ofText sha256) { rows := rows₂ } as₂ = some t₂ →
    t₁.Idle tenantId → t₂.Idle tenantId →
    t₁.publishedFor tenantId = t₂.publishedFor tenantId

variable {ofText : Js.Json → Js.Number} {sha256 : String → String} {tenantId : String}
  {keys : String → Prop} [DecidablePred keys]

theorem init_labelled (rows : List AlertRule) : Labelled { rows } := by
  intro t k job event rest hj _
  cases hj

/-- While the tenant's jobs are evaluated against its own rules and under keys of its own, its
events depend on its own rules and jobs alone. -/
theorem published_eq_of_apart {rows₁ rows₂ : List AlertRule} {as₁ as₂ : List Action}
    {t₁ t₂ : Worker} (hrows : ownRows tenantId rows₁ = ownRows tenantId rows₂)
    (hseen : as₁.filterMap (observe tenantId) = as₂.filterMap (observe tenantId))
    (h₁ : Meets (step ofText sha256) (Apart ofText tenantId keys) { rows := rows₁ } as₁)
    (h₂ : Meets (step ofText sha256) (Apart ofText tenantId keys) { rows := rows₂ } as₂)
    (hrun₁ : exec (step ofText sha256) { rows := rows₁ } as₁ = some t₁)
    (hrun₂ : exec (step ofText sha256) { rows := rows₂ } as₂ = some t₂) :
    t₁.publishedFor tenantId = t₂.publishedFor tenantId := by
  have hview : view tenantId keys { rows := rows₁ } = view tenantId keys { rows := rows₂ } := by
    simp [view, hrows, Worker.publishedFor]
  have hend := view_eq_of_obs_eq step_hidden step_seen step_labelled (init_labelled rows₁)
    (init_labelled rows₂) hview hseen h₁ h₂ hrun₁ hrun₂
  exact congrArg Own.published hend

def cpuUsage : String := "host.cpu.usage_percent"

def busyRule (tenantId metric : String) : AlertRule :=
  { tenantId
    eventType := "host.busy"
    severity := "high"
    conditionJson := .object
      [("metric", .string metric), ("threshold", .number (.finite 50)),
       ("consecutive_samples", .number (.finite 1))] }

def busySample (metric resourceId : String) : Sample :=
  { metric, resourceId, observedAt := "2024-01-01T00:00:00Z", value := .finite 60 }

/-- A job of one sample from its start to its end. -/
def busyJob (tenantId metric resourceId : String) : List Action :=
  .take tenantId 0 [busySample metric resourceId] ::
    List.replicate 5 (.turn tenantId 0 true 1000000)

/-- The same job, which finds the cache too old once its sample is inserted. -/
def loadingJob (tenantId metric resourceId : String) : List Action :=
  (busyJob tenantId metric resourceId).insertIdx 2 (.query tenantId 0 1000000)

/-- Tenant a's event is the same with and without a tenant b whose job filled the cache. -/
theorem own_rule_fires : ∃ t₁ t₂,
    exec (step (fun _ => .nan) id) { rows := [busyRule "b" "host.disk", busyRule "a" cpuUsage] }
      (loadingJob "b" "host.disk" "host_2" ++ busyJob "a" cpuUsage "host_1") = some t₁ ∧
    exec (step (fun _ => .nan) id) { rows := [busyRule "a" cpuUsage] }
      (loadingJob "a" cpuUsage "host_1") = some t₂ ∧
    (t₁.publishedFor "a").length = 1 ∧ t₁.publishedFor "a" = t₂.publishedFor "a" := by
  have hshared : Meets (step (fun _ => .nan) id)
      (Apart (fun _ => .nan) "a" (· = "host.busy:host_1"))
      { rows := [busyRule "b" "host.disk", busyRule "a" cpuUsage] }
      (loadingJob "b" "host.disk" "host_2" ++ busyJob "a" cpuUsage "host_1") := by decide
  have halone : Meets (step (fun _ => .nan) id)
      (Apart (fun _ => .nan) "a" (· = "host.busy:host_1"))
      { rows := [busyRule "a" cpuUsage] } (loadingJob "a" cpuUsage "host_1") := by decide
  refine ⟨_, _, rfl, rfl, by decide, ?_⟩
  exact published_eq_of_apart (by rfl) (by rfl) hshared halone rfl rfl

/-- The default rule waits for six samples; a rule of tenant b takes its place for tenant a. -/
theorem foreign_rule_fires : ¬ TenantBlind (fun _ => .nan) id "a" := by
  intro h
  have hwith : ∃ t, exec (step (fun _ => .nan) id) { rows := [busyRule "b" cpuUsage] }
      (loadingJob "a" cpuUsage "host_1") = some t ∧
        t.Idle "a" ∧ (t.publishedFor "a").length = 1 := by
    refine ⟨_, rfl, ?_, by decide⟩
    intro k job hj
    by_cases hk : k = 0
    · subst hk
      cases hj
      exact .inl rfl
    · simp [Worker.setPc, Worker.setCount, hk] at hj
  have hwithout : ∃ t, exec (step (fun _ => .nan) id) {}
      (loadingJob "a" cpuUsage "host_1") = some t ∧
        t.Idle "a" ∧ (t.publishedFor "a").length = 0 := by
    refine ⟨_, rfl, ?_, by decide⟩
    intro k job hj
    by_cases hk : k = 0
    · subst hk
      cases hj
      exact .inl rfl
    · simp [Worker.setPc, Worker.setCount, hk] at hj
  obtain ⟨t₁, hrun₁, hidle₁, hlen₁⟩ := hwith
  obtain ⟨t₂, hrun₂, hidle₂, hlen₂⟩ := hwithout
  rw [h _ [] _ _ t₁ t₂ (by rfl) rfl hrun₁ hrun₂ hidle₁ hidle₂, hlen₂] at hlen₁
  contradiction

end WaOps.Rules
