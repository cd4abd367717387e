import WaOps.Server.Effects

namespace WaOps.Server
open Lib Lib.Jwt
open Api (isShown)
open Auth (Claims)
open RateLimit (FailureMode)

def Refusal.code : Refusal → String
  | .limited error => error.code
  | .failed error => error.code

def Refusal.message : Refusal → String
  | .limited error => error.message
  | .failed error => error.message

def Refusal.status : Refusal → Nat
  | .limited error => error.status
  | .failed error => error.status

section
variable {jwt : JwtService Claims} {mode : FailureMode} {s : State} {refusal : Refusal}

theorem limit_shown {options : RateLimit.RateLimitOptions} {principal : RateLimit.Principal}
    {now : Int} {e : RateLimit.ApiError}
    (h : (s.limit mode options principal now).1.error = some e) : isShown e.status := by
  have hrespond : ∀ {allowed remaining resetMs left},
      (RateLimit.respond options allowed remaining resetMs left).error = some e →
      isShown e.status := by
    intro allowed remaining resetMs left he
    cases allowed with
    | true => cases he
    | false =>
      cases he
      exact show isShown 429 by decide
  have huse : (RateLimit.use options mode s.redis principal now).error = some e := by
    unfold State.limit at h
    dsimp only at h
    split at h <;> exact h
  cases hredis : s.redis with
  | absent =>
    rw [hredis] at huse
    exact hrespond huse
  | reachable buckets =>
    rw [hredis] at huse
    exact hrespond huse
  | unavailable =>
    rw [hredis] at huse
    cases mode with
    | failClosed =>
      cases huse
      exact show isShown 503 by decide
    | failOpen => exact hrespond huse

theorem respond_refusal {env : Api.Env} {ctx : Api.Caller} {outage : Option Api.Outage}
    {request : Api.Request} {store : Api.Store}
    (h : (Api.respondIn env ctx outage request store).1.mapError Refusal.failed =
      .error refusal) : isShown refusal.status := by
  cases hresult : (Api.respondIn env ctx outage request store).1 with
  | error e =>
    rw [hresult] at h
    cases h
    exact Api.respondIn_shown hresult
  | ok a =>
    rw [hresult] at h
    cases h

/-- A refusal has an error status, and a 401 is the guard's answer to a request without a user. -/
theorem serve_refusal {http : Http} {env : Api.Env} {request : Api.Request}
    {outage : Option Api.Outage} {now : Int}
    (h : (s.serve jwt mode http env request outage now).1.result = .error refusal) :
    400 ≤ refusal.status ∧ (refusal.status = 401 →
      refusal = .failed authenticationRequired ∧ http.authenticated jwt now = none) := by
  have hshown : ∀ {status : Nat} {p : Prop}, isShown status → 400 ≤ status ∧ (status = 401 → p) :=
    fun hs => ⟨hs.1, fun h401 => absurd h401 hs.2⟩
  unfold State.serve at h
  dsimp only at h
  split at h
  · rename_i e hlimited
    cases h
    exact hshown (limit_shown hlimited)
  · cases hauth : http.authenticated jwt now with
    | none =>
      rw [hauth] at h
      cases h
      exact ⟨show 400 ≤ 401 by decide, fun _ => ⟨rfl, rfl⟩⟩
    | some auth =>
      rw [hauth, PermissionsGuard.canActivate] at h
      by_cases hpermitted : requiredPermission request ∈ auth.2.permissions
      · rw [if_pos hpermitted] at h
        exact hshown (respond_refusal h)
      · rw [if_neg hpermitted] at h
        cases h
        exact hshown (show isShown 403 by decide)

end

end WaOps.Server
