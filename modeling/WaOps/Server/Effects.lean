import WaOps.Server.Pipeline

namespace WaOps.Server
open Lib Lib.Jwt Lib.Scoped
open Auth (Claims Session)
open RateLimit (FailureMode)

section
variable {s : State} {jwt : JwtService Claims} {mode : FailureMode}

/-- A limiter touches its buckets only. -/
theorem limit_frame (mode : FailureMode) (s : State) (options : RateLimit.RateLimitOptions)
    (principal : RateLimit.Principal) (now : Int) :
    ∃ buckets decided, (s.limit mode options principal now).2 = { s with buckets, decided } := by
  unfold State.limit
  dsimp only
  split
  · exact ⟨_, _, rfl⟩
  · exact ⟨s.buckets, s.decided, rfl⟩

/-- What the script does to a bucket. -/
def spend (s : State) (options : RateLimit.RateLimitOptions) (bucket : String) (now : Int) :
    RateLimit.Answer × RateLimit.Key :=
  RateLimit.tokenBucket options.capacity (options.capacity / options.windowMs) now 1
    (s.buckets bucket)

/-- With Redis up a limiter decides by the principal's bucket and changes no other. -/
theorem limit_up (mode : FailureMode) (options : RateLimit.RateLimitOptions)
    (principal : RateLimit.Principal) (now : Int) (h : s.redisUp = true) :
    let bucket := RateLimit.bucketKey options principal
    let answer := (spend s options bucket now).1
    let limit := s.limit mode options principal now
    limit.1.headers = some
        (RateLimit.headersOf options.capacity answer.allowed answer.remaining answer.ttlMs) ∧
      limit.1.error =
        (if answer.allowed then none else some (RateLimit.rateLimited options answer.ttlMs)) ∧
      limit.2 = { s with
        buckets := Function.update s.buckets bucket (some (spend s options bucket now).2)
        decided := s.decided ++ [(bucket, (now : ℚ), answer.allowed)] } := by
  simp only [State.limit, State.redis, h, if_true, RateLimit.use, RateLimit.respond, spend]
  refine ⟨trivial, rfl, ?_⟩
  congr 1
  · funext k
    simp only [Function.update_apply]
  · congr 2
    split <;> simp_all

/-- Without Redis a limiter changes nothing and lets the request through, or fails it. -/
theorem limit_down {options : RateLimit.RateLimitOptions} {principal : RateLimit.Principal}
    {now : Int} (h : s.redisUp = false) :
    s.limit mode options principal now =
      (RateLimit.use options mode .unavailable principal now, s) := by
  simp only [State.limit, State.redis, h, Bool.false_eq_true, if_false]
  cases mode <;> rfl

theorem canActivate_ok {required : String} {auth : Option Authenticated} {a : Authenticated}
    (h : PermissionsGuard.canActivate required auth = .ok a) :
    auth = some a ∧ required ∈ a.2.permissions := by
  cases auth with
  | none => cases h
  | some auth =>
    simp only [PermissionsGuard.canActivate] at h
    split at h
    · rename_i hpermitted
      cases h
      exact ⟨rfl, hpermitted⟩
    · cases h

variable (jwt mode)

/-- A tenant route is refused and changes no row, or the guard has let its handler run. -/
theorem serve_cases (s : State) (http : Http) (env : Api.Env) (request : Api.Request)
    (outage : Option Api.Outage) (now : Int) : ∃ buckets decided,
      ((s.serve jwt mode http env request outage now).2 = { s with buckets, decided } ∧
        ∃ refusal, (s.serve jwt mode http env request outage now).1.result = .error refusal) ∨
      ∃ auth, http.authenticated jwt now = some auth ∧
        requiredPermission request ∈ auth.2.permissions ∧
        (s.serve jwt mode http env request outage now).2 =
          { s with
            buckets, decided
            store := (Api.respondIn { env with now } (callerOf auth http.requestId) outage request
              s.store).2 } ∧
          (s.serve jwt mode http env request outage now).1.result =
            (Api.respondIn { env with now } (callerOf auth http.requestId) outage request
              s.store).1.mapError .failed := by
  unfold State.serve
  obtain ⟨buckets, decided, hlimit⟩ := limit_frame mode s apiLimit
    (http.principal jwt now) now
  refine ⟨buckets, decided, ?_⟩
  dsimp only
  split
  · exact .inl ⟨hlimit, _, rfl⟩
  · cases hauth : http.authenticated jwt now with
    | none => exact .inl ⟨hlimit, _, rfl⟩
    | some auth =>
      simp only [PermissionsGuard.canActivate]
      by_cases hpermitted : requiredPermission request ∈ auth.2.permissions
      · rw [if_pos hpermitted, hlimit]
        exact .inr ⟨auth, rfl, hpermitted, rfl, rfl⟩
      · rw [if_neg hpermitted]
        exact .inl ⟨hlimit, _, rfl⟩

/-- Besides the limiter's turn a tenant route changes rows only. -/
theorem serve_limited (s : State) (http : Http) (env : Api.Env) (request : Api.Request)
    (outage : Option Api.Outage) (now : Int) :
    ∃ store, (s.serve jwt mode http env request outage now).2 =
      { (s.limit mode apiLimit (http.principal jwt now) now).2 with store } := by
  unfold State.serve
  dsimp only
  split
  · exact ⟨_, rfl⟩
  · split <;> exact ⟨_, rfl⟩

theorem serve_requestId (s : State) (http : Http) (env : Api.Env) (request : Api.Request)
    (outage : Option Api.Outage) (now : Int) :
    (s.serve jwt mode http env request outage now).1.requestId = http.requestId := by
  unfold State.serve
  dsimp only
  split
  · rfl
  · split <;> rfl

theorem serve_exchanges (s : State) (http : Http) (env : Api.Env) (request : Api.Request)
    (outage : Option Api.Outage) (now : Int) :
    (s.serve jwt mode http env request outage now).2.exchanges = s.exchanges := by
  obtain ⟨buckets, decided, ⟨hstore, -⟩ | ⟨auth, -, -, hstore, -⟩⟩ :=
    serve_cases jwt mode s http env request outage now
  all_goals rw [hstore]

variable {jwt mode}

/-- The exchange a request leaves on record. -/
def exchangeOf (jwt : JwtService Claims) (mode : FailureMode) (s : State) (http : Http)
    (env : Api.Env) (request : Api.Request) (outage : Option Api.Outage) (now : Int) : Exchange :=
  { auth := http.authenticated jwt now
    request
    outage
    now
    reply := (s.serve jwt mode http env request outage now).1 }

theorem step_request {t : State} {http : Http} {env : Api.Env} {request : Api.Request}
    {outage : Option Api.Outage} {now : Int} :
    step jwt mode s ⟨now, .request http env request outage⟩ = some t ↔
      t = { (s.serve jwt mode http env request outage now).2 with
            now
            exchanges := s.exchanges ++ [exchangeOf jwt mode s http env request outage now] } := by
  rw [← serve_exchanges jwt mode s http env request outage now]
  exact ⟨fun h => (Option.some.inj h).symm, fun h => congrArg some h.symm⟩

theorem issue_frame (s : State) (now : Int) (result : Except Api.Failure Session × Auth.Store) :
    ∃ issued, s.issue now result = { s with accounts := result.2, issued } := by
  obtain ⟨e | session, accounts⟩ := result <;> exact ⟨_, rfl⟩

end

end WaOps.Server
