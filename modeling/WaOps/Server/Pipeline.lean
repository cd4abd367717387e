import WaOps.Api.Outages
import WaOps.Auth.Separation
import WaOps.RateLimit.Retry

namespace WaOps.Server
open Lib Lib.Jwt Lib.Scoped Lib.Tables
open Auth (Claims Issued Session)
open Api (Answer Caller)
open RateLimit (RateLimitOptions FailureMode Principal Redis Headers)

/-- What the middleware reads of a request, and the uuid it draws where it needs one. -/
structure Http where
  authorization : Option String := none
  xRequestId : Option String := none
  ip : Option String := none
  randomUuid : String := ""

/-- A character of `[\w-]`. -/
def isIdChar (c : Char) : Bool :=
  c.isAlphanum || c == '_' || c == '-'

def getOrCreateRequestId (incoming : Option String) (randomUuid : String) : String :=
  match incoming with
  | some first =>
    if 8 ≤ first.toList.length ∧ first.toList.length ≤ 64 ∧ first.toList.all isIdChar then first
    else "req_" ++ randomUuid
  | none => "req_" ++ randomUuid

/-- RATE_LIMIT_PRESETS.auth -/
def authLimit : RateLimitOptions :=
  { routeClass := "auth"
    capacity := 10
    windowMs := 60000
    message := some "too many auth attempts" }

/-- RATE_LIMIT_PRESETS.api -/
def apiLimit : RateLimitOptions :=
  { routeClass := "api"
    capacity := 120
    windowMs := 60000
    message := some "too many requests" }

/-- The permission that the route's RequirePermission names. -/
def requiredPermission : Api.Request → String
  | .listHosts | .getHost _ => "hosts.read"
  | .createHost _ => "hosts.manage"
  | .listIncidents | .getIncident _ | .incidentTimeline _ => "incidents.read"
  | .acknowledgeIncident _ _ => "incidents.ack"
  | .resolveIncident _ _ | .reopenIncident _ => "incidents.resolve"
  | .metrics _ _ | .containers _ | .filesystems _ | .longMetrics _ _ => "hosts.read"
  | .listAgents => "agents.read"
  | .createToken _ => "agents.enroll"
  | .revokeAgent _ => "agents.revoke"
  | .listTickets | .getTicket _ => "tickets.read"
  | .createTicket _ | .patchTicket _ _ | .commentTicket _ _ => "tickets.create"
  | .assignTicket _ _ => "tickets.assign"
  | .transitionTicket _ _ => "tickets.resolve"

/-- `req.auth` and the tenant context, which are set together. -/
abbrev Authenticated : Type := Claims × Auth.TenantContext

def authenticationRequired : Api.ApiError :=
  { code := "authentication_required", message := "authentication required", status := 401 }

def permissionDenied : Api.ApiError :=
  { code := "permission_denied", message := "Permission denied", status := 403 }

/-- What the handler runs as, where the guard lets the request through. -/
def PermissionsGuard.canActivate (required : String) :
    Option Authenticated → Except Api.ApiError Authenticated
  | none => .error authenticationRequired
  | some auth => if required ∈ auth.2.permissions then .ok auth else .error permissionDenied

def callerOf (auth : Authenticated) (requestId : String) : Caller :=
  { userId := auth.2.userId
    tenantId := auth.2.tenantId
    organizationScope := auth.2.organizationScope.join
    actorType := auth.2.actorType
    sub := some auth.1.sub
    requestId := some requestId }

/-- What is thrown before the handler or by it. -/
inductive Refusal where
  | limited (error : RateLimit.ApiError)
  | failed (error : Api.ApiError)

structure Reply where
  requestId : String
  headers : Option Headers
  result : Except Refusal Answer

/-- A request on a tenant route and what came of it. -/
structure Exchange where
  auth : Option Authenticated
  request : Api.Request
  outage : Option Api.Outage
  now : Int
  reply : Reply

structure State where
  /-- When the last action was taken. -/
  now : Int := 0
  accounts : Auth.Store
  store : Api.Store
  /-- The hashes of the limiter's script in Redis. -/
  buckets : String → Option RateLimit.Key := fun _ => none
  redisUp : Bool := true
  issued : List Issued := []
  /-- Each decision of the script: the bucket, the time and whether it allowed the request. -/
  decided : List (String × ℚ × Bool) := []
  /-- When the handler of an auth route ran, and for which principal. -/
  attempts : List (String × ℚ) := []
  exchanges : List Exchange := []

inductive Operation where
  | signup (body : Option Js.Json)
  | login (body : Option Js.Json)
  | refresh (cookie : Option String)

inductive Act where
  /-- Whatever else writes the accounts. -/
  | editAccounts (accounts : Auth.Store)
  /-- The gateway or a worker writes rows of one tenant. -/
  | change (owner : String) (store : Api.Store)
  | redis (up : Bool)
  /-- Redis drops a bucket at or after its deadline. -/
  | expire (bucket : String)
  /-- A statement of the handler may fail. -/
  | auth (http : Http) (env : Auth.Env) (operation : Operation) (failing : Bool)
  | request (http : Http) (env : Api.Env) (request : Api.Request) (outage : Option Api.Outage)

structure Action where
  now : Int
  act : Act

section
variable (jwt : JwtService Claims) (mode : FailureMode)

def Http.authenticated (http : Http) (now : Int) : Option Authenticated :=
  Auth.TenantContextMiddleware.use jwt http.authorization now

def Http.principal (http : Http) (now : Int) : Principal :=
  { tenantId := (http.authenticated jwt now).map (fun auth => auth.2.tenantId), ip := http.ip }

def principalText (principal : Principal) : String :=
  (principal.tenantId.orElse fun _ => principal.ip).getD "anonymous"

def State.redis (s : State) : Redis :=
  if s.redisUp then .reachable s.buckets else .unavailable

/-- The id the correlation middleware gives the request. -/
def Http.requestId (http : Http) : String :=
  getOrCreateRequestId http.xRequestId http.randomUuid

/-- One limiter's turn. -/
def State.limit (s : State) (options : RateLimitOptions) (principal : Principal) (now : Int) :
    RateLimit.Response × State :=
  let response := RateLimit.use options mode s.redis principal now
  match response.redis with
  | .reachable buckets =>
    let decision := (RateLimit.bucketKey options principal, (now : ℚ), response.error.isNone)
    (response, { s with buckets, decided := s.decided ++ [decision] })
  | _ => (response, s)

/-- A tenant route, behind the middleware and the guard. -/
def State.serve (s : State) (http : Http) (env : Api.Env) (request : Api.Request)
    (outage : Option Api.Outage) (now : Int) : Reply × State :=
  let requestId := http.requestId
  let auth := http.authenticated jwt now
  let (limit, s) := s.limit mode apiLimit (http.principal jwt now) now
  let refuse (refusal : Refusal) : Reply :=
    { requestId, headers := limit.headers, result := .error refusal }
  match limit.error with
  | some error => (refuse (.limited error), s)
  | none =>
    match PermissionsGuard.canActivate (requiredPermission request) auth with
    | .error error => (refuse (.failed error), s)
    | .ok auth =>
      let (result, store) :=
        Api.respondIn { env with now } (callerOf auth requestId) outage request s.store
      ({ requestId, headers := limit.headers, result := result.mapError .failed },
        { s with store })

def Operation.run (operation : Operation) (env : Auth.Env) : Auth.Handler Session :=
  match operation with
  | .signup body => Auth.AuthController.signup env body
  | .login body => Auth.AuthController.login env body
  | .refresh cookie => Auth.AuthController.refresh env jwt cookie

/-- The handler of an auth route. Its writes are one transaction, and its last statement. -/
def Operation.ended (operation : Operation) (env : Auth.Env) (failing : Bool)
    (accounts : Auth.Store) : Except Api.Failure Session × Auth.Store :=
  if failing then (.error .internal, accounts) else outcome (operation.run jwt env) accounts

/-- The two tokens of a session that was opened. -/
def State.issue (s : State) (now : Int) : Except Api.Failure Session × Auth.Store → State
  | (.ok session, accounts) =>
    { s with
      accounts
      issued := s.issued ++ [.access session.access now, .refresh session.refresh now] }
  | (.error _, accounts) => { s with accounts }

/-- A public route, which both limiters guard. -/
def State.enter (s : State) (http : Http) (env : Auth.Env) (operation : Operation)
    (failing : Bool) (now : Int) : State :=
  let principal := http.principal jwt now
  let (first, s) := s.limit mode authLimit principal now
  match first.error with
  | some _ => s
  | none =>
    let (second, s) := s.limit mode apiLimit principal now
    match second.error with
    | some _ => s
    | none =>
      let s := { s with attempts := s.attempts ++ [(principalText principal, (now : ℚ))] }
      s.issue now (operation.ended jwt { env with now } failing s.accounts)

def step (s : State) (a : Action) : Option State :=
  match a.act with
  | .editAccounts accounts => some { s with now := a.now, accounts }
  | .change _ store => some { s with now := a.now, store }
  | .redis up => some { s with now := a.now, redisUp := up }
  | .expire bucket =>
    match s.buckets bucket with
    | some key =>
      if key.expireAt ≤ a.now then
        some { s with now := a.now, buckets := Function.update s.buckets bucket none }
      else none
    | none => none
  | .auth http env operation failing =>
    some { s.enter jwt mode http env operation failing a.now with now := a.now }
  | .request http env request outage =>
    let (reply, t) := s.serve jwt mode http env request outage a.now
    let exchange : Exchange :=
      { auth := http.authenticated jwt a.now, request, outage, now := a.now, reply }
    some { t with now := a.now, exchanges := t.exchanges ++ [exchange] }

end

end WaOps.Server
