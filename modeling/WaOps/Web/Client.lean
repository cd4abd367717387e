import WaOps.Server.Accountability
import WaOps.Server.Refusals

namespace WaOps.Web
open Lib Lib.Js Lib.Jwt
open Api (Answer)
open Auth (Claims)
open RateLimit (FailureMode)
open Server (Exchange Refusal)

/-- What fetch resolves with. -/
structure Response where
  status : Nat
  statusText : String
  /-- `headers.get('x-access-token')` -/
  accessToken : Option String
  /-- None where `json()` rejects. -/
  body : Option Json

def Response.ok (r : Response) : Bool := 200 ≤ r.status && r.status ≤ 299

/-- The client's ApiError. -/
structure ApiError where
  code : Json
  message : Json
  status : Nat

inductive Outcome where
  | resolved (body : Json)
  | rejected (error : ApiError)
  /-- fetch rejects, or there is no reading the body of an error. -/
  | threw

/-- The end of `api`, once it has the body. -/
def settle (r : Response) : Outcome :=
  let body := r.body.getD (.object [])
  if r.ok then .resolved body
  else
    match body with
    | .null => .threw
    | body =>
      let part (key : String) := (body.field "error").bind (Json.field key)
      .rejected
        { code := nullish (part "code") (.string "internal_error")
          message := nullish (part "message") (.string r.statusText)
          status := r.status }

/-- `...(accessToken ? { authorization: Bearer accessToken } : {})` -/
def authorization (accessToken : Option String) : Option String :=
  (accessToken.filter (· ≠ "")).map ("Bearer " ++ ·)

/-- How the server writes out what it answers. -/
structure Wire where
  answer : Answer → Option Json
  details : Refusal → Option Json
  statusText : Nat → String

/-- The status of an answer: a POST's is 201. -/
def successStatus : Api.Request → Nat
  | .createHost _ | .acknowledgeIncident _ _ | .resolveIncident _ _ | .reopenIncident _
  | .createToken _ | .revokeAgent _ | .createTicket _ | .commentTicket _ _ | .assignTicket _ _
  | .transitionTicket _ _ => 201
  | _ => 200

section
variable (wire : Wire)

/-- GlobalExceptionFilter.catch -/
def exceptionResponse (requestId : String) (refusal : Refusal) : Response :=
  { status := refusal.status
    statusText := wire.statusText refusal.status
    accessToken := none
    body := some (.object [("error", .object (
      [("code", .string refusal.code), ("message", .string refusal.message),
        ("request_id", .string requestId)] ++
      (wire.details refusal).toList.map (fun details => ("details", details))))]) }

def respond (e : Exchange) : Response :=
  match e.reply.result with
  | .ok answer =>
    let status := successStatus e.request
    { status
      statusText := wire.statusText status
      accessToken := none
      body := wire.answer answer }
  | .error refusal => exceptionResponse wire e.reply.requestId refusal

end

/-- What a call awaits. -/
inductive Pc where
  /-- The request's answer. -/
  | sent (retry : Bool)
  /-- The same, with the answer on its way. -/
  | answered (retry : Bool) (r : Response)
  /-- The answer to `/auth/refresh`, where the request's was a 401. -/
  | refreshing (r : Response)
  /-- `refresh()` has returned. -/
  | refreshed (ok : Bool) (r : Response)
  /-- The rest of the body. -/
  | reading (r : Response)
  /-- Nothing more. History: whether the body came whole. -/
  | ended (outcome : Outcome) (whole : Bool)

/-- The path and the init of `api` as the route they name and its body. -/
structure Call where
  request : Api.Request
  pc : Pc

/-- A request on its way to the server. -/
structure Packet where
  call : Nat
  authorization : Option String
  request : Api.Request

/-- A request of a call that the server has answered, and the rows before and after. -/
structure Served where
  call : Nat
  exchange : Exchange
  before : Api.Store
  after : Api.Store

/-- A page may have any number of calls open, which share the access token. Between their awaits
the network, the server and the other calls take turns. -/
structure State where
  server : Server.State
  accessToken : Option String := none
  calls : List Call := []
  packets : List Packet := []
  served : List Served := []

inductive Action where
  | setAccessToken (accessToken : Option String)
  | call (request : Api.Request)
  /-- The server answers the n-th request that is on its way. -/
  | serve (n : Nat) (now : Int) (http : Server.Http) (env : Api.Env) (outage : Option Api.Outage)
  | arrive (i : Nat)
  /-- The fetch the call awaits rejects. -/
  | lose (i : Nat)
  /-- The refresh that the call awaits is answered. The server's part in it is its own action. -/
  | refresh (i : Nat) (r : Response)
  | resume (i : Nat)
  /-- The body is read, or lost on its way. -/
  | read (i : Nat) (whole : Bool)
  /-- Whatever else the server does, for other clients too. -/
  | server (a : Server.Action)

def State.setPc (s : State) (i : Nat) (call : Call) (pc : Pc) : State :=
  { s with calls := s.calls.set i { call with pc } }

def State.packet (s : State) (i : Nat) (request : Api.Request) : Packet :=
  { call := i, authorization := authorization s.accessToken, request }

/-- The server's answer goes back to its call, if that still waits. -/
def State.reply (s : State) (i : Nat) (r : Response) : State :=
  match s.calls[i]? with
  | some ⟨request, .sent retry⟩ => s.setPc i ⟨request, .sent retry⟩ (.answered retry r)
  | _ => s

/-- `refresh()`, once it has its answer. -/
def State.refreshed (s : State) (i : Nat) (call : Call) (first r : Response) : State :=
  if r.ok then
    { s with accessToken := r.accessToken }.setPc i call
      (.refreshed (!falsy (r.accessToken.map .string)) first)
  else s.setPc i call (.refreshed false first)

/-- The turn of one call. -/
def State.advance (s : State) (i : Nat) (call : Call) : Action → Option State
  | .arrive _ =>
    match call.pc with
    | .answered retry r =>
      some (s.setPc i call (if r.status = 401 ∧ retry then .refreshing r else .reading r))
    | _ => none
  | .lose _ =>
    match call.pc with
    | .sent _ | .answered _ _ | .refreshing _ => some (s.setPc i call (.ended .threw false))
    | _ => none
  | .refresh _ r =>
    match call.pc with
    | .refreshing first => some (s.refreshed i call first r)
    | _ => none
  | .resume _ =>
    match call.pc with
    | .refreshed true _ =>
      some { s.setPc i call (.sent false) with
             packets := s.packets ++ [s.packet i call.request] }
    | .refreshed false r => some (s.setPc i call (.reading r))
    | _ => none
  | .read _ whole =>
    match call.pc with
    | .reading r =>
      let r := if whole then r else { r with body := none }
      some (s.setPc i call (.ended (settle r) whole))
    | _ => none
  | _ => none

section
variable (jwt : JwtService Claims) (mode : FailureMode) (wire : Wire)

def step (s : State) (a : Action) : Option State :=
  match a with
  | .setAccessToken accessToken => some { s with accessToken }
  | .call request =>
    let i := s.calls.length
    some { s with
      calls := s.calls ++ [{ request, pc := .sent true }]
      packets := s.packets ++ [s.packet i request] }
  | .serve n now http env outage =>
    match s.packets[n]? with
    | none => none
    | some p =>
      let http := { http with authorization := p.authorization }
      let exchange := Server.exchangeOf jwt mode s.server http env p.request outage now
      (Server.step jwt mode s.server ⟨now, .request http env p.request outage⟩).map fun server =>
        let served : Served :=
          { call := p.call, exchange, before := s.server.store, after := server.store }
        { s with
          server
          packets := s.packets.eraseIdx n
          served := s.served ++ [served] }.reply p.call (respond wire exchange)
  | .server a => (Server.step jwt mode s.server a).map fun server => { s with server }
  | .arrive i | .lose i | .refresh i _ | .resume i | .read i _ =>
    match s.calls[i]? with
    | some call => s.advance i call a
    | none => none

end

end WaOps.Web
