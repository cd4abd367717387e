import WaOps.Api.Audit
import WaOps.Server.Authority

namespace WaOps.Server
open Lib Lib.Jwt Lib.Runs Lib.Scoped
open Api.Audit (Entry NewAuditId entriesOf trail)
open Auth (Claims)
open RateLimit (FailureMode)

/-- What an exchange is on record for. -/
def Exchange.entries (e : Exchange) : List Entry :=
  match e.auth, e.reply.result with
  | some auth, .ok answer =>
    entriesOf e.now (callerOf auth e.reply.requestId) e.request (.ok answer)
  | _, _ => []

/-- Nobody but the API writes the audit trail, and the ids it draws are new. -/
def Recorded (s : State) (a : Action) : Prop :=
  match a.act with
  | .change _ store => store .auditLogs = s.store .auditLogs
  | .request _ env _ _ => NewAuditId env s.store
  | _ => True

/-- A request that changes a row is on record, or the insert of its record failed. -/
def Accounted (jwt : JwtService Claims) (mode : FailureMode) (s : State) (a : Action) : Prop :=
  match a.act with
  | .request http env request outage =>
    (s.serve jwt mode http env request outage a.now).2.store ≠ s.store →
      outage = some .audit ∨ (exchangeOf jwt mode s http env request outage a.now).entries ≠ []
  | _ => True

section
variable {jwt : JwtService Claims} {mode : FailureMode} {s t : State} {a : Action}
  {as : List Action}

/-- A request adds its own entries to the trail, and has some where it changes a row, unless the
insert of its record fails. -/
theorem serve_recorded (jwt : JwtService Claims) (mode : FailureMode) (http : Http) {env : Api.Env}
    (request : Api.Request) (outage : Option Api.Outage) (now : Int)
    (hs : NewAuditId env s.store) :
    trail (s.serve jwt mode http env request outage now).2.store =
        trail s.store ++ (exchangeOf jwt mode s http env request outage now).entries ∧
      ((s.serve jwt mode http env request outage now).2.store ≠ s.store → outage = some .audit ∨
        (exchangeOf jwt mode s http env request outage now).entries ≠ []) := by
  obtain ⟨buckets, decided, ⟨hstore, refusal, hresult⟩ | ⟨auth, hauth, -, hstore, hresult⟩⟩ :=
    serve_cases jwt mode s http env request outage now
  · have hnone : (exchangeOf jwt mode s http env request outage now).entries = [] := by
      simp only [exchangeOf, Exchange.entries, hresult]
      split
      · rename_i hok
        cases hok
      · rfl
    rw [hstore, hnone]
    exact ⟨(List.append_nil _).symm, fun hchanged => absurd rfl hchanged⟩
  · have hrecords := Api.respondIn_records { env with now }
      (callerOf auth http.requestId) outage request hs
    have hentries : (exchangeOf jwt mode s http env request outage now).entries =
        entriesOf now (callerOf auth http.requestId) request
          (Api.respondIn { env with now } (callerOf auth http.requestId) outage request
            s.store).1 := by
      simp only [exchangeOf, Exchange.entries, hauth, hresult, serve_requestId]
      cases (Api.respondIn { env with now } (callerOf auth http.requestId) outage request
        s.store).1 <;> rfl
    rw [hstore, hentries]
    exact hrecords

end

end WaOps.Server
