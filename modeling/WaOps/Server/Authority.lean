import WaOps.Auth.Renewal
import WaOps.Server.Effects

namespace WaOps.Server
open Lib Lib.Jwt Lib.Runs Lib.Scoped Lib.Tables
open Auth (Claims Issued Session TokenConfig)
open RateLimit (FailureMode)

/-- The membership's role has the permission or, as the sessions are opened, is the shared role of
a tenant's owner and this the owner's permission; or the role is gone. -/
def Holds (s : Auth.Store) (m : Auth.Membership) (permission : String) : Prop :=
  match Auth.roleRow s m with
  | some role => permission ∈ role.permissions ∨
      role.tenantId = none ∧ role.name = "tenant_owner" ∧ permission ∈ Auth.tenantOwnerPermissions
  | none => permission ∈ Auth.permissionKeysV1

section
variable {env : Auth.Env} {body : Option Js.Json} {s t u : Auth.Store} {session : Session}
  {α : Type} {i : Auth.TableName}

end

/-- The Authorization header of a client. -/
def bearer (jwt : JwtService Claims) (cfg : TokenConfig) (i : Issued) : String :=
  "Bearer " ++ i.token jwt cfg

def State.knows (jwt : JwtService Claims) (cfg : TokenConfig) (s : State) (token : String) : Prop :=
  ∃ i ∈ s.issued, i.token jwt cfg = token

section
variable {jwt : JwtService Claims} {cfg : TokenConfig} {mode : FailureMode} {s t : State}
  {a : Action} {as : List Action}

end

def noRows : Api.Store := fun i => { rows := [], unique := Api.noRows_unique i }

def freshServer : State :=
  { accounts := Auth.seededStore, store := noRows, redisUp := false }

/-- The first account signs up, while the limiter's Redis is down. -/
def signsUp : Action :=
  ⟨0, .auth {} Auth.plainEnv (.signup Auth.signupBody) false⟩

end WaOps.Server
