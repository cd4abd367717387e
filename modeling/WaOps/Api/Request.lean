import WaOps.Api.Schemas
import WaOps.Lib.Sorting

namespace WaOps.Api
open Lib Lib.Scoped Lib.Zod

/-- What a request gets from outside the store; its clock stands still. -/
structure Env where
  now : Int
  /-- The id the database client generates for the row a request adds to a table. -/
  newId : TableName → String
  /-- `randomBytes(24).toString('hex')` -/
  randomHex : String
  sha256 : String → String
  /-- A text as a value of a uuid column; none where the database client refuses it. -/
  parseUuid : String → Option String
  ofText : Js.Json → Js.Number
  /-- Whether metric_samples_5m exists. -/
  rollupAvailable : Bool
  /-- Whether the database reads the text that `toISOString` gives for an instant. -/
  readsInstant : Int → Bool := fun _ => true

structure TenantContext where
  userId : String
  tenantId : String
  organizationScope : Option String
  actorType : String := "user"

/-- The tenant context with the token's subject and the correlation's request id. -/
structure Caller extends TenantContext where
  sub : Option String
  requestId : Option String

inductive ErrorDetails where
  | issues (issues : List Issue)
  | quota (metric : String) (limit : Nat)
  deriving DecidableEq, Repr

structure ApiError where
  code : String
  message : String
  status : Nat
  details : Option ErrorDetails := none
  deriving DecidableEq, Repr

def ApiError.notFound (what : String) : ApiError :=
  { code := "not_found", message := what ++ " not found", status := 404 }

def ApiError.validation (message : String) (details : Option ErrorDetails) : ApiError :=
  { code := "validation_error", message, status := 400, details }

def ApiError.conflict (message : String) : ApiError :=
  { code := "conflict", message, status := 409 }

def ApiError.quotaExceeded (metricKey : String) (limit : Nat) : ApiError :=
  { code := "quota_exceeded"
    message := "Quota exceeded: " ++ metricKey
    status := 402
    details := some (.quota metricKey limit) }

/-- What a handler throws: an ApiError, a ZodError or anything else. -/
inductive Failure where
  | api (error : ApiError)
  | zod (issues : List Issue)
  | internal
  deriving DecidableEq, Repr

/-- The error envelope of GlobalExceptionFilter. -/
def Failure.envelope : Failure → ApiError
  | .api error => error
  | .zod issues =>
    { code := "validation_error"
      message := "Validation failed"
      status := 400
      details := some (.issues issues) }
  | .internal => { code := "internal_error", message := "Internal server error", status := 500 }

abbrev Store : Type := Tables.Store schema

abbrev Handler (α : Type) := Comp Store Failure α

def Prisma.findMany (i : TableName) (p : i.Row → Bool) : Handler (List i.Row) :=
  Tables.findMany i p

def Prisma.findFirst (i : TableName) (p : i.Row → Bool) : Handler (Option i.Row) :=
  Tables.findFirst i p

def Prisma.create (i : TableName) (r : i.Row) : Handler i.Row :=
  Tables.create .internal i r

def Prisma.update (i : TableName) (k : i.Key) (f : i.Row → i.Row)
    (hf : ∀ r, i.key (f r) = i.key r := by intro; rfl) : Handler i.Row :=
  Tables.update .internal i k f hf

def parse {α : Type} : Parsed α → Handler α
  | .ok a => pure a
  | .error issues => throw (.zod issues)

/-- `if (bad) throw failure;` -/
def throwIf (bad : Prop) [Decidable bad] (failure : Failure) : Handler Unit :=
  if bad then throw failure else pure ()

variable (env : Env) (ctx : Caller)

def uuidOf (text : String) : Handler String :=
  match env.parseUuid text with
  | some id => pure id
  | none => throw .internal

/-- `findFirst` by an id the client gave, or not found. -/
def findOrNotFound (i : TableName) (what text : String) (p : String → i.Row → Bool) :
    Handler i.Row := do
  let id ← uuidOf env text
  let found ← Prisma.findFirst i (p id)
  match found with
  | some r => pure r
  | none => throw (.api (.notFound what))

def AuditService.record (action resourceType resourceId : String)
    (beforeData afterData : Option AuditData) : Handler Unit := do
  let _ ← Prisma.create .auditLogs
    { id := env.newId .auditLogs
      tenantId := some ctx.tenantId
      actorType := ctx.actorType
      actorId := some (ctx.sub.getD ctx.userId)
      action
      resourceType
      resourceId := some resourceId
      beforeData
      afterData
      requestId := ctx.requestId
      createdAt := env.now }

end WaOps.Api
