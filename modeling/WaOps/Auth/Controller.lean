import WaOps.Api.Request
import WaOps.Auth.Tokens

namespace WaOps.Auth
open Lib Lib.Zod Lib.Scoped Lib.Tables Lib.Sorting Lib.Jwt
open Api (ApiError Failure)

structure User where
  id : String
  email : String
  emailNormalized : String
  passwordHash : String
  name : Option String

structure Tenant where
  id : String
  slug : String
  name : String
  trialEndsAt : Option Int

structure Membership where
  id : String
  tenantId : String
  organizationId : Option String := none
  userId : String
  roleId : String
  status : String := "active"
  createdAt : Int
  deriving DecidableEq, Repr

/-- A role with the keys of its permissions. -/
structure Role where
  id : String
  tenantId : Option String
  name : String
  isSystem : Bool := false
  permissions : List String
  deriving DecidableEq, Repr

inductive TableName where
  | users | tenants | memberships | roles
  deriving DecidableEq, Repr

@[reducible] def TableName.Row : TableName → Type
  | .users => User
  | .tenants => Tenant
  | .memberships => Membership
  | .roles => Role

def TableName.key : (i : TableName) → i.Row → String
  | .users, r => r.id
  | .tenants, r => r.id
  | .memberships, r => r.id
  | .roles, r => r.id

def TableName.tenantId : (i : TableName) → i.Row → Option String
  | .users, _ => none
  | .tenants, r => some r.id
  | .memberships, r => some r.tenantId
  | .roles, r => r.tenantId

@[reducible] def schema : Schema TableName String where
  Row := TableName.Row
  Key _ := String
  key := @TableName.key
  owner := @TableName.tenantId

abbrev Store : Type := Tables.Store schema

abbrev Handler (α : Type) := Comp Store Failure α

def Prisma.findMany (i : TableName) (p : i.Row → Bool) : Handler (List i.Row) :=
  Tables.findMany i p

def Prisma.findFirst (i : TableName) (p : i.Row → Bool) : Handler (Option i.Row) :=
  Tables.findFirst i p

def Prisma.create (i : TableName) (r : i.Row) : Handler i.Row :=
  Tables.create .internal i r

/-- The row the database returns where a query leaves the order open. -/
structure AnyRow (α : Type) where
  pick : List α → Option α
  mem : ∀ {l a}, pick l = some a → a ∈ l
  none : ∀ {l}, pick l = none → l = []

def firstRow (α : Type) : AnyRow α where
  pick := List.head?
  mem := List.mem_of_head?
  none := List.head?_eq_none_iff.mp

/-- What a request gets from outside: the clock, what is drawn at random, argon2, the email
check, and which row an unordered query returns. -/
structure Env where
  now : Int
  newId : TableName → String
  /-- `Math.random().toString(36).slice(2, 7)` -/
  random : String
  accessJti : String
  refreshJti : String
  isEmail : String → Bool
  /-- `text.toLowerCase()` -/
  lower : String → String
  hash : String → String
  /-- False where it throws. -/
  verify : String → String → Bool
  anyMembership : AnyRow Membership
  trialDays : Int

structure SignupBody where
  email : String
  password : String
  name : Option String
  tenantName : Option String

structure LoginBody where
  email : String
  password : String

def permissionKeysV1 : List String :=
  ["tenants.read", "tenants.manage", "users.read", "users.manage", "roles.read", "roles.manage",
    "billing.read", "billing.manage", "agents.read", "agents.enroll", "agents.revoke",
    "hosts.read", "hosts.manage", "monitors.read", "monitors.manage", "incidents.read",
    "incidents.ack", "incidents.resolve", "tickets.read", "tickets.create", "tickets.assign",
    "tickets.resolve", "knowledge.read", "knowledge.edit", "knowledge.publish",
    "databases.read", "databases.manage", "contracts.read", "contracts.manage", "backups.read",
    "backups.manage", "notifications.read", "notifications.manage", "integrations.read",
    "integrations.manage", "secrets.manage", "ai.use", "ai.configure"]

/-- ROLE_PERMISSIONS.tenant_owner -/
def tenantOwnerPermissions : List String :=
  permissionKeysV1.filter (· ≠ "tenants.manage")

/-- Runs of other characters become one dash each. -/
def dashes : Bool → List Char → List Char
  | _, [] => []
  | inRun, c :: cs =>
    if ('a' ≤ c ∧ c ≤ 'z') ∨ ('0' ≤ c ∧ c ≤ '9') then c :: dashes false cs
    else if inRun then dashes true cs
    else '-' :: dashes true cs

def slugify (lower : String → String) (input : String) : String :=
  let text := (dashes false (lower input).toList).dropWhile (· = '-')
  let slug := ((text.reverse.dropWhile (· = '-')).reverse.take 40)
  if slug = [] then "tenant" else String.ofList slug

section
variable (env : Env)

def SignupSchema (body : Option Js.Json) : Parsed SignupBody :=
  object body fun v =>
    (field v "email" (email env.isEmail)).map SignupBody.mk
      |>.ap (field v "password" (string 10 128))
      |>.ap (field v "name" (optional (string 1 120)))
      |>.ap (field v "tenantName" (optional (string 2 120)))

def LoginSchema (body : Option Js.Json) : Parsed LoginBody :=
  object body fun v =>
    (field v "email" (email env.isEmail)).map LoginBody.mk
      |>.ap (field v "password" (stringFrom 1))

def normalize (email : String) : String :=
  String.ofList (Js.trim (env.lower email).toList)

def parse {α : Type} : Parsed α → Handler α
  | .ok a => pure a
  | .error issues => throw (.zod issues)

def throwIf (bad : Prop) [Decidable bad] (failure : Failure) : Handler Unit :=
  if bad then throw failure else pure ()

def authenticationRequired (message : String) : Failure :=
  .api { code := "authentication_required", message, status := 401 }

/-- What issueSession is given. -/
structure SessionClaims where
  sub : String
  tenant : String
  org : Option String
  perms : List String
  ents : List String := []
  deriving DecidableEq, Repr

/-- The claims of the two tokens of a session. -/
structure Session where
  access : AccessTokenClaims
  refresh : RefreshTokenClaims
  deriving DecidableEq, Repr

def issueSession (claims : SessionClaims) : Session :=
  { access :=
      { sub := claims.sub
        tenant := claims.tenant
        org := claims.org
        perms := claims.perms
        ents := claims.ents
        jti := env.accessJti }
    refresh := { sub := claims.sub, tenant := claims.tenant, jti := env.refreshJti } }

/-- The rows a new account gets. -/
def createAccount (input : SignupBody) (email slug : String) : Handler (User × Tenant) := do
  -- The unique indexes on the user's two email columns.
  let same ← Prisma.findFirst .users (fun r => r.email = email ∨ r.emailNormalized = email)
  throwIf same.isSome .internal
  let user ← Prisma.create .users
    { id := env.newId .users
      email
      emailNormalized := email
      passwordHash := env.hash input.password
      name := input.name }
  let sameSlug ← Prisma.findFirst .tenants (fun r => r.slug = slug)
  throwIf sameSlug.isSome .internal
  let tenant ← Prisma.create .tenants
    { id := env.newId .tenants
      slug
      name := input.tenantName.getD ("Tenant " ++ String.ofList (user.id.toList.take 6))
      trialEndsAt := some (env.now + env.trialDays * 86400000) }
  let ownerRole ← Prisma.findFirst .roles (fun r =>
    r.tenantId = none ∧ r.name = "tenant_owner" ∧ r.isSystem)
  match ownerRole with
  | none => throw .internal
  | some role =>
    let _ ← Prisma.create .memberships
      { id := env.newId .memberships
        tenantId := tenant.id
        userId := user.id
        roleId := role.id
        createdAt := env.now }
    return (user, tenant)

def AuthController.signup (body : Option Js.Json) : Handler Session := do
  let input ← parse (SignupSchema env body)
  let email := normalize env input.email
  let same ← Prisma.findFirst .users (fun r => r.emailNormalized = email)
  throwIf same.isSome (.api (.conflict "email already registered"))
  let domain := ((Js.split '@' email.toList)[1]?).map String.ofList
  let base := slugify env.lower ((input.tenantName <|> domain).getD "tenant")
  let (user, tenant) ← transaction (createAccount env input email (base ++ "-" ++ env.random))
  return issueSession env
    { sub := user.id, tenant := tenant.id, org := none, perms := tenantOwnerPermissions }

/-- The permissions of the role of a membership. -/
def roleOf (membership : Membership) : Handler (Option Role) :=
  Prisma.findFirst .roles (fun r => r.id = membership.roleId)

def AuthController.login (body : Option Js.Json) : Handler Session := do
  let input ← parse (LoginSchema env body)
  let email := normalize env input.email
  let found ← Prisma.findFirst .users (fun r => r.emailNormalized = email)
  let hash := (found.map User.passwordHash).getD "argon2$mismatch$hash"
  match found with
  | none => throw (authenticationRequired "invalid credentials")
  | some user =>
    throwIf (env.verify hash input.password = false) (authenticationRequired "invalid credentials")
    let active ← Prisma.findMany .memberships (fun r =>
      r.userId = user.id ∧ r.status = "active")
    match (orderAsc Membership.createdAt active).head? with
    | none => throw (authenticationRequired "no active membership")
    | some membership =>
      let role ← roleOf membership
      return issueSession env
        { sub := user.id
          tenant := membership.tenantId
          org := membership.organizationId
          perms := (role.map Role.permissions).getD permissionKeysV1 }

/-- The cookie's text is `raw`, and `claims` what verifyRefreshToken makes of it. -/
def AuthController.refresh (jwt : JwtService Claims) (raw : Option String) : Handler Session := do
  match raw with
  | none | some "" => throw (authenticationRequired "missing refresh token")
  | some token =>
    match TokenService.verifyRefreshToken jwt token env.now with
    | none => throw (authenticationRequired "invalid refresh token")
    | some claims =>
      let matching ← Prisma.findMany .memberships (fun r =>
        r.userId = claims.sub ∧ r.tenantId = claims.tenant ∧ r.status = "active")
      match env.anyMembership.pick matching with
      | none => throw (authenticationRequired "membership revoked")
      | some membership =>
        let role ← roleOf membership
        return issueSession env
          { sub := claims.sub
            tenant := claims.tenant
            org := membership.organizationId
            perms := (role.map Role.permissions).getD [] }

end

end WaOps.Auth
