import WaOps.Lib.Js
import WaOps.Lib.Jwt

namespace WaOps.Auth
open Lib Lib.Jwt

structure AccessTokenClaims where
  sub : String
  tenant : String
  org : Option String
  perms : List String
  ents : List String
  jti : String
  deriving DecidableEq, Repr

structure RefreshTokenClaims where
  sub : String
  tenant : String
  jti : String
  deriving DecidableEq, Repr

/-- The claims of a token of either kind: none where the payload has no such field. -/
structure Claims where
  sub : String
  tenant : String
  org : Option (Option String) := none
  perms : Option (List String) := none
  ents : Option (List String) := none
  jti : String
  deriving DecidableEq, Repr

def AccessTokenClaims.claims (c : AccessTokenClaims) : Claims :=
  { sub := c.sub
    tenant := c.tenant
    org := some c.org
    perms := some c.perms
    ents := some c.ents
    jti := c.jti }

def RefreshTokenClaims.claims (c : RefreshTokenClaims) : Claims :=
  { sub := c.sub, tenant := c.tenant, jti := c.jti }

/-- JWT_ACCESS_TTL_SECONDS and JWT_REFRESH_TTL_SECONDS. -/
structure TokenConfig where
  accessTtl : Int := 900
  refreshTtl : Int := 604800

def jwtIssuer : String := "waops"

def jwtAudience : String := "waops-api"

/-- The clock runs in milliseconds. -/
def seconds (now : Int) : Int := now / 1000

def signOptions (expiresIn : Int) : SignOptions :=
  { expiresIn, algorithm := "HS256", issuer := jwtIssuer, audience := jwtAudience }

def verifyOptions : VerifyOptions :=
  { algorithms := ["HS256"], issuer := jwtIssuer, audience := jwtAudience }

section
variable (jwt : JwtService Claims) (cfg : TokenConfig)

def TokenService.signAccessToken (claims : AccessTokenClaims) (now : Int) : String :=
  jwt.signAsync claims.claims (signOptions cfg.accessTtl) (seconds now)

def TokenService.signRefreshToken (claims : RefreshTokenClaims) (now : Int) : String :=
  jwt.signAsync claims.claims (signOptions cfg.refreshTtl) (seconds now)

/-- The type the source gives the result is not checked. -/
def TokenService.verifyAccessToken (token : String) (now : Int) : Option Claims :=
  (jwt.verifyAsync token verifyOptions (seconds now)).map Payload.claims

def TokenService.verifyRefreshToken (token : String) (now : Int) : Option Claims :=
  (jwt.verifyAsync token verifyOptions (seconds now)).map Payload.claims

/-- The tenant context with what the guards read of it. -/
structure TenantContext where
  userId : String
  tenantId : String
  organizationScope : Option (Option String)
  permissions : List String
  entitlements : List String
  actorType : String := "user"
  deriving DecidableEq, Repr

def bearerToken (header : Option String) : Option String :=
  (header.bind (Js.after "Bearer ")).map (fun raw => String.ofList (Js.trim raw))

/-- `req.auth` and the context the rest of the request runs in; an empty set where the claims
have no permissions. -/
def TenantContextMiddleware.use (header : Option String) (now : Int) :
    Option (Claims × TenantContext) := do
  let token ← bearerToken header
  let claims ← TokenService.verifyAccessToken jwt token now
  return (claims,
    { userId := claims.sub
      tenantId := claims.tenant
      organizationScope := claims.org
      permissions := (claims.perms.getD []).dedup
      entitlements := (claims.ents.getD []).dedup })

end

end WaOps.Auth
