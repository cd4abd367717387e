import WaOps.Auth.Separation

namespace WaOps.Auth
open Lib Lib.Zod Lib.Jwt Lib.Scoped Lib.Tables Lib.Sorting

def roleRow (s : Store) (m : Membership) : Option Role :=
  (s .roles).rows.find? (fun r => r.id = m.roleId)

/-- None where the role cannot be read. -/
def permissionsOf (s : Store) (m : Membership) : List String :=
  ((roleRow s m).map Role.permissions).getD []

/-- The membership of the user that a login opens. -/
def firstActive (s : Store) (userId : String) : Option Membership :=
  (orderAsc Membership.createdAt ((s .memberships).rows.filter (fun r =>
    r.userId = userId ∧ r.status = "active"))).head?

/-- The memberships that a refresh may take. -/
def activeIn (s : Store) (userId tenantId : String) : List Membership :=
  (s .memberships).rows.filter (fun r =>
    r.userId = userId ∧ r.tenantId = tenantId ∧ r.status = "active")

def SameRights (a b : AccessTokenClaims) : Prop :=
  a.tenant = b.tenant ∧ a.org = b.org ∧ ∀ p, p ∈ a.perms ↔ p ∈ b.perms

/-- The session of a login has no permissions but those of the role, and each refresh with its
token before it expires, whichever matching row the database returns, keeps its rights. -/
def Renews (jwt : JwtService Claims) (cfg : TokenConfig) (env : Env) (body : Option Js.Json)
    (s : Store) : Prop :=
  ∀ session, outcome (AuthController.login env body) s = (.ok session, s) →
    (∀ m, firstActive s session.access.sub = some m →
      ∀ p ∈ session.access.perms, p ∈ permissionsOf s m) ∧
    ∀ again : Env, seconds again.now < seconds env.now + cfg.refreshTtl →
      ∃ renewed,
        outcome (AuthController.refresh again jwt
          (some (TokenService.signRefreshToken jwt cfg session.refresh env.now))) s =
          (.ok renewed, s) ∧
        SameRights renewed.access session.access

/-- The role of the user's first membership can be read, and all memberships of the user in its
tenant are for the same organization and have the same permissions. -/
def Steady (s : Store) (userId : String) : Prop :=
  ∀ m, firstActive s userId = some m →
    (∃ r ∈ (s .roles).rows, r.id = m.roleId) ∧
    ∀ m' ∈ activeIn s userId m.tenantId,
      m'.organizationId = m.organizationId ∧
      ∀ p, p ∈ permissionsOf s m' ↔ p ∈ permissionsOf s m

/-- A database that returns one row where it can. -/
def preferring {α : Type} [DecidableEq α] (a : α) : AnyRow α where
  pick l := if a ∈ l then some a else l.head?
  mem {l b} h := by
    split at h
    · rename_i ha
      rw [← Option.some.inj h]
      exact ha
    · exact List.mem_of_head? h
  none {l} h := by
    split at h
    · cases h
    · exact List.head?_eq_none_iff.mp h

section
variable {jwt : JwtService Claims} {cfg : TokenConfig} {env again : Env} {body : Option Js.Json}
  {s : Store} {input : LoginBody} {user : User} {m : Membership} {userId token : String}
  {claims : Claims}

theorem mem_activeIn {tenantId : String} : m ∈ activeIn s userId tenantId ↔
    m ∈ (s .memberships).rows ∧ m.userId = userId ∧ m.tenantId = tenantId ∧
      m.status = "active" := by
  simp [activeIn]

theorem firstActive_mem (h : firstActive s userId = some m) : m ∈ activeIn s userId m.tenantId := by
  have hmem := List.mem_filter.mp (mem_orderAsc.mp (List.mem_of_head? h))
  have hprops : m.userId = userId ∧ m.status = "active" := by simpa using hmem.2
  exact mem_activeIn.mpr ⟨hmem.1, hprops.1, rfl, hprops.2⟩

/-- What a login makes of a membership. -/
def loginSession (env : Env) (s : Store) (userId : String) (m : Membership) : Session :=
  issueSession env
    { sub := userId
      tenant := m.tenantId
      org := m.organizationId
      perms := ((roleRow s m).map Role.permissions).getD permissionKeysV1 }

def loginResult (env : Env) (s : Store) (userId : String) :
    Except Api.Failure Session × Store :=
  match firstActive s userId with
  | none => (.error (authenticationRequired "no active membership"), s)
  | some m => (.ok (loginSession env s userId m), s)

/-- What a refresh makes of one. -/
def renewedSession (env : Env) (s : Store) (claims : Claims) (m : Membership) : Session :=
  issueSession env
    { sub := claims.sub
      tenant := claims.tenant
      org := m.organizationId
      perms := permissionsOf s m }

theorem login_outcome (hbody : LoginSchema env body = .ok input)
    (huser : (s .users).rows.find? (fun r => r.emailNormalized = normalize env input.email) =
      some user)
    (hpassword : env.verify user.passwordHash input.password = true) :
    outcome (AuthController.login env body) s = loginResult env s user.id := by
  have hparse : parse (LoginSchema env body) = pure input := by rw [hbody]; rfl
  have hthrow : throwIf (env.verify user.passwordHash input.password = false)
      (authenticationRequired "invalid credentials") = pure () := by
    rw [throwIf, if_neg (by simp [hpassword])]
  unfold AuthController.login
  simp only [hparse, pure_bind, Prisma.findFirst, Tables.findFirst, Prisma.findMany,
    Tables.findMany, outcome_bind, outcome_query, huser, Option.map_some, Option.getD_some, hthrow]
  change outcome (match firstActive s user.id with | none => _ | some m => _) s = _
  unfold loginResult
  cases firstActive s user.id with
  | none => rfl
  | some m => rfl

theorem refresh_outcome (hne : token ≠ "")
    (hverify : TokenService.verifyRefreshToken jwt token env.now = some claims) :
    outcome (AuthController.refresh env jwt (some token)) s =
      match env.anyMembership.pick (activeIn s claims.sub claims.tenant) with
      | none => (.error (authenticationRequired "membership revoked"), s)
      | some m => (.ok (renewedSession env s claims m), s) := by
  unfold AuthController.refresh
  split
  · contradiction
  · rename_i h
    exact absurd (Option.some.inj h) hne
  · rename_i h
    cases h
    simp only [hverify, Prisma.findMany, Tables.findMany, outcome_bind, outcome_query]
    change outcome (match env.anyMembership.pick (activeIn s claims.sub claims.tenant) with
      | none => _ | some m => _) s = _
    cases env.anyMembership.pick (activeIn s claims.sub claims.tenant) with
    | none => rfl
    | some m => rfl

/-- The refresh token of a session is read back until it expires. -/
theorem verify_refresh (cfg : TokenConfig) (hj : jwt.Lawful) (session : Session) {now later : Int}
    (hlive : seconds later < seconds now + cfg.refreshTtl) :
    TokenService.verifyRefreshToken jwt (TokenService.signRefreshToken jwt cfg session.refresh now)
      later = some session.refresh.claims := by
  have haccept : verifyOptions.Accepts (seconds later) "HS256"
      (payload session.refresh.claims (signOptions cfg.refreshTtl) (seconds now)) :=
    ⟨List.mem_cons_self, rfl, rfl, hlive⟩
  rw [TokenService.verifyRefreshToken, TokenService.signRefreshToken, verify_sign hj haccept]
  rfl

/-- The permissions of a login are those of the role where there is one to be read. -/
theorem login_perms (h : ∃ r ∈ (s .roles).rows, r.id = m.roleId) :
    (loginSession env s userId m).access.perms = permissionsOf s m := by
  cases hrow : roleRow s m with
  | none =>
    obtain ⟨r, hr, hid⟩ := h
    have hnone := List.find?_eq_none.mp hrow r hr
    simp [hid] at hnone
  | some r => simp [loginSession, issueSession, permissionsOf, hrow]

/-- Without a role a login has all permissions there are, and the role has none. -/
theorem login_without_role (env : Env) (userId : String)
    (h : ∀ r ∈ (s .roles).rows, r.id ≠ m.roleId) :
    "tenants.read" ∈ (loginSession env s userId m).access.perms ∧ permissionsOf s m = [] := by
  have hrow : roleRow s m = none := List.find?_eq_none.mpr fun r hr => by simpa using h r hr
  constructor
  · simp [loginSession, issueSession, hrow, permissionKeysV1]
  · simp [permissionsOf, hrow]

/-- What a refresh with the token of a login gets. -/
theorem refresh_of_login (env again : Env) (hj : jwt.Lawful)
    (hne : ∀ i, Issued.token jwt cfg i ≠ "") (hfirst : firstActive s userId = some m)
    (hlive : seconds again.now < seconds env.now + cfg.refreshTtl) :
    ∃ m' ∈ activeIn s userId m.tenantId,
      again.anyMembership.pick (activeIn s userId m.tenantId) = some m' ∧
      outcome (AuthController.refresh again jwt (some (TokenService.signRefreshToken jwt cfg
          (loginSession env s userId m).refresh env.now))) s =
        (.ok (renewedSession again s (loginSession env s userId m).refresh.claims m'), s) := by
  have hverify := verify_refresh cfg hj (loginSession env s userId m) hlive
  have hout := refresh_outcome (s := s)
    (hne (.refresh (loginSession env s userId m).refresh env.now)) hverify
  cases hpick : again.anyMembership.pick (activeIn s userId m.tenantId) with
  | none =>
    have hnone := again.anyMembership.none hpick
    have hmem := firstActive_mem hfirst
    rw [hnone] at hmem
    cases hmem
  | some m' =>
    refine ⟨m', again.anyMembership.mem hpick, rfl, hout.trans ?_⟩
    have hsame : again.anyMembership.pick (activeIn s
        (loginSession env s userId m).refresh.claims.sub
        (loginSession env s userId m).refresh.claims.tenant) = some m' := hpick
    rw [hsame]

theorem sameRights_iff (h : ∃ r ∈ (s .roles).rows, r.id = m.roleId) (m' : Membership) :
    SameRights (renewedSession again s (loginSession env s userId m).refresh.claims m').access
        (loginSession env s userId m).access ↔
      m'.organizationId = m.organizationId ∧
      ∀ p, p ∈ permissionsOf s m' ↔ p ∈ permissionsOf s m := by
  rw [SameRights, login_perms h]
  exact and_iff_right rfl

theorem steady_of_renews (hj : jwt.Lawful) (hne : ∀ i, Issued.token jwt cfg i ≠ "")
    (httl : 0 < cfg.refreshTtl)
    (hlogin : outcome (AuthController.login env body) s = loginResult env s userId)
    (h : Renews jwt cfg env body s) : Steady s userId := by
  intro m hfirst
  rw [loginResult, hfirst] at hlogin
  obtain ⟨hperms, hrefresh⟩ := h _ hlogin
  have hrole : ∃ r ∈ (s .roles).rows, r.id = m.roleId := by
    by_contra hgone
    have hall : ∀ r ∈ (s .roles).rows, r.id ≠ m.roleId := fun r hr hid => hgone ⟨r, hr, hid⟩
    obtain ⟨hmem, hnone⟩ := login_without_role env userId hall
    have hread := hperms m hfirst _ hmem
    rw [hnone] at hread
    cases hread
  refine ⟨hrole, ?_⟩
  intro m' hm'
  -- The database may return just this row.
  obtain ⟨renewed, hrenewed, hsame⟩ := hrefresh
    { env with anyMembership := preferring m' } (by dsimp only; omega)
  obtain ⟨m'', -, hpick, hout⟩ := refresh_of_login env
    { env with anyMembership := preferring m' } hj hne hfirst (by dsimp only; omega)
  have hm'' : m'' = m' := by
    have hchosen := hpick
    simp only [preferring, if_pos hm', Option.some.injEq] at hchosen
    exact hchosen.symm
  rw [hm''] at hout
  have heq := hrenewed.symm.trans hout
  cases heq
  exact (sameRights_iff hrole m').mp hsame

theorem renews_of_steady (hj : jwt.Lawful) (hne : ∀ i, Issued.token jwt cfg i ≠ "")
    (hlogin : outcome (AuthController.login env body) s = loginResult env s userId)
    (h : Steady s userId) : Renews jwt cfg env body s := by
  intro session hsession
  rw [hlogin, loginResult] at hsession
  cases hfirst : firstActive s userId with
  | none =>
    rw [hfirst] at hsession
    cases hsession
  | some m =>
    rw [hfirst] at hsession
    cases hsession
    obtain ⟨hrole, hall⟩ := h m hfirst
    constructor
    · intro m₀ hm₀ p hp
      have hm₀ : firstActive s userId = some m₀ := hm₀
      rw [hfirst] at hm₀
      cases hm₀
      rwa [login_perms hrole] at hp
    · intro again hlive
      obtain ⟨m', hm', -, hout⟩ := refresh_of_login env again hj hne hfirst hlive
      exact ⟨_, hout, (sameRights_iff hrole m').mpr (hall m' hm')⟩

/-- A login with the right password keeps its rights through every refresh exactly where the
user's memberships leave no choice. -/
theorem renews_iff_steady (hj : jwt.Lawful) (hne : ∀ i, Issued.token jwt cfg i ≠ "")
    (httl : 0 < cfg.refreshTtl) (hbody : LoginSchema env body = .ok input)
    (huser : (s .users).rows.find? (fun r => r.emailNormalized = normalize env input.email) =
      some user)
    (hpassword : env.verify user.passwordHash input.password = true) :
    Renews jwt cfg env body s ↔ Steady s user.id := by
  have hlogin := login_outcome (s := s) hbody huser hpassword
  exact ⟨steady_of_renews hj hne httl hlogin, renews_of_steady hj hne hlogin⟩
end

def adminRole : Role :=
  { id := "admin", tenantId := none, name := "tenant_admin", permissions := ["users.manage"] }

def viewerRole : Role :=
  { id := "viewer", tenantId := none, name := "viewer", permissions := ["tenants.read"] }

def ann : User :=
  { id := "ann", email := "a@b.c", emailNormalized := "a@b.c", passwordHash := "secret",
    name := none }

def firstMembership : Membership :=
  { id := "m1", tenantId := "t", userId := "ann", roleId := "viewer", createdAt := 1 }

def secondMembership : Membership :=
  { id := "m2", tenantId := "t", organizationId := some "o", userId := "ann", roleId := "admin",
    createdAt := 2 }

theorem noTenants_unique : (([] : List Tenant).map Tenant.id).Nodup := List.Pairwise.nil

theorem roles_unique : ([adminRole, viewerRole].map Role.id).Nodup := by decide

theorem memberships_unique : ([firstMembership, secondMembership].map Membership.id).Nodup := by
  decide

def annStore (memberships : Table schema .memberships) : Store
  | .users => { rows := [ann], unique := List.nodup_singleton _ }
  | .tenants => { rows := [], unique := noTenants_unique }
  | .memberships => memberships
  | .roles => { rows := [adminRole, viewerRole], unique := roles_unique }

def oneMembership : Store :=
  annStore { rows := [firstMembership], unique := List.nodup_singleton _ }

def twoMemberships : Store :=
  annStore { rows := [firstMembership, secondMembership], unique := memberships_unique }

def annLogin : Option Js.Json :=
  some (.object [("email", .string "a@b.c"), ("password", .string "secret")])

theorem one_membership_steady : Steady oneMembership "ann" := by
  intro m hm
  have hfirst : firstActive oneMembership "ann" = some firstMembership := by decide
  rw [hfirst] at hm
  cases hm
  refine ⟨⟨viewerRole, by decide, rfl⟩, ?_⟩
  intro m' hm'
  have hone : activeIn oneMembership "ann" "t" = [firstMembership] := by decide
  have hm' : m' ∈ activeIn oneMembership "ann" "t" := hm'
  rw [hone, List.mem_singleton] at hm'
  rw [hm']
  exact ⟨rfl, fun _ => Iff.rfl⟩

theorem one_membership_renews : Renews unaryService {} plainEnv annLogin oneMembership :=
  (renews_iff_steady unaryService_lawful unary_token_ne_empty (by decide) rfl rfl rfl).mpr
    one_membership_steady

/-- The login opens the older membership, and a refresh may take the other one, which is for an
organization and has the rights of an administrator. -/
theorem second_membership_taken : ¬ Renews unaryService {} plainEnv annLogin twoMemberships := by
  intro h
  have hlogin : outcome (AuthController.login plainEnv annLogin) twoMemberships =
      loginResult plainEnv twoMemberships ann.id := login_outcome rfl rfl rfl
  have hsteady := steady_of_renews unaryService_lawful unary_token_ne_empty (by decide) hlogin h
  have hfirst : firstActive twoMemberships "ann" = some firstMembership := by decide
  have hsecond : secondMembership ∈ activeIn twoMemberships "ann" "t" := by decide
  cases ((hsteady firstMembership hfirst).2 secondMembership hsecond).1

end WaOps.Auth
