import WaOps.Auth.Controller
import WaOps.Lib.Runs

namespace WaOps.Auth
open Lib Lib.Jwt Lib.Runs Lib.Scoped

inductive TokenKind where
  | access | refresh
  deriving DecidableEq, Repr

/-- A token as one of the two sign functions made it. -/
inductive Issued where
  | access (claims : AccessTokenClaims) (time : Int)
  | refresh (claims : RefreshTokenClaims) (time : Int)
  deriving DecidableEq, Repr

def Issued.kind : Issued → TokenKind
  | .access _ _ => .access
  | .refresh _ _ => .refresh

def Issued.claims : Issued → Claims
  | .access claims _ => claims.claims
  | .refresh claims _ => claims.claims

def Issued.time : Issued → Int
  | .access _ time | .refresh _ time => time

def TokenConfig.ttl (cfg : TokenConfig) : TokenKind → Int
  | .access => cfg.accessTtl
  | .refresh => cfg.refreshTtl

def Issued.expiresAt (cfg : TokenConfig) (i : Issued) : Int :=
  seconds i.time + cfg.ttl i.kind

structure State where
  now : Int
  store : Store
  issued : List Issued := []

inductive Action where
  | wait (milliseconds : Nat)
  /-- Whatever else changes the tables. -/
  | edit (store : Store)
  | signup (env : Env) (body : Option Js.Json)
  | login (env : Env) (body : Option Js.Json)
  | refresh (env : Env) (cookie : Option String)
  /-- An API or stream request. -/
  | request (header : Option String)

section
variable (jwt : JwtService Claims) (cfg : TokenConfig)

def Issued.token : Issued → String
  | .access claims time => TokenService.signAccessToken jwt cfg claims time
  | .refresh claims time => TokenService.signRefreshToken jwt cfg claims time

def State.answer (s : State) (result : Except Api.Failure Session × Store) : State :=
  match result with
  | (.ok session, store) =>
    { s with
      store
      issued := s.issued ++ [.access session.access s.now, .refresh session.refresh s.now] }
  | (.error _, store) => { s with store }

def State.knows (s : State) (token : String) : Bool :=
  s.issued.any (fun i => i.token jwt cfg = token)

/-- Only tokens that were issued are presented. -/
def step (s : State) : Action → Option State
  | .wait milliseconds => some { s with now := s.now + milliseconds }
  | .edit store => some { s with store }
  | .signup env body =>
    some (s.answer (outcome (AuthController.signup { env with now := s.now } body) s.store))
  | .login env body =>
    some (s.answer (outcome (AuthController.login { env with now := s.now } body) s.store))
  | .refresh env cookie =>
    if cookie.all (fun token => token = "" || s.knows jwt cfg token) then
      some (s.answer (outcome (AuthController.refresh { env with now := s.now } jwt cookie) s.store))
    else none
  | .request header => if (bearerToken header).all (s.knows jwt cfg) then some s else none

def State.MadeAs (s : State) (kind : TokenKind) (token : String) : Prop :=
  ∃ i ∈ s.issued, i.token jwt cfg = token ∧ i.kind = kind

def State.ExpiredUnless (s : State) (kind : TokenKind) (token : String) : Prop :=
  ∀ i ∈ s.issued, i.token jwt cfg = token → i.kind ≠ kind → i.expiresAt cfg ≤ seconds s.now

/-- A token is accepted only in the role it was made for. -/
def Separated (s : State) : Action → Prop
  | .refresh _ cookie => ∀ token, cookie = some token → token ≠ "" →
      (TokenService.verifyRefreshToken jwt token s.now).isSome → s.MadeAs jwt cfg .refresh token
  | .request header => ∀ token, bearerToken header = some token →
      (TenantContextMiddleware.use jwt header s.now).isSome → s.MadeAs jwt cfg .access token
  | _ => True

/-- A token is presented in the other role only after it has expired. -/
def OwnRole (s : State) : Action → Prop
  | .refresh _ cookie => ∀ token, cookie = some token → token ≠ "" →
      s.ExpiredUnless jwt cfg .refresh token
  | .request header => ∀ token, bearerToken header = some token →
      s.ExpiredUnless jwt cfg .access token
  | _ => True

end

section
variable {jwt : JwtService Claims} {cfg : TokenConfig} {s : State} {i i' : Issued} {token : String}
  {now : Int}

/-- Tokens of both kinds are signed alike. -/
theorem token_signed (i : Issued) : i.token jwt cfg =
    jwt.signAsync i.claims (signOptions (cfg.ttl i.kind)) (seconds i.time) := by
  cases i <;> rfl

theorem payload_of_token (hj : jwt.Lawful) (h : i.token jwt cfg = i'.token jwt cfg) :
    payload i.claims (signOptions (cfg.ttl i.kind)) (seconds i.time) =
      payload i'.claims (signOptions (cfg.ttl i'.kind)) (seconds i'.time) := by
  rw [token_signed, token_signed] at h
  exact payload_unique hj rfl rfl h

/-- No token is of both kinds: only one of access has permissions. -/
theorem token_kind (hj : jwt.Lawful) (h : i.token jwt cfg = i'.token jwt cfg) :
    i.kind = i'.kind := by
  have hperms := congrArg (fun p => p.claims.perms) (payload_of_token hj h)
  cases i with
  | access claims time =>
    cases i' with
    | access claims' time' => rfl
    | refresh claims' time' => cases hperms
  | refresh claims time =>
    cases i' with
    | access claims' time' => cases hperms
    | refresh claims' time' => rfl

/-- An issued token verifies, in either role, until it expires. -/
theorem verify_issued (hj : jwt.Lawful) :
    (jwt.verifyAsync (i.token jwt cfg) verifyOptions now).isSome ↔ now < i.expiresAt cfg := by
  constructor
  · intro h
    obtain ⟨p, hp⟩ := Option.isSome_iff_exists.mp h
    obtain ⟨claims, o, time, htoken, rfl, -, hiss, haud, hexp⟩ := (hj.verify_iff _ _ _ _).mp hp
    rw [token_signed] at htoken
    have hsame := congrArg Payload.exp (payload_unique hj hiss haud htoken)
    simp only [payload, signOptions] at hsame hexp
    unfold Issued.expiresAt
    omega
  · intro h
    have haccept : verifyOptions.Accepts now "HS256"
        (payload i.claims (signOptions (cfg.ttl i.kind)) (seconds i.time)) :=
      ⟨List.mem_cons_self, rfl, rfl, h⟩
    rw [token_signed, verify_sign hj haccept]
    rfl

theorem role_iff (hj : jwt.Lawful) (kind : TokenKind) (hknown : s.knows jwt cfg token) :
    ((jwt.verifyAsync token verifyOptions (seconds s.now)).isSome → s.MadeAs jwt cfg kind token) ↔
      s.ExpiredUnless jwt cfg kind token := by
  constructor
  · intro h i hi htoken hkind
    by_contra hlive
    have hverify := (verify_issued hj).mpr (not_le.mp hlive)
    rw [htoken] at hverify
    obtain ⟨i', -, htoken', hkind'⟩ := h hverify
    exact hkind ((token_kind hj (htoken.trans htoken'.symm)).trans hkind')
  · intro h hverify
    obtain ⟨i, hi, htoken⟩ := List.any_eq_true.mp hknown
    have htoken : i.token jwt cfg = token := by simpa using htoken
    refine ⟨i, hi, htoken, ?_⟩
    by_contra hkind
    have hdead := h i hi htoken hkind
    rw [← htoken, verify_issued hj] at hverify
    omega

theorem refresh_isSome {now : Int} : (TokenService.verifyRefreshToken jwt token now).isSome =
    (jwt.verifyAsync token verifyOptions (seconds now)).isSome :=
  Option.isSome_map

theorem use_isSome {header : Option String} {now : Int} (h : bearerToken header = some token) :
    (TenantContextMiddleware.use jwt header now).isSome =
      (jwt.verifyAsync token verifyOptions (seconds now)).isSome := by
  simp only [TenantContextMiddleware.use, TokenService.verifyAccessToken, h,
    Option.bind_eq_bind, Option.bind_some]
  cases jwt.verifyAsync token verifyOptions (seconds now) <;> rfl

theorem step_separated_iff (hj : jwt.Lawful) (s : State) (a : Action) (t : State)
    (h : step jwt cfg s a = some t) : Separated jwt cfg s a ↔ OwnRole jwt cfg s a := by
  cases a with
  | wait | edit | signup | login => exact Iff.rfl
  | refresh env cookie =>
    simp only [step] at h
    split at h
    · rename_i hall
      refine forall_congr' fun token => forall_congr' fun hcookie => forall_congr' fun hne => ?_
      have hknown : s.knows jwt cfg token := by simpa [hcookie, hne] using hall
      rw [refresh_isSome]
      exact role_iff hj .refresh hknown
    · contradiction
  | request header =>
    simp only [step] at h
    split at h
    · rename_i hall
      refine forall_congr' fun token => forall_congr' fun hheader => ?_
      have hknown : s.knows jwt cfg token := by simpa [hheader] using hall
      rw [use_isSome hheader]
      exact role_iff hj .access hknown
    · contradiction

/-- In a run that starts with no tokens issued every token is taken only in the role it was made
for exactly when none is presented in the other one before it has expired. -/
theorem separated_iff_own_role (hj : jwt.Lawful) (now : Int) (store : Store) (as : List Action) :
    Meets (step jwt cfg) (Separated jwt cfg) { now, store } as ↔
      Meets (step jwt cfg) (OwnRole jwt cfg) { now, store } as :=
  meets_congr (fun s a t h => step_separated_iff hj s a t h)

end

instance encodableClaims : Encodable Claims :=
  Encodable.ofLeftInverse (fun c => (c.sub, c.tenant, c.org, c.perms, c.ents, c.jti))
    (fun q => ⟨q.1, q.2.1, q.2.2.1, q.2.2.2.1, q.2.2.2.2.1, q.2.2.2.2.2⟩) (fun _ => rfl)

def ownerRole : Role :=
  { id := "role"
    tenantId := none
    name := "tenant_owner"
    isSystem := true
    permissions := tenantOwnerPermissions }

def seededStore : Store
  | .roles => { rows := [ownerRole], unique := List.nodup_singleton _ }
  | .users | .tenants | .memberships => { rows := [], unique := List.nodup_nil }

def plainEnv : Env :=
  { now := 0
    newId := fun _ => "id"
    random := "00000"
    accessJti := "a"
    refreshJti := "r"
    isEmail := fun _ => true
    lower := fun text => text
    hash := fun text => text
    verify := fun hash text => hash = text
    anyMembership := firstRow Membership
    trialDays := 14 }

def signupBody : Option Js.Json :=
  some (.object [("email", .string "a@b.c"), ("password", .string "0123456789")])

def ownerAccess : AccessTokenClaims :=
  { sub := "id", tenant := "id", org := none, perms := tenantOwnerPermissions, ents := [],
    jti := "a" }

def ownerRefresh : RefreshTokenClaims :=
  { sub := "id", tenant := "id", jti := "r" }

def ownerTokens : List Issued :=
  [.access ownerAccess 0, .refresh ownerRefresh 0]

/-- The first account signs up and one of its tokens is presented in the refresh cookie. -/
def presentCookie (jwt : JwtService Claims) (i : Issued) : List Action :=
  [.signup plainEnv signupBody, .refresh plainEnv (some (i.token jwt {}))]

section
variable {jwt : JwtService Claims}

theorem signup_issues (jwt : JwtService Claims) : ∃ s, step jwt {} { now := 0, store := seededStore }
    (.signup plainEnv signupBody) = some s ∧ s.now = 0 ∧ s.issued = ownerTokens := by
  refine ⟨_, rfl, ?_, ?_⟩
  · rfl
  · rfl

/-- The access token opens a new session. -/
theorem access_refreshes (hj : jwt.Lawful) (hne : ∀ i, Issued.token jwt {} i ≠ "") :
    ¬ Meets (step jwt {}) (Separated jwt {}) { now := 0, store := seededStore }
      (presentCookie jwt (.access ownerAccess 0)) := by
  intro h
  obtain ⟨s, hs, hnow, hissued⟩ := signup_issues jwt
  have hmem : Issued.access ownerAccess 0 ∈ s.issued := by
    rw [hissued]
    exact List.mem_cons_self
  have hknown : s.knows jwt {} (Issued.token jwt {} (.access ownerAccess 0)) :=
    List.any_eq_true.mpr ⟨_, hmem, decide_eq_true rfl⟩
  have hrest := (h s hs).2
  have henabled : ∃ t, step jwt {} s
      (.refresh plainEnv (some (Issued.token jwt {} (.access ownerAccess 0)))) = some t := by
    refine ⟨_, if_pos ?_⟩
    simp [hknown]
  obtain ⟨t, ht⟩ := henabled
  have hverify : (TokenService.verifyRefreshToken jwt
      (Issued.token jwt {} (.access ownerAccess 0)) s.now).isSome := by
    rw [refresh_isSome, verify_issued hj, hnow]
    decide
  obtain ⟨i, -, htoken, hkind⟩ := (hrest t ht).1 _ rfl (hne _) hverify
  have hsame := token_kind hj htoken
  rw [hkind] at hsame
  cases hsame

theorem refresh_own_role (hj : jwt.Lawful) :
    Meets (step jwt {}) (OwnRole jwt {}) { now := 0, store := seededStore }
      (presentCookie jwt (.refresh ownerRefresh 0)) := by
  intro s hs
  refine ⟨trivial, ?_⟩
  intro t _
  refine ⟨?_, trivial⟩
  intro token hcookie _ i _ htoken hkind
  rw [← Option.some.inj hcookie] at htoken
  exact absurd (token_kind hj htoken) hkind

end

theorem unary_token_ne_empty (i : Issued) : i.token unaryService {} ≠ "" := by
  rw [token_signed]
  exact unary_ne_empty _ _

theorem own_refresh_separated :
    Meets (step unaryService {}) (Separated unaryService {}) { now := 0, store := seededStore }
      (presentCookie unaryService (.refresh ownerRefresh 0)) :=
  (separated_iff_own_role unaryService_lawful 0 seededStore _).mpr
    (refresh_own_role unaryService_lawful)

theorem access_token_refreshes : ¬ ∀ (jwt : JwtService Claims) (cfg : TokenConfig), jwt.Lawful →
    ∀ now store as, Meets (step jwt cfg) (Separated jwt cfg) { now, store } as := by
  intro h
  exact access_refreshes unaryService_lawful unary_token_ne_empty
    (h _ _ unaryService_lawful _ _ _)

end WaOps.Auth
