import WaOps.Server.Authority

namespace WaOps.Server
open Lib Lib.Jwt Lib.Runs Lib.Scoped Lib.Tables
open Api.Links (Linked)
open Auth (Claims)
open RateLimit (FailureMode Principal RateLimitOptions bucketKey)

/-- The buckets in which a tenant's requests are counted. -/
def bucketsOf (tenantId : String) : List String :=
  [bucketKey authLimit { tenantId := some tenantId },
    bucketKey apiLimit { tenantId := some tenantId }]

def noAccounts : Auth.Store
  | .users | .tenants | .memberships | .roles => { rows := [], unique := List.Pairwise.nil }

def Exchange.tenant (e : Exchange) : Option String :=
  e.auth.map (fun auth => auth.2.tenantId)

/-- The tenant's rows and buckets, and its requests with their replies. -/
def State.seenBy (tenantId : String) (s : State) : State :=
  { accounts := noAccounts
    store := only tenantId s.store
    buckets := fun bucket => if bucket ∈ bucketsOf tenantId then s.buckets bucket else none
    redisUp := s.redisUp
    exchanges := s.exchanges.filter (fun e => e.tenant = some tenantId) }

/-- What a tenant sees of an action, if anything. -/
def seenAction (jwt : JwtService Claims) (tenantId : String) (a : Action) : Option Action :=
  match a.act with
  | .editAccounts _ => none
  | .change owner store =>
    if owner = tenantId then some { a with act := .change owner (only tenantId store) } else none
  | .redis _ => some a
  | .expire bucket => if bucket ∈ bucketsOf tenantId then some a else none
  | .auth http _ _ _ | .request http _ _ _ =>
    if (http.principal jwt a.now).tenantId = some tenantId then some a else none

/-- The server with one tenant only. -/
def alone (jwt : JwtService Claims) (mode : FailureMode) (tenantId : String) (v : State)
    (a : Action) : Option State :=
  (step jwt mode v a).map (State.seenBy tenantId)

/-- The other writers change rows of one tenant and no comments or tickets, no client's address
is the tenant's id, and the ids that are drawn are new. -/
def Orderly (jwt : JwtService Claims) (tenantId : String) (s : State) (a : Action) : Prop :=
  match a.act with
  | .change owner store => rest owner store = rest owner s.store ∧
      store .supportTickets = s.store .supportTickets ∧
      store .supportTicketComments = s.store .supportTicketComments
  | .auth http _ _ _ => (http.principal jwt a.now).tenantId = none →
      principalText (http.principal jwt a.now) ≠ tenantId
  | .request http env _ _ =>
    ((http.principal jwt a.now).tenantId = none →
      principalText (http.principal jwt a.now) ≠ tenantId) ∧
    ∀ auth, http.authenticated jwt a.now = some auth →
      Api.Fresh env (rest auth.2.tenantId s.store)
  | _ => True

section
variable {jwt : JwtService Claims} {mode : FailureMode} {u : String} {s t : State}
  {options : RateLimitOptions} {principal : Principal} {now : Int}

/-- The clock does not matter for what is drawn. -/
theorem fresh_at {env : Api.Env} {w : Rows Api.schema} (h : Api.Fresh env w) (now : Int) :
    Api.Fresh { env with now } w :=
  ⟨h.host, h.token, h.tokenHash, h.timeline, h.ticket, h.comment, h.audit⟩

theorem bucketKey_text : bucketKey options principal =
    "rl:" ++ options.routeClass ++ ":" ++ principalText principal := rfl

/-- A principal is counted in a tenant's buckets where it is the tenant. -/
theorem bucket_mem (h : options = authLimit ∨ options = apiLimit) :
    bucketKey options principal ∈ bucketsOf u ↔ principalText principal = u := by
  have hown : ∀ options, bucketKey options { tenantId := some u } =
      "rl:" ++ options.routeClass ++ ":" ++ u := fun _ => rfl
  simp only [bucketsOf, List.mem_cons, List.not_mem_nil, or_false, hown]
  constructor
  · intro hmem
    rcases h with rfl | rfl <;> rcases hmem with hkey | hkey
    · simpa [bucketKey_text, authLimit, ← String.toList_inj] using hkey
    · simp [bucketKey_text, authLimit, apiLimit, ← String.toList_inj] at hkey
    · simp [bucketKey_text, authLimit, apiLimit, ← String.toList_inj] at hkey
    · simpa [bucketKey_text, apiLimit, ← String.toList_inj] using hkey
  · rintro rfl
    rcases h with rfl | rfl
    · exact .inl rfl
    · exact .inr rfl

theorem seen_buckets (h : s.seenBy u = t.seenBy u) {bucket : String}
    (hb : bucket ∈ bucketsOf u) : s.buckets bucket = t.buckets bucket := by
  have hsame := congrFun (congrArg State.buckets h) bucket
  simpa [State.seenBy, hb] using hsame

/-- Two states look alike to the tenant. -/
theorem seenBy_eq_iff : s.seenBy u = t.seenBy u ↔
    own u s.store = own u t.store ∧ (∀ bucket ∈ bucketsOf u, s.buckets bucket = t.buckets bucket) ∧
      s.redisUp = t.redisUp ∧ s.exchanges.filter (fun e => e.tenant = some u) =
        t.exchanges.filter (fun e => e.tenant = some u) := by
  constructor
  · intro h
    have hup := congrArg State.redisUp h
    have hexchanges := congrArg State.exchanges h
    exact ⟨only_eq_iff.mp (congrArg State.store h), fun _ => seen_buckets h, hup, hexchanges⟩
  · rintro ⟨hrows, hbuckets, hup, hexchanges⟩
    have hsame : (fun bucket => if bucket ∈ bucketsOf u then s.buckets bucket else none) =
        fun bucket => if bucket ∈ bucketsOf u then t.buckets bucket else none := by
      funext bucket
      split
      · rename_i hb
        exact hbuckets bucket hb
      · rfl
    simp only [State.seenBy, only_eq_iff.mpr hrows, hsame, hup, hexchanges]

/-- Another principal's turn at a limiter is not seen. -/
theorem limit_hidden (mode : FailureMode) (now : Int)
    (h : bucketKey options principal ∉ bucketsOf u) :
    (s.limit mode options principal now).2.seenBy u = s.seenBy u := by
  cases hup : s.redisUp with
  | false => rw [limit_down hup]
  | true =>
    obtain ⟨-, -, hstate⟩ := limit_up mode options principal now hup
    rw [hstate, seenBy_eq_iff]
    refine ⟨rfl, ?_, rfl, rfl⟩
    intro bucket hb
    have hne : bucket ≠ bucketKey options principal := fun heq => h (by rwa [← heq])
    exact Function.update_of_ne hne _ _

/-- The tenant's own turn gives it the same in states that look alike. -/
theorem limit_alike (mode : FailureMode) (now : Int) (h : bucketKey options principal ∈ bucketsOf u)
    (hst : s.seenBy u = t.seenBy u) :
    let limit := s.limit mode options principal now
    let limit' := t.limit mode options principal now
    limit.1.headers = limit'.1.headers ∧ limit.1.error = limit'.1.error ∧
      limit.2.seenBy u = limit'.2.seenBy u := by
  obtain ⟨hrows, hbuckets, hup, hexchanges⟩ := seenBy_eq_iff.mp hst
  cases hs : s.redisUp with
  | false => simp only [limit_down hs, limit_down (hup ▸ hs), hst, and_self]
  | true =>
    have hspend : spend s options (bucketKey options principal) now =
        spend t options (bucketKey options principal) now := by
      simp only [spend, hbuckets _ h]
    obtain ⟨hheaders, herror, hstate⟩ := limit_up mode options principal now hs
    have ht : t.redisUp = true := hup ▸ hs
    obtain ⟨hheaders', herror', hstate'⟩ := limit_up mode options principal now ht
    refine ⟨by rw [hheaders, hheaders', hspend], by rw [herror, herror', hspend], ?_⟩
    rw [hstate, hstate', seenBy_eq_iff]
    refine ⟨hrows, ?_, hup, hexchanges⟩
    intro bucket hb
    simp only [Function.update_apply, hspend, hbuckets bucket hb]

theorem issue_seen (s : State) (result : Except Api.Failure Auth.Session × Auth.Store) :
    (s.issue now result).seenBy u = s.seenBy u := by
  obtain ⟨issued, hissued⟩ := issue_frame s now result
  rw [hissued]
  rfl

variable {http : Http} {request : Api.Request}

theorem principalText_auth {auth : Authenticated} (h : http.authenticated jwt now = some auth) :
    principalText (http.principal jwt now) = auth.2.tenantId := by
  simp only [principalText, Http.principal, h, Option.map_some]
  rfl

/-- Somebody else's request on an auth route. -/
theorem enter_hidden (env : Auth.Env) (operation : Operation) (failing : Bool)
    (hne : principalText (http.principal jwt now) ≠ u) :
    (s.enter jwt mode http env operation failing now).seenBy u = s.seenBy u := by
  have hauth : bucketKey authLimit (http.principal jwt now) ∉ bucketsOf u :=
    fun hb => hne ((bucket_mem (.inl rfl)).mp hb)
  have hapi : bucketKey apiLimit (http.principal jwt now) ∉ bucketsOf u :=
    fun hb => hne ((bucket_mem (.inr rfl)).mp hb)
  unfold State.enter
  dsimp only
  split
  · exact limit_hidden mode now hauth
  · split
    · exact (limit_hidden mode now hapi).trans (limit_hidden mode now hauth)
    · rw [issue_seen]
      exact (limit_hidden mode now hapi).trans (limit_hidden mode now hauth)

/-- The tenant's own request on an auth route, of which it sees what it is counted. -/
theorem enter_alike (env : Auth.Env) (operation : Operation) (failing : Bool)
    (hown : principalText (http.principal jwt now) = u) (hst : s.seenBy u = t.seenBy u) :
    (s.enter jwt mode http env operation failing now).seenBy u =
      (t.enter jwt mode http env operation failing now).seenBy u := by
  have hauth : bucketKey authLimit (http.principal jwt now) ∈ bucketsOf u :=
    (bucket_mem (.inl rfl)).mpr hown
  have hapi : bucketKey apiLimit (http.principal jwt now) ∈ bucketsOf u :=
    (bucket_mem (.inr rfl)).mpr hown
  obtain ⟨-, herror, hfirst⟩ := limit_alike mode now hauth hst
  obtain ⟨-, herror', hsecond⟩ := limit_alike mode now hapi hfirst
  unfold State.enter
  dsimp only
  rw [herror]
  split
  · exact hfirst
  · rw [herror']
    split
    · exact hsecond
    · rw [issue_seen, issue_seen]
      exact hsecond

/-- Somebody else's request on a tenant route. -/
theorem serve_hidden (mode : FailureMode) (request : Api.Request) (outage : Option Api.Outage)
    {env : Api.Env}
    (hne : principalText (http.principal jwt now) ≠ u)
    (hnew : ∀ auth, http.authenticated jwt now = some auth →
      Api.Fresh env (rest auth.2.tenantId s.store)) :
    (s.serve jwt mode http env request outage now).2.seenBy u = s.seenBy u := by
  have hapi : bucketKey apiLimit (http.principal jwt now) ∉ bucketsOf u :=
    fun hb => hne ((bucket_mem (.inr rfl)).mp hb)
  have hlimit := limit_hidden (s := s) mode now hapi
  obtain ⟨buckets, decided, hframe⟩ := limit_frame mode s apiLimit
    (http.principal jwt now) now
  unfold State.serve
  dsimp only
  split
  · exact hlimit
  · split
    · exact hlimit
    · rename_i auth hguard
      obtain ⟨hauth, -⟩ := canActivate_ok hguard
      have hother : u ≠ auth.2.tenantId :=
        fun heq => hne ((principalText_auth hauth).trans heq.symm)
      have hkept := Api.respondIn_keepsOthers { env with now }
        (callerOf auth http.requestId) outage request (fresh_at (hnew auth hauth) now)
      rw [← hlimit, hframe, seenBy_eq_iff]
      exact ⟨own_of_rest hkept hother, fun _ _ => rfl, rfl, rfl⟩

/-- The tenant's own request on a tenant route. -/
theorem serve_alike (mode : FailureMode) (request : Api.Request) (outage : Option Api.Outage)
    {env : Api.Env} {auth : Authenticated} (hauth : http.authenticated jwt now = some auth)
    (hown : auth.2.tenantId = u)
    (hst : s.seenBy u = t.seenBy u) (hs : Linked s.store) (ht : Linked t.store)
    (hnew : Api.Fresh env (rest u s.store)) (hnew' : Api.Fresh env (rest u t.store)) :
    (s.serve jwt mode http env request outage now).1 =
        (t.serve jwt mode http env request outage now).1 ∧
      (s.serve jwt mode http env request outage now).2.seenBy u =
        (t.serve jwt mode http env request outage now).2.seenBy u := by
  have hapi : bucketKey apiLimit (http.principal jwt now) ∈ bucketsOf u :=
    (bucket_mem (.inr rfl)).mpr ((principalText_auth hauth).trans hown)
  obtain ⟨hheaders, herror, hlimit⟩ := limit_alike mode now hapi hst
  obtain ⟨buckets, decided, hframe⟩ := limit_frame mode s apiLimit
    (http.principal jwt now) now
  obtain ⟨buckets', decided', hframe'⟩ := limit_frame mode t apiLimit
    (http.principal jwt now) now
  unfold State.serve
  dsimp only
  rw [herror, hheaders]
  split
  · exact ⟨rfl, hlimit⟩
  · split
    · exact ⟨rfl, hlimit⟩
    · rename_i auth' hguard
      obtain ⟨hauth', -⟩ := canActivate_ok hguard
      have hsame : auth = auth' := Option.some.inj (hauth.symm.trans hauth')
      subst hsame
      subst hown
      obtain ⟨hrows, -⟩ := seenBy_eq_iff.mp hst
      obtain ⟨hresult, hrows'⟩ := Api.respondIn_same { env with now }
        (callerOf auth http.requestId) outage request hrows hs ht (fresh_at hnew now)
        (fresh_at hnew' now)
      rw [hframe, hframe'] at hlimit ⊢
      obtain ⟨-, hbuckets, hup, hexchanges⟩ := seenBy_eq_iff.mp hlimit
      refine ⟨?_, seenBy_eq_iff.mpr ⟨hrows', hbuckets, hup, hexchanges⟩⟩
      dsimp only at hresult ⊢
      rw [hresult]

theorem text_of_own (h : principal.tenantId = some u) : principalText principal = u := by
  simp only [principalText, h]
  rfl

theorem text_of_other (hne : principal.tenantId ≠ some u)
    (hnone : principal.tenantId = none → principalText principal ≠ u) :
    principalText principal ≠ u := by
  cases h : principal.tenantId with
  | none => exact hnone h
  | some v =>
    rw [text_of_own h]
    exact fun heq => hne (heq ▸ h)

variable {a o : Action}

/-- What a tenant does not see changes nothing that it sees. -/
theorem step_hidden (ho : Orderly jwt u s a) (h : step jwt mode s a = some t)
    (hnone : seenAction jwt u a = none) : t.seenBy u = s.seenBy u := by
  obtain ⟨now, act⟩ := a
  cases act with
  | editAccounts accounts => cases h; rfl
  | redis up => cases hnone
  | change owner store =>
    cases h
    simp only [seenAction, ite_eq_right_iff, reduceCtorEq, imp_false] at hnone
    exact seenBy_eq_iff.mpr ⟨own_of_rest ho.1 (Ne.symm hnone), fun _ _ => rfl, rfl, rfl⟩
  | expire bucket =>
    simp only [seenAction, ite_eq_right_iff, reduceCtorEq, imp_false] at hnone
    simp only [step] at h
    split at h
    · split at h
      · cases h
        refine seenBy_eq_iff.mpr ⟨rfl, fun bucket' hb => ?_, rfl, rfl⟩
        have hne : bucket' ≠ bucket := fun heq => hnone (heq ▸ hb)
        exact Function.update_of_ne hne _ _
      · contradiction
    · contradiction
  | auth http env operation failing =>
    simp only [seenAction, ite_eq_right_iff, reduceCtorEq, imp_false] at hnone
    cases h
    exact enter_hidden (s := s) env operation failing (text_of_other hnone ho)
  | request http env request outage =>
    simp only [seenAction, ite_eq_right_iff, reduceCtorEq, imp_false] at hnone
    obtain rfl := step_request.mp h
    have hhidden := serve_hidden (s := s) mode request outage
      (text_of_other hnone ho.1) ho.2
    obtain ⟨hrows, hbuckets, hup, -⟩ := seenBy_eq_iff.mp hhidden
    refine seenBy_eq_iff.mpr ⟨hrows, hbuckets, hup, ?_⟩
    have hother : (exchangeOf jwt mode s http env request outage now).tenant ≠ some u := hnone
    rw [List.filter_append, List.filter_singleton, decide_eq_false hother]
    simp

/-- What a tenant sees does to what it sees what it would do alone. -/
theorem step_seen (hs : Linked s.store) (ho : Orderly jwt u s a) (h : step jwt mode s a = some t)
    (hseen : seenAction jwt u a = some o) :
    alone jwt mode u (s.seenBy u) o = some (t.seenBy u) := by
  unfold alone
  have halike : (s.seenBy u).seenBy u = s.seenBy u := by
    refine seenBy_eq_iff.mpr ⟨own_only, fun bucket hb => ?_, rfl, ?_⟩
    · simp [State.seenBy, hb]
    · simp [State.seenBy]
  obtain ⟨hrows, hbuckets, hup, hexchanges⟩ := seenBy_eq_iff.mp halike
  obtain ⟨now, act⟩ := a
  cases act with
  | editAccounts accounts => cases hseen
  | redis up =>
    cases hseen
    cases h
    exact congrArg some (seenBy_eq_iff.mpr ⟨hrows, hbuckets, rfl, hexchanges⟩)
  | change owner store =>
    simp only [seenAction, Option.ite_none_right_eq_some, Option.some.injEq] at hseen
    obtain ⟨rfl, rfl⟩ := hseen
    cases h
    exact congrArg some (seenBy_eq_iff.mpr ⟨own_only, hbuckets, hup, hexchanges⟩)
  | expire bucket =>
    simp only [seenAction, Option.ite_none_right_eq_some, Option.some.injEq] at hseen
    obtain ⟨hmem, rfl⟩ := hseen
    simp only [step] at h ⊢
    rw [hbuckets bucket hmem]
    split at h
    · split at h
      · rename_i hdue
        cases h
        simp only [if_pos hdue, Option.map_some, Option.some.injEq]
        refine seenBy_eq_iff.mpr ⟨hrows, fun bucket' hb => ?_, hup, hexchanges⟩
        simp only [Function.update_apply, hbuckets bucket' hb]
      · contradiction
    · contradiction
  | auth http env operation failing =>
    simp only [seenAction, Option.ite_none_right_eq_some, Option.some.injEq] at hseen
    obtain ⟨hown, rfl⟩ := hseen
    cases h
    exact congrArg some (enter_alike env operation failing (text_of_own hown) halike)
  | request http env request outage =>
    simp only [seenAction, Option.ite_none_right_eq_some, Option.some.injEq] at hseen
    obtain ⟨hown, rfl⟩ := hseen
    obtain rfl := step_request.mp h
    obtain ⟨auth, hauth, htenant⟩ := Option.map_eq_some_iff.mp hown
    have hnew := htenant ▸ ho.2 auth hauth
    have hnew' : Api.Fresh env (rest u (s.seenBy u).store) := by
      change Api.Fresh env (rest u (only u s.store))
      rw [rest_only]
      constructor <;> intro r hr <;> cases hr
    obtain ⟨hreply, hserve⟩ := serve_alike mode request outage hauth htenant halike
      (Api.Links.linked_only hs) hs hnew' hnew
    obtain ⟨hrows, hbuckets, hup, -⟩ := seenBy_eq_iff.mp hserve
    rw [step_request.mpr rfl, Option.map_some]
    refine congrArg some (seenBy_eq_iff.mpr ⟨hrows, hbuckets, hup, ?_⟩)
    have hsame : exchangeOf jwt mode (s.seenBy u) http env request outage now =
        exchangeOf jwt mode s http env request outage now := by
      simp only [exchangeOf, hreply]
    simp only [hsame, List.filter_append, hexchanges]

end

end WaOps.Server
