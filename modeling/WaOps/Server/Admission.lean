import WaOps.Server.Authority

namespace WaOps.Server
open Lib Lib.Jwt Lib.Runs Lib.TokenBucket
open Auth (Claims)
open RateLimit (FailureMode Principal RateLimitOptions bucketKey)

/-- The rate at which a limiter's buckets refill, per millisecond. -/
def refill (options : RateLimitOptions) : ℚ :=
  options.capacity / options.windowMs

/-- What was decided at a bucket. -/
def decidedAt (bucket : String) (decided : List (String × ℚ × Bool)) : List (ℚ × Bool) :=
  (decided.filter (fun d => d.1 = bucket)).map Prod.snd

def attemptsOf (principal : String) (attempts : List (String × ℚ)) : List ℚ :=
  (attempts.filter (fun a => a.1 = principal)).map Prod.snd

/-- The auth bucket of a principal. -/
def authBucket (principal : String) : String :=
  "rl:auth:" ++ principal

/-- Time does not run backwards, and on an auth route the limiter has Redis to ask or lets nobody
through without it. -/
def Limited (mode : FailureMode) (s : State) (a : Action) : Prop :=
  s.now ≤ a.now ∧ ∀ http env operation failing,
    a.act = .auth http env operation failing →
      mode = .failClosed ∨ s.redisUp = true

/-- A bucket has gone through a run of the limiter's script that ended before a time and decided
what was decided at it. -/
def Traced (options : RateLimitOptions) (bucket : String) (start time : ℚ) (s : State) : Prop :=
  ∃ events v, exec (RateLimit.step options.capacity (refill options)) { clock := start } events =
      some v ∧ v.key = s.buckets bucket ∧ v.clock ≤ time ∧ v.log = decidedAt bucket s.decided

/-- Every attempt of a principal was allowed at its auth bucket. -/
def Allowed (principal : String) (s : State) : Prop :=
  (attemptsOf principal s.attempts).Sublist
    (((decidedAt (authBucket principal) s.decided).filter Prod.snd).map Prod.fst)

section
variable {jwt : JwtService Claims} {mode : FailureMode} {s t : State} {bucket p : String}
  {options : RateLimitOptions} {principal : Principal} {now : Int} {start time : ℚ}

theorem authBucket_eq : bucketKey authLimit principal = authBucket (principalText principal) := by
  have h : bucketKey authLimit principal = "rl:" ++ "auth" ++ ":" ++ principalText principal := rfl
  rw [h, authBucket, ← String.toList_inj]
  simp

theorem authBucket_inj : authBucket p = authBucket q ↔ p = q := by
  simp [authBucket, ← String.toList_inj]

theorem apiBucket_ne : bucketKey apiLimit principal ≠ authBucket p := by
  have h : bucketKey apiLimit principal = "rl:" ++ "api" ++ ":" ++ principalText principal := rfl
  rw [h, authBucket]
  simp [← String.toList_inj]

theorem decidedAt_own {decided : List (String × ℚ × Bool)} {d : ℚ × Bool} :
    decidedAt bucket (decided ++ [(bucket, d)]) = decidedAt bucket decided ++ [d] := by
  simp [decidedAt]

theorem decidedAt_other {decided : List (String × ℚ × Bool)} {other : String} {d : ℚ × Bool}
    (h : other ≠ bucket) :
    decidedAt bucket (decided ++ [(other, d)]) = decidedAt bucket decided := by
  simp [decidedAt, h]

/-- The script's turn at the bucket. -/
theorem Traced.own (h : Traced options (bucketKey options principal) start now s)
    (hup : s.redisUp = true) : Traced options (bucketKey options principal) start now
      (s.limit mode options principal now).2 := by
  obtain ⟨events, v, hrun, hkey, hclock, hlog⟩ := h
  obtain ⟨-, -, hstate⟩ := limit_up mode options principal now hup
  refine ⟨events ++ [.request now], _, exec_snoc hrun (RateLimit.request_step hclock), ?_, le_rfl,
    ?_⟩
  · rw [hstate]
    dsimp only
    rw [Function.update_self, hkey]
    rfl
  · rw [hstate, decidedAt_own, hlog, hkey]
    rfl

/-- The script's turn at another bucket. -/
theorem Traced.other (h : Traced options bucket start time s) {options' : RateLimitOptions}
    (hup : s.redisUp = true) (hne : bucketKey options' principal ≠ bucket) :
    Traced options bucket start time (s.limit mode options' principal now).2 := by
  obtain ⟨events, v, hrun, hkey, hclock, hlog⟩ := h
  obtain ⟨-, -, hstate⟩ := limit_up mode options' principal now hup
  rw [hstate]
  refine ⟨events, v, hrun, ?_, hclock, ?_⟩
  · dsimp only
    rw [Function.update_of_ne hne.symm, hkey]
  · rw [decidedAt_other hne, hlog]

theorem Traced.later (h : Traced options bucket start time s) {later : ℚ} (hle : time ≤ later) :
    Traced options bucket start later s := by
  obtain ⟨events, v, hrun, hkey, hclock, hlog⟩ := h
  exact ⟨events, v, hrun, hkey, hclock.trans hle, hlog⟩

/-- Redis drops the bucket at or after its deadline. -/
theorem Traced.dropped (h : Traced options bucket start now s) {key : RateLimit.Key}
    (hkey : s.buckets bucket = some key) (hdeadline : key.expireAt ≤ now) :
    Traced options bucket start now
      { s with buckets := Function.update s.buckets bucket none } := by
  obtain ⟨events, v, hrun, hheld, hclock, hlog⟩ := h
  have hstep : RateLimit.step options.capacity (refill options) v (.vanish now) =
      some { v with key := none, clock := now } := by
    simp only [RateLimit.step, RateLimit.Event.time, not_lt.mpr hclock, if_false, hheld, hkey,
      hdeadline, if_true]
  have hnone : (none : Option RateLimit.Key) = Function.update s.buckets bucket none bucket := by
    rw [Function.update_self]
  exact ⟨events ++ [.vanish now], { v with key := none, clock := now }, exec_snoc hrun hstep, hnone,
    le_rfl, hlog⟩

theorem Traced.kept (h : Traced options bucket start time s) {other : String}
    (hne : other ≠ bucket) :
    Traced options bucket start time
      { s with buckets := Function.update s.buckets other none } := by
  obtain ⟨events, v, hrun, hkey, hclock, hlog⟩ := h
  refine ⟨events, v, hrun, ?_, hclock, hlog⟩
  rw [hkey]
  exact (Function.update_of_ne hne.symm ..).symm

/-- A limiter's turn at any bucket. -/
theorem Traced.auth (mode : FailureMode) (principal : Principal)
    (h : Traced authLimit (authBucket p) start now s) :
    Traced authLimit (authBucket p) start now (s.limit mode authLimit principal now).2 := by
  cases hup : s.redisUp with
  | false =>
    rw [limit_down hup]
    exact h
  | true =>
    by_cases hp : principalText principal = p
    · have hbucket : bucketKey authLimit principal = authBucket p := by
        rw [authBucket_eq, hp]
      rw [← hbucket] at h ⊢
      exact h.own hup
    · refine h.other hup ?_
      rw [authBucket_eq]
      exact fun hsame => hp (authBucket_inj.mp hsame)

theorem Traced.api (mode : FailureMode) (principal : Principal)
    (h : Traced authLimit (authBucket p) start now s) :
    Traced authLimit (authBucket p) start now (s.limit mode apiLimit principal now).2 := by
  cases hup : s.redisUp with
  | false =>
    rw [limit_down hup]
    exact h
  | true => exact h.other hup apiBucket_ne

/-- A limiter takes no decision back. -/
theorem limit_decided (s : State) (options : RateLimitOptions) (principal : Principal)
    (now : Int) : s.decided.Sublist (s.limit mode options principal now).2.decided := by
  cases hup : s.redisUp with
  | false => rw [limit_down hup]
  | true =>
    obtain ⟨-, -, hstate⟩ := limit_up mode options principal now hup
    rw [hstate]
    exact List.sublist_append_left _ _

theorem Allowed.mono (h : Allowed p s) (hattempts : t.attempts = s.attempts)
    (hdecided : s.decided.Sublist t.decided) : Allowed p t := by
  unfold Allowed
  rw [hattempts]
  exact h.trans ((((hdecided.filter _).map _).filter _).map _)

theorem Allowed.limit (h : Allowed p s) : Allowed p (s.limit mode options principal now).2 := by
  refine h.mono ?_ (limit_decided s options principal now)
  obtain ⟨buckets, decided, hframe⟩ := limit_frame mode s options principal now
  rw [hframe]

/-- A request that the auth limiter lets through was allowed at its bucket, unless the limiter
lets requests through that it cannot ask about. -/
theorem limit_allowed (hasked : mode = .failClosed ∨ s.redisUp = true)
    (hpass : (s.limit mode authLimit principal now).1.error = none) :
    (s.limit mode authLimit principal now).2.decided =
      s.decided ++ [(authBucket (principalText principal), (now : ℚ), true)] := by
  cases hup : s.redisUp with
  | false =>
    obtain rfl : mode = .failClosed := hasked.resolve_right (by simp [hup])
    rw [limit_down hup] at hpass
    cases hpass
  | true =>
    obtain ⟨-, herror, hstate⟩ := limit_up mode authLimit principal now hup
    rw [hpass] at herror
    rw [hstate, ← authBucket_eq]
    cases hspend : (spend s authLimit (bucketKey authLimit principal) now).1.allowed with
    | true => rfl
    | false => simp [hspend] at herror

/-- An attempt is charged to the bucket of the principal that makes it. -/
theorem Allowed.attempt (h : Allowed p s) (now : Int) (q : String)
    (hattempts : t.attempts = s.attempts ++ [(q, (now : ℚ))])
    (hdecided : (s.decided ++ [(authBucket q, (now : ℚ), true)]).Sublist t.decided) :
    Allowed p t := by
  have hcharged : (attemptsOf p t.attempts).Sublist (((decidedAt (authBucket p)
      (s.decided ++ [(authBucket q, (now : ℚ), true)])).filter Prod.snd).map Prod.fst) := by
    rw [hattempts]
    by_cases hq : q = p
    · subst hq
      rw [decidedAt_own]
      simp only [attemptsOf, List.filter_append, List.map_append]
      refine List.Sublist.append h ?_
      simp
    · rw [decidedAt_other (fun hsame => hq (authBucket_inj.mp hsame))]
      simp only [attemptsOf, List.filter_append, List.map_append]
      simpa [hq, Allowed, attemptsOf] using h
  exact hcharged.trans ((((hdecided.filter _).map _).filter _).map _)

theorem issued_charged {result : Except Api.Failure Auth.Session × Auth.Store}
    (htraced : Traced options bucket start time s) (hallowed : Allowed p s) :
    Traced options bucket start time (s.issue now result) ∧ Allowed p (s.issue now result) := by
  obtain ⟨issued, hissued⟩ := issue_frame s now result
  rw [hissued]
  exact ⟨htraced, hallowed⟩

/-- What an auth route makes of it. -/
theorem enter_charged {http : Http} {env : Auth.Env} {operation : Operation} {failing : Bool}
    (htraced : Traced authLimit (authBucket p) start now s) (hallowed : Allowed p s)
    (hasked : mode = .failClosed ∨ s.redisUp = true) :
    Traced authLimit (authBucket p) start now (s.enter jwt mode http env operation failing now) ∧
      Allowed p (s.enter jwt mode http env operation failing now) := by
  have hfirst := htraced.auth mode (http.principal jwt now)
  have hsecond := hfirst.api mode (http.principal jwt now)
  unfold State.enter
  dsimp only
  split
  · exact ⟨hfirst, hallowed.limit⟩
  · rename_i hpass
    split
    · exact ⟨hsecond, hallowed.limit.limit⟩
    · refine issued_charged hsecond
        (hallowed.attempt now (principalText (http.principal jwt now)) ?_ ?_)
      · obtain ⟨buckets, decided, hframe⟩ := limit_frame mode s authLimit
          (http.principal jwt now) now
        obtain ⟨buckets', decided', hframe'⟩ := limit_frame mode
          (s.limit mode authLimit (http.principal jwt now) now).2 apiLimit
          (http.principal jwt now) now
        dsimp only
        rw [hframe', hframe]
      · rw [← limit_allowed hasked hpass]
        exact limit_decided _ _ _ _

/-- What an action makes of it. -/
theorem step_charged {a : Action} (htraced : Traced authLimit (authBucket p) start s.now s)
    (hallowed : Allowed p s) (hl : Limited mode s a) (hs : step jwt mode s a = some t) :
    Traced authLimit (authBucket p) start t.now t ∧ Allowed p t := by
  obtain ⟨hnow, hasked⟩ := hl
  have hlater : (s.now : ℚ) ≤ a.now := Int.cast_le.mpr hnow
  have hready := htraced.later hlater
  obtain ⟨now, act⟩ := a
  cases act with
  | editAccounts accounts => cases hs; exact ⟨hready, hallowed⟩
  | change owner store => cases hs; exact ⟨hready, hallowed⟩
  | redis up => cases hs; exact ⟨hready, hallowed⟩
  | expire bucket =>
    simp only [step] at hs
    split at hs
    · rename_i key hkey
      split at hs
      · rename_i hdeadline
        cases hs
        refine ⟨?_, hallowed⟩
        by_cases hbucket : bucket = authBucket p
        · subst hbucket
          exact hready.dropped hkey hdeadline
        · exact hready.kept hbucket
      · contradiction
    · contradiction
  | auth http env operation failing =>
    cases hs
    exact enter_charged hready hallowed (hasked http env operation failing rfl)
  | request http env request outage =>
    obtain rfl := step_request.mp hs
    obtain ⟨store, hserved⟩ := serve_limited jwt mode s http env request outage now
    rw [hserved]
    exact ⟨hready.api mode _, hallowed.limit⟩

/-- In a run of the script on a bucket that starts full, a window admits at most the capacity and
its refill. -/
theorem Traced.admits (h : Traced options bucket start time s) (hcap : 0 ≤ options.capacity)
    (hrate : 0 < refill options) {t₁ t₂ : ℚ} (hwindow : t₁ ≤ t₂) :
    (admitted t₁ t₂ (decidedAt bucket s.decided) : ℚ) ≤
      options.capacity + refill options * (t₂ - t₁) := by
  obtain ⟨events, v, hrun, -, -, hlog⟩ := h
  have hfresh : RateLimit.Stands options.capacity (refill options) { clock := start }
      ⟨options.capacity, start⟩ := by
    refine ⟨le_rfl, hcap, ?_, ?_⟩
    · intro key hkey
      cases hkey
    · intro _ now _
      have hrefill : 0 ≤ max 0 (now - start) * refill options :=
        mul_nonneg (le_max_left _ _) hrate.le
      exact min_eq_left (by linarith)
  have hdecisions := RateLimit.run_log hcap hrate hfresh hrun
  have hsorted : (start :: RateLimit.requestTimes events).Pairwise (· ≤ ·) :=
    (RateLimit.times_sorted hrun).sublist ((List.filter_sublist.map _).cons_cons _)
  have hle : 1 * (admitted t₁ t₂ (decisions options.capacity (refill options) 1
      ⟨options.capacity, start⟩ (RateLimit.requestTimes events)) : ℚ) ≤
      options.capacity + (t₂ - t₁) * refill options :=
    admitted_le hcap hrate.le zero_le_one hcap hsorted hwindow
  rw [← hlog, hdecisions, List.nil_append]
  linarith

/-- A window holds no more attempts than it was allowed. -/
theorem Allowed.counted (h : Allowed p s) (t₁ t₂ : ℚ) :
    ((attemptsOf p s.attempts).filter (fun time => t₁ ≤ time ∧ time ≤ t₂)).length ≤
      admitted t₁ t₂ (decidedAt (authBucket p) s.decided) := by
  have hle := (h.filter (fun time => decide (t₁ ≤ time ∧ time ≤ t₂))).length_le
  rw [List.filter_map, List.length_map, List.filter_filter] at hle
  refine hle.trans_eq ?_
  unfold admitted
  congr 1
  apply List.filter_congr
  intro d _
  simp [Bool.and_comm]

/-- In every run, whatever the window, the handlers of the auth routes run for one principal at
most ten times and once more for every six seconds. -/
theorem attempts_bounded (p : String) (hbuckets : s.buckets = fun _ => none)
    (hdecided : s.decided = []) (hattempts : s.attempts = [])
    (hm : Meets (step jwt mode) (Limited mode) s as) (hrun : exec (step jwt mode) s as = some t)
    {t₁ t₂ : ℚ} (hwindow : t₁ ≤ t₂) :
    (((attemptsOf p t.attempts).filter (fun time => t₁ ≤ time ∧ time ≤ t₂)).length : ℚ) ≤
      10 + (t₂ - t₁) / 6000 := by
  have htraced : Traced authLimit (authBucket p) s.now s.now s :=
    ⟨[], { clock := s.now }, rfl, by rw [hbuckets], le_rfl, by rw [hdecided]; rfl⟩
  have hallowed : Allowed p s := by
    unfold Allowed
    rw [hattempts]
    exact List.nil_sublist _
  obtain ⟨htraced, hallowed⟩ := (always_of_meets
    (I := fun u => Traced authLimit (authBucket p) s.now u.now u ∧ Allowed p u)
    (fun u a v h hl hs => step_charged h.1 h.2 hl hs) ⟨htraced, hallowed⟩ hm).last hrun
  have hcap : (0 : ℚ) ≤ authLimit.capacity := by norm_num [authLimit]
  have hrate : 0 < refill authLimit := by norm_num [refill, authLimit]
  have hadmits := htraced.admits hcap hrate hwindow
  have hcounted : (((attemptsOf p t.attempts).filter
      (fun time => t₁ ≤ time ∧ time ≤ t₂)).length : ℚ) ≤
      admitted t₁ t₂ (decidedAt (authBucket p) t.decided) :=
    Nat.cast_le.mpr (hallowed.counted t₁ t₂)
  have hrefill : (authLimit.capacity : ℚ) + refill authLimit * (t₂ - t₁) =
      10 + (t₂ - t₁) / 6000 := by
    norm_num [refill, authLimit]
    ring
  linarith

end

/-- A second attempt of one principal, a second after the first. -/
def triesAgain : Action :=
  ⟨1000, .auth {} Auth.plainEnv (.login none) false⟩

theorem two_attempts : ∃ t, exec (step unaryService .failClosed)
      { freshServer with redisUp := true } [signsUp, triesAgain] = some t ∧
    (((attemptsOf "anonymous" t.attempts).filter
      (fun time => (0 : ℚ) ≤ time ∧ time ≤ 6000)).length : ℚ) ≤ 10 + (6000 - 0) / 6000 := by
  have hm : Meets (step unaryService .failClosed) (Limited .failClosed)
      { freshServer with redisUp := true } [signsUp, triesAgain] := by
    intro u hu
    cases hu
    exact ⟨⟨le_rfl, fun _ _ _ _ _ => .inl rfl⟩,
      fun t _ => ⟨⟨by decide, fun _ _ _ _ _ => .inl rfl⟩, trivial⟩⟩
  obtain ⟨u, hu⟩ : ∃ u, step unaryService .failClosed { freshServer with redisUp := true }
      signsUp = some u := ⟨_, rfl⟩
  obtain ⟨t, ht⟩ : ∃ t, step unaryService .failClosed u triesAgain = some t := ⟨_, rfl⟩
  have hrun : exec (step unaryService .failClosed) { freshServer with redisUp := true }
      [signsUp, triesAgain] = some t := by
    rw [exec_of_step hu, exec_of_step ht]
    rfl
  exact ⟨t, hrun, attempts_bounded "anonymous" rfl rfl rfl hm hrun (by norm_num)⟩

end WaOps.Server
