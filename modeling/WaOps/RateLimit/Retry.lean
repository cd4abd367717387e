import WaOps.RateLimit.Window

namespace WaOps.RateLimit
open Lib.Runs Lib.TokenBucket

structure RateLimitOptions where
  routeClass : String
  capacity : ℚ
  windowMs : ℚ
  message : Option String := none

inductive FailureMode where
  | failOpen
  | failClosed
  deriving DecidableEq, Repr

/-- The caller's tenant context and `req.ip`. -/
structure Principal where
  tenantId : Option String := none
  ip : Option String := none

inductive Redis where
  /-- No REDIS_URL is configured. -/
  | absent
  | unavailable
  | reachable (buckets : String → Option Key)

structure RateLimitedDetails where
  routeClass : String
  retryAfterSeconds : ℤ
  deriving DecidableEq, Repr

structure ApiError where
  code : String
  message : String
  status : ℕ
  details : Option RateLimitedDetails := none
  deriving DecidableEq, Repr

/-- RateLimit-Limit, RateLimit-Remaining, RateLimit-Reset and Retry-After. -/
structure Headers where
  limit : ℚ
  remaining : ℚ
  reset : ℤ
  retryAfter : Option ℤ
  deriving DecidableEq, Repr

structure Response where
  /-- None when the store's failure was thrown before any header was set. -/
  headers : Option Headers
  /-- What is thrown; without one the request is passed on. -/
  error : Option ApiError
  redis : Redis

def retryAfterSeconds (resetMs : ℤ) : ℤ :=
  max 1 ⌈(resetMs : ℚ) / 1000⌉

def headersOf (capacity : ℚ) (allowed : Bool) (remaining : ℚ) (resetMs : ℤ) : Headers :=
  { limit := capacity
    remaining := if allowed then remaining else 0
    reset := max 0 ⌈(resetMs : ℚ) / 1000⌉
    retryAfter := if allowed then none else some (retryAfterSeconds resetMs) }

def bucketKey (options : RateLimitOptions) (principal : Principal) : String :=
  "rl:" ++ options.routeClass ++ ":" ++
    (principal.tenantId.orElse fun _ => principal.ip).getD "anonymous"

def rateLimited (options : RateLimitOptions) (resetMs : ℤ) : ApiError :=
  { code := "rate_limited"
    message := options.message.getD "too many requests"
    status := 429
    details := some
      { routeClass := options.routeClass, retryAfterSeconds := retryAfterSeconds resetMs } }

/-- The end of `use`, once the bucket has answered or was not asked. -/
def respond (options : RateLimitOptions) (allowed : Bool) (remaining : ℚ) (resetMs : ℤ)
    (redis : Redis) : Response :=
  { headers := some (headersOf options.capacity allowed remaining resetMs)
    error := if allowed then none else some (rateLimited options resetMs)
    redis }

/-- RateLimitMiddleware.use -/
def use (options : RateLimitOptions) (failureMode : FailureMode) (redis : Redis)
    (principal : Principal) (dateNow : ℚ) : Response :=
  match redis with
  | .absent => respond options true options.capacity 0 redis
  | .unavailable =>
    match failureMode with
    | .failClosed =>
      { headers := none
        error := some
          { code := "dependency_unavailable"
            message := "rate limit store unavailable"
            status := 503 }
        redis }
    | .failOpen => respond options true options.capacity 0 redis
  | .reachable buckets =>
    let key := bucketKey options principal
    let (answer, left) :=
      tokenBucket options.capacity (options.capacity / options.windowMs) dateNow 1 (buckets key)
    respond options answer.allowed answer.remaining answer.ttlMs
      (.reachable fun k => if k = key then some left else buckets k)

def Redis.bucket : Redis → String → Option Key
  | .reachable buckets => buckets
  | _ => fun _ => none

/-- The request that is let through or refused is the one the script answers, and no other
bucket changes. -/
theorem use_reachable (options : RateLimitOptions) (failureMode : FailureMode)
    (buckets : String → Option Key) (principal : Principal) (dateNow : ℚ) :
    let answer := (tokenBucket options.capacity (options.capacity / options.windowMs) dateNow 1
      (buckets (bucketKey options principal))).1
    let response := use options failureMode (.reachable buckets) principal dateNow
    response.headers =
        some (headersOf options.capacity answer.allowed answer.remaining answer.ttlMs) ∧
      (response.error = none ↔ answer.allowed = true) ∧
      ∀ k, k ≠ bucketKey options principal → response.redis.bucket k = buckets k := by
  intro answer response
  refine ⟨rfl, ?_, ?_⟩
  · show (if answer.allowed = true then none else _) = none ↔ _
    split
    · rename_i h
      exact ⟨fun _ => h, fun _ => rfl⟩
    · rename_i h
      exact ⟨fun hnone => (Option.some_ne_none _ hnone).elim, fun ha => absurd ha h⟩
  · intro k hk
    exact if_neg hk

variable {capacity rate now : ℚ} {key : Option Key} {s t : State} {e : Event} {events : List Event}
  {b : Bucket ℚ}

/-- A state in which the key is the one the script left at a time. -/
def stateAt (now : ℚ) (key : Key) : State :=
  { key := some key, clock := now }

/-- What the script answers is read off the bucket's level. -/
theorem tokenBucket_answer (capacity rate now cost : ℚ) (key : Option Key) :
    let level := level capacity rate (bucketOf capacity now key) now
    tokenBucket capacity rate now cost key =
      ({ allowed := decide (cost ≤ level)
         remaining := ⌊if cost ≤ level then level - cost else level⌋
         ttlMs := if cost ≤ level then 0 else ⌈(cost - level) / rate⌉ },
       { tokens := if cost ≤ level then level - cost else level
         ts := now
         expireAt := now + ttlSeconds capacity rate * 1000 }) := by
  intro level
  have hlevel : min capacity ((key.elim (capacity, now) fun k => (k.tokens, k.ts)).1 +
      elapsed now (key.elim (capacity, now) fun k => (k.tokens, k.ts)).2 * rate) = level := by
    cases key with
    | none => simp [level, bucketOf, Lib.TokenBucket.level, elapsed]
    | some k => simp [level, bucketOf, Lib.TokenBucket.level, elapsed_eq]
  dsimp only [tokenBucket, ge_iff_le]
  rw [hlevel]
  split <;> rfl

/-- A request that is not stamped behind the clock is answered. -/
theorem request_step (h : s.clock ≤ now) :
    step capacity rate s (.request now) = some
      { key := some (tokenBucket capacity rate now 1 s.key).2
        clock := now
        log := s.log ++ [(now, (tokenBucket capacity rate now 1 s.key).1.allowed)] } :=
  if_neg (not_lt.mpr h)

/-- At one instant a key lets through as many requests as it holds whole tokens. -/
theorem exec_same_instant (capacity rate now : ℚ) (m : ℕ) (tokens expireAt : ℚ)
    (log : List (ℚ × Bool)) (hcap : tokens ≤ capacity) (hlow : m ≤ tokens)
    (hhigh : tokens < m + 1) :
    ∃ t, exec (step capacity rate) { key := some ⟨tokens, now, expireAt⟩, clock := now, log }
        (List.replicate (m + 1) (.request now)) = some t ∧
      t.log = log ++ (List.replicate m (now, true) ++ [(now, false)]) := by
  induction m generalizing tokens expireAt log with
  | zero =>
    have hlevel : level capacity rate (bucketOf capacity now (some ⟨tokens, now, expireAt⟩)) now =
        tokens := level_at_stamp hcap
    have hdenied : ¬(1 : ℚ) ≤ tokens := by
      push_cast at hhigh
      linarith
    refine ⟨_, exec_of_step (request_step le_rfl), ?_⟩
    simp [tokenBucket_answer, hlevel, hdenied]
  | succ m ih =>
    have hlevel : level capacity rate (bucketOf capacity now (some ⟨tokens, now, expireAt⟩)) now =
        tokens := level_at_stamp hcap
    push_cast at hlow hhigh
    have hallowed : (1 : ℚ) ≤ tokens := by
      have : (0 : ℚ) ≤ m := Nat.cast_nonneg m
      linarith
    rw [List.replicate_succ, exec_of_step (request_step le_rfl)]
    simp only [tokenBucket_answer, hlevel, hallowed, if_true, decide_true]
    obtain ⟨t, ht, hlog⟩ := ih (tokens - 1)
      (now + ttlSeconds capacity rate * 1000) (log ++ [(now, true)]) (by linarith) (by linarith)
      (by linarith)
    refine ⟨t, ht, ?_⟩
    rw [hlog, List.replicate_succ, List.cons_append, List.append_assoc]
    rfl

/-- What happens to the key between an answer and the next request that is let through: denied
requests, and expiry unless the bucket is overdrawn, which no answer leaves it. -/
def Quiet (capacity rate tokens : ℚ) (s : State) : Event → Prop
  | .request now => (tokenBucket capacity rate now 1 s.key).1.allowed = false
  | .vanish _ => 0 ≤ tokens

instance Quiet.decidable (capacity rate tokens : ℚ) (s : State) :
    ∀ e, Decidable (Quiet capacity rate tokens s e)
  | .request now =>
    inferInstanceAs (Decidable ((tokenBucket capacity rate now 1 s.key).1.allowed = false))
  | .vanish _ => inferInstanceAs (Decidable (0 ≤ tokens))

/-- The key is worth what the bucket is worth, which was left when it was denied. -/
structure Waits (capacity rate : ℚ) (b : Bucket ℚ) (s : State) : Prop where
  stamped : b.ts ≤ s.clock
  held : ∀ k, s.key = some k → k.ts ≤ s.clock ∧ b.ts + capacity / rate ≤ k.expireAt
  worth : ∀ later, s.clock ≤ later →
    level capacity rate (bucketOf capacity later s.key) later = level capacity rate b later

theorem level_without_key (capacity rate later : ℚ) :
    level capacity rate (bucketOf capacity later none) later = capacity := by
  simp [bucketOf, level]

theorem Waits.denied (h : Waits capacity rate b s) (hcap : 1 ≤ capacity) (hrate : 0 < rate)
    (hs : step capacity rate s (.request now) = some t)
    (hdenied : (tokenBucket capacity rate now 1 s.key).1.allowed = false) :
    Waits capacity rate b t := by
  obtain ⟨hnow, rfl⟩ := step_request hs
  obtain ⟨hallowed, hkey⟩ := tokenBucket_spends capacity rate now 1 s.key
  have hlow : ¬(1 : ℚ) ≤ level capacity rate (bucketOf capacity now s.key) now :=
    of_decide_eq_false (hallowed.symm.trans hdenied)
  refine ⟨h.stamped.trans hnow, ?_, ?_⟩
  · intro k hk
    cases hk
    have hlate : now + capacity / rate ≤ (tokenBucket capacity rate now 1 s.key).2.expireAt :=
      expireAt_late now 1 s.key
    have hstamp := h.stamped
    exact ⟨le_rfl, by linarith⟩
  · intro later hlater
    have hread : bucketOf capacity later (some (tokenBucket capacity rate now 1 s.key).2) =
        spend capacity rate 1 (bucketOf capacity now s.key) now := hkey
    rw [hread, ← h.worth later (hnow.trans hlater)]
    cases hk : s.key with
    | none =>
      rw [hk, level_without_key] at hlow
      exact absurd hcap hlow
    | some k =>
      rw [hk] at hlow
      exact spend_level_denied hrate.le ((h.held k hk).1.trans hnow) hlater hlow

theorem Waits.vanish (h : Waits capacity rate b s) (hrate : 0 < rate) (hb : 0 ≤ b.tokens)
    (hs : step capacity rate s (.vanish now) = some t) : Waits capacity rate b t := by
  obtain ⟨hnow, k, hk, hd, rfl⟩ := step_vanish hs
  have hdeadline := (h.held k hk).2
  refine ⟨h.stamped.trans hnow, ?_, ?_⟩
  · intro k' hk'
    cases hk'
  · intro later hlater
    dsimp only at hlater
    rw [level_without_key, level_full hrate hb (by linarith)]

theorem Waits.run (h : Waits capacity rate b s) (hcap : 1 ≤ capacity) (hrate : 0 < rate)
    (hquiet : Meets (step capacity rate) (Quiet capacity rate b.tokens) s events)
    (hrun : exec (step capacity rate) s events = some t) : Waits capacity rate b t := by
  refine (always_of_meets ?_ h hquiet).last hrun
  intro u e v hu hq hs
  cases e with
  | request now => exact hu.denied hcap hrate hs hq
  | vanish now => exact hu.vanish hrate hq hs

/-- A denied bucket is worth a token again from the wait on, and not before. -/
theorem level_after_wait (hcap : 1 ≤ capacity) (hrate : 0 < rate) {tokens d : ℚ}
    (hd : 0 ≤ d) :
    1 ≤ level capacity rate ⟨tokens, now⟩ (now + d) ↔ (1 - tokens) / rate ≤ d := by
  unfold level
  rw [add_sub_cancel_left, max_eq_right hd, le_min_iff, div_le_iff₀ hrate]
  constructor
  · rintro ⟨-, h⟩
    linarith
  · intro h
    exact ⟨hcap, by linarith⟩

/-- After a denial the key the script left is read as the bucket it left. -/
theorem waits_after (capacity rate now : ℚ) (key : Option Key) :
    let left := (tokenBucket capacity rate now 1 key).2
    Waits capacity rate ⟨left.tokens, now⟩ (stateAt now left) := by
  refine ⟨le_rfl, ?_, ?_⟩
  · intro k hk
    cases hk
    exact ⟨le_rfl, expireAt_late now 1 key⟩
  · intro later _
    rfl

theorem denied_left (hdenied : (tokenBucket capacity rate now 1 key).1.allowed = false) :
    (tokenBucket capacity rate now 1 key).1.ttlMs =
      ⌈(1 - (tokenBucket capacity rate now 1 key).2.tokens) / rate⌉ := by
  rw [tokenBucket_answer] at hdenied ⊢
  have hlow := of_decide_eq_false hdenied
  simp only [if_neg hlow]

/-- What is left is worth the remaining whole tokens and less than one more. -/
theorem allowed_left (hallowed : (tokenBucket capacity rate now 1 key).1.allowed = true) :
    ∃ m : ℕ, (tokenBucket capacity rate now 1 key).1.remaining = m ∧
      (m : ℚ) ≤ (tokenBucket capacity rate now 1 key).2.tokens ∧
      (tokenBucket capacity rate now 1 key).2.tokens < m + 1 ∧
      (tokenBucket capacity rate now 1 key).2.tokens ≤ capacity := by
  rw [tokenBucket_answer] at hallowed ⊢
  have hpaid : 1 ≤ level capacity rate (bucketOf capacity now key) now :=
    of_decide_eq_true hallowed
  simp only [if_pos hpaid]
  have hcap : level capacity rate (bucketOf capacity now key) now ≤ capacity := level_le_cap
  obtain ⟨m, hm⟩ := Int.eq_ofNat_of_zero_le (Int.floor_nonneg.mpr (sub_nonneg.mpr hpaid))
  have hfloor := Int.floor_le (level capacity rate (bucketOf capacity now key) now - 1)
  have hnext := Int.lt_floor_add_one (level capacity rate (bucketOf capacity now key) now - 1)
  rw [hm, Int.cast_natCast] at hfloor hnext
  exact ⟨m, hm, hfloor, hnext, by linarith⟩

/-- The Retry-After seconds are no shorter than the wait. -/
theorem wait_le_retryAfter (resetMs : ℤ) : (resetMs : ℚ) ≤ retryAfterSeconds resetMs * 1000 := by
  have hceil : (resetMs : ℚ) / 1000 ≤ ⌈(resetMs : ℚ) / 1000⌉ := Int.le_ceil _
  have hmax : ((⌈(resetMs : ℚ) / 1000⌉ : ℤ) : ℚ) ≤ retryAfterSeconds resetMs :=
    Int.cast_le.mpr (le_max_right _ _)
  linarith

/-- When the next request is let through, after any run that only waits. -/
theorem allowed_after_wait (hcap : 1 ≤ capacity) (hrate : 0 < rate)
    (hquiet : Meets (step capacity rate)
      (Quiet capacity rate (tokenBucket capacity rate now 1 key).2.tokens)
      (stateAt now (tokenBucket capacity rate now 1 key).2) events)
    (hrun : exec (step capacity rate) (stateAt now (tokenBucket capacity rate now 1 key).2)
      events = some s) {d : ℚ} (hd : s.clock ≤ now + d) :
    (tokenBucket capacity rate (now + d) 1 s.key).1.allowed = true ↔
      (1 - (tokenBucket capacity rate now 1 key).2.tokens) / rate ≤ d := by
  have hwaits := (waits_after capacity rate now key).run hcap hrate hquiet hrun
  have hpos : 0 ≤ d := by
    have hstamped : now ≤ s.clock := hwaits.stamped
    linarith
  rw [(tokenBucket_spends capacity rate (now + d) 1 s.key).1, decide_eq_true_eq,
    hwaits.worth _ hd]
  exact level_after_wait hcap hrate hpos

/-- What an answer and its headers promise. With m remaining, exactly m more requests of the
same instant are let through. After a denial with a wait, a request whole milliseconds later is
let through if and only if the wait is over, whatever denied requests came before it; from the
Retry-After seconds on it always is. -/
theorem headers_promise (capacity rate now : ℚ) (hcap : 1 ≤ capacity) (hrate : 0 < rate)
    (key : Option Key) :
    let answer := (tokenBucket capacity rate now 1 key).1
    let left := (tokenBucket capacity rate now 1 key).2
    let headers := headersOf capacity answer.allowed answer.remaining answer.ttlMs
    (answer.allowed = true → ∃ m : ℕ, answer.remaining = m ∧ headers.remaining = m ∧
      ∃ t, exec (step capacity rate) (stateAt now left) (List.replicate (m + 1) (.request now)) =
          some t ∧
        t.log.map Prod.snd = List.replicate m true ++ [false]) ∧
    (answer.allowed = false → ∀ events s,
      Meets (step capacity rate) (Quiet capacity rate left.tokens) (stateAt now left) events →
      exec (step capacity rate) (stateAt now left) events = some s →
      (∀ d : ℕ, s.clock ≤ now + d →
        ((tokenBucket capacity rate (now + d) 1 s.key).1.allowed = true ↔ answer.ttlMs ≤ d)) ∧
      ∃ seconds, headers.retryAfter = some seconds ∧ ∀ later,
        now + seconds * 1000 ≤ later → s.clock ≤ later →
        (tokenBucket capacity rate later 1 s.key).1.allowed = true) := by
  dsimp only
  constructor
  · intro hallowed
    obtain ⟨m, hm, hlow, hhigh, hcap'⟩ := allowed_left hallowed
    obtain ⟨t, ht, hlog⟩ := exec_same_instant capacity rate now m _
      (tokenBucket capacity rate now 1 key).2.expireAt [] hcap' hlow hhigh
    refine ⟨m, hm, ?_, t, ht, ?_⟩
    · simp [headersOf, hallowed, hm]
    · simp [hlog]
  · intro hdenied events s hquiet hrun
    have hwait := denied_left hdenied
    refine ⟨?_, retryAfterSeconds (tokenBucket capacity rate now 1 key).1.ttlMs, ?_, ?_⟩
    · intro d hd
      rw [allowed_after_wait hcap hrate hquiet hrun hd, hwait, Int.ceil_le]
      norm_cast
    · simp [headersOf, hdenied]
    · intro later hretry hlater
      have hd : s.clock ≤ now + (later - now) := by linarith
      have hiff := allowed_after_wait hcap hrate hquiet hrun hd
      rw [add_sub_cancel] at hiff
      apply hiff.mpr
      have hceil := Int.le_ceil ((1 - (tokenBucket capacity rate now 1 key).2.tokens) / rate)
      have henough := wait_le_retryAfter (tokenBucket capacity rate now 1 key).1.ttlMs
      rw [← hwait] at hceil
      linarith

/-- Half a token at 0 and one token in 10 ms: the request at 0 is denied for 5 ms, the one
at 3 too. -/
def halfToken : Key := { tokens := 1 / 2, ts := 0, expireAt := 61010 }

def polled : State :=
  let left := (tokenBucket 1 (1 / 10) 0 1 (some halfToken)).2
  (exec (step 1 (1 / 10)) (stateAt 0 left) [.request 3]).getD (stateAt 0 left)

theorem denied_poll_keeps_wait :
    let answer := (tokenBucket 1 (1 / 10) 0 1 (some halfToken)).1
    (∀ d : ℕ, polled.clock ≤ 0 + d →
      ((tokenBucket 1 (1 / 10) (0 + d) 1 polled.key).1.allowed = true ↔ answer.ttlMs ≤ d)) ∧
      ∃ seconds : ℤ, (headersOf 1 answer.allowed answer.remaining answer.ttlMs).retryAfter =
          some seconds ∧
        ∀ later : ℚ, 0 + seconds * 1000 ≤ later → polled.clock ≤ later →
          (tokenBucket 1 (1 / 10) later 1 polled.key).1.allowed = true :=
  (headers_promise 1 (1 / 10) 0 le_rfl (by norm_num) (some halfToken)).2 (by decide +kernel)
    [.request 3] polled (by decide +kernel) (by decide +kernel)

end WaOps.RateLimit
