import WaOps.Lib.Expiring
import WaOps.Lib.Doubles
import WaOps.Lib.Lists
import WaOps.RateLimit.Retry

namespace WaOps.RateLimit
open Lib.Js Lib.Expiring

/-- The keys `rl:stats:429:*` in Redis. -/
abbrev StatsCounters := String → Option (Counter ℤ)

def minuteBucket (now : ℤ) : ℤ :=
  now / 60000

def statsKey (routeClass : String) (bucket : ℤ) : String :=
  "rl:stats:429:" ++ routeClass ++ ":" ++ integerText bucket

/-- INCR and EXPIRE in one transaction, 1000 seconds from now. -/
def countRateLimited (s : StatsCounters) (routeClass : String) (now : ℤ) : StatsCounters :=
  incrExpire (fun now => now + 1000 * 1000) s (statsKey routeClass (minuteBucket now)) now

structure RateLimitHistoryPoint where
  /-- The instant whose text is sent. -/
  windowStart : ℤ
  limited : Number
  deriving DecidableEq, Repr

structure ClassHistory where
  routeClass : String
  limited : List RateLimitHistoryPoint
  deriving DecidableEq, Repr

structure RateLimitHistory where
  window_seconds : ℕ
  points : ℕ
  classes : List ClassHistory
  deriving DecidableEq, Repr

def rateLimitHistoryMinutes : ℕ := 15

def classes : List String := ["auth", "api", "realtime"]

/-- MGET: the text of each counter that is there. -/
def mget (s : StatsCounters) (now : ℤ) (keys : List String) : List (Option String) :=
  keys.map fun key => (present s now key).map fun c => integerText (.ofNat c.value)

def history (s : StatsCounters) (now : ℤ) : RateLimitHistory :=
  let nowBucket := minuteBucket now
  let buckets := (List.range rateLimitHistoryMinutes).map fun i : ℕ =>
    nowBucket - ((rateLimitHistoryMinutes : ℤ) - 1 - i)
  { window_seconds := 60
    points := rateLimitHistoryMinutes
    classes := classes.map fun routeClass =>
      { routeClass := routeClass
        limited := List.zipWith
          (fun b raw => { windowStart := b * 60000, limited := (raw.map number).getD (.finite 0) })
          buckets (mget s now (buckets.map (statsKey routeClass))) } }

/-- A request that is answered with 429. -/
structure Limited where
  routeClass : String
  now : ℤ

def counted (calls : List Limited) : StatsCounters :=
  calls.foldl (fun s c => countRateLimited s c.routeClass c.now) (fun _ => none)

/-- How many calls of a class were made in the minute from an instant on. -/
def callsInMinute (routeClass : String) (start : ℤ) (calls : List Limited) : ℕ :=
  calls.countP fun c => c.routeClass = routeClass ∧ start ≤ c.now ∧ c.now < start + 60000

section
variable {calls : List Limited} {now b b' : ℤ} {r r' : String}

theorem statsKey_reverse : (statsKey r b).toList.reverse =
    (integerText b).toList.reverse ++
      ':' :: (r.toList.reverse ++ "rl:stats:429:".toList.reverse) := by
  change ("rl:stats:429:" ++ r ++ ":" ++ integerText b).toList.reverse = _
  simp [List.append_assoc]

/-- The last colon ends the class. -/
theorem statsKey_inj (h : statsKey r b = statsKey r' b') : r = r' ∧ b = b' := by
  have hcolon : ∀ n : ℤ, ':' ∉ (integerText n).toList.reverse := by
    intro n hn
    rcases integerText_chars n _ (List.mem_reverse.mp hn) with h | h
    · exact absurd h (by decide)
    · exact absurd h (by decide)
  have hchars := congrArg (fun key => key.toList.reverse) h
  simp only [statsKey_reverse] at hchars
  obtain ⟨hbucket, hclass⟩ := Lib.Lists.append_cons_inj (hcolon b) (hcolon b') hchars
  exact ⟨String.ext (List.reverse_injective (List.append_cancel_right hclass)),
    integerText_inj (String.ext (List.reverse_injective hbucket))⟩

theorem counted_eq : counted calls = counters (fun now => now + 1000 * 1000)
    (calls.map fun c => (statsKey c.routeClass (minuteBucket c.now), c.now)) := by
  rw [counters, List.foldl_map]
  rfl

/-- The counter of a minute that began less than 1000 seconds ago counts the calls made in it. -/
theorem value_counted (hsorted : calls.Pairwise (fun c d => c.now ≤ d.now))
    (hnow : ∀ c ∈ calls, c.now ≤ now) (hb : now < b * 60000 + 1000 * 1000) :
    value (present (counted calls) now (statsKey r b)) = callsInMinute r (b * 60000) calls := by
  rw [counted_eq, value_counters, List.countP_map]
  · apply List.countP_congr
    intro c _
    have hminute : minuteBucket c.now = b ↔ b * 60000 ≤ c.now ∧ c.now < b * 60000 + 60000 := by
      unfold minuteBucket
      omega
    simp only [Function.comp_apply, decide_eq_true_eq, ← hminute]
    constructor
    · exact statsKey_inj
    · rintro ⟨rfl, rfl⟩
      rfl
  · exact List.pairwise_map.mpr hsorted
  · intro i hi
    obtain ⟨c, hc, rfl⟩ := List.mem_map.mp hi
    exact hnow c hc
  · intro i hi hkey
    obtain ⟨c, hc, rfl⟩ := List.mem_map.mp hi
    have hbucket := (statsKey_inj hkey).2
    simp only [minuteBucket] at hbucket ⊢
    omega

/-- What is read of a counter is its value, and 0 where there is none. -/
theorem reply_number (c : Option (Counter ℤ)) :
    ((c.map fun c => integerText (.ofNat c.value)).map number).getD (.finite 0) =
      toDouble (value c) := by
  cases c with
  | none =>
    have hzero := toDouble_int (n := 0) (by decide)
    simpa [value] using hzero.symm
  | some c =>
    rw [Option.map_some, Option.map_some, Option.getD_some]
    exact number_natText c.value

theorem history_points (s : StatsCounters) (routeClass : String) (buckets : List ℤ) :
    List.zipWith
      (fun b raw =>
        ({ windowStart := b * 60000, limited := (Option.map number raw).getD (.finite 0) } :
          RateLimitHistoryPoint))
      buckets (mget s now (buckets.map (statsKey routeClass))) =
    buckets.map fun b =>
      { windowStart := b * 60000
        limited := toDouble (value (present s now (statsKey routeClass b))) } := by
  rw [mget, List.map_map, List.zipWith_map_right, List.zipWith_self]
  simp only [Function.comp_apply, reply_number]

/-- Every class is shown with the 15 minutes that end with the current one, and for each of them
with the number of its calls in that minute, as the double nearest to it. -/
theorem history_exact (hsorted : calls.Pairwise (fun c d => c.now ≤ d.now))
    (hnow : ∀ c ∈ calls, c.now ≤ now) :
    (history (counted calls) now).classes.map ClassHistory.routeClass =
      ["auth", "api", "realtime"] ∧
    ∀ h ∈ (history (counted calls) now).classes,
      h.limited.map RateLimitHistoryPoint.windowStart =
        (List.range 15).map (fun i : ℕ => (now / 60000 - 14 + i) * 60000) ∧
      ∀ p ∈ h.limited,
        p.limited = toDouble (callsInMinute h.routeClass p.windowStart calls) ∧
        (callsInMinute h.routeClass p.windowStart calls < 2 ^ 53 →
          p.limited = .finite (callsInMinute h.routeClass p.windowStart calls)) := by
  refine ⟨rfl, ?_⟩
  intro h hh
  obtain ⟨routeClass, _, rfl⟩ := List.mem_map.mp hh
  simp only [history_points]
  constructor
  · rw [List.map_map, List.map_map]
    apply List.map_congr_left
    intro i _
    simp only [Function.comp_apply, minuteBucket, rateLimitHistoryMinutes]
    push_cast
    ring
  · intro p hp
    obtain ⟨b, hb, rfl⟩ := List.mem_map.mp hp
    obtain ⟨i, hi, rfl⟩ := List.mem_map.mp hb
    have hcount := value_counted (r := routeClass)
      (b := minuteBucket now - ((rateLimitHistoryMinutes : ℤ) - 1 - i)) hsorted hnow (by
        have hlt := List.mem_range.mp hi
        simp only [rateLimitHistoryMinutes, minuteBucket] at hlt ⊢
        omega)
    refine ⟨congrArg (fun n : ℕ => toDouble n) hcount, ?_⟩
    intro hsmall
    rw [← hcount] at hsmall ⊢
    exact toDouble_int (by simpa using hsmall)
end

/-- Two minutes of calls, looked at just before the first of them leaves the series. -/
def earlyCalls : List Limited :=
  [⟨"auth", 0⟩, ⟨"api", 10⟩, ⟨"auth", 59999⟩, ⟨"auth", 60000⟩]

theorem early_calls_counted :
    ((history (counted earlyCalls) 899999).classes.map
      (fun h => (h.routeClass, h.limited.map RateLimitHistoryPoint.limited))).head? =
      some ("auth", .finite 2 :: .finite 1 :: List.replicate 13 (.finite 0)) ∧
    ∀ h ∈ (history (counted earlyCalls) 899999).classes,
      h.limited.map RateLimitHistoryPoint.windowStart =
        (List.range 15).map (fun i : ℕ => ((899999 : ℤ) / 60000 - 14 + i) * 60000) :=
  ⟨by decide +kernel,
    fun h hh => ((history_exact (by decide) (by decide)).2 h hh).1⟩

end WaOps.RateLimit
