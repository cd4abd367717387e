import WaOps.Lib.Windows
import Mathlib.Data.Rat.Lemmas
import Mathlib.Algebra.Order.Ring.Rat

namespace WaOps.Gateway
open Lib Lib.Windows

structure RateBucket where
  count : ℕ
  windowStart : ℚ

/-- The map of the process, empty when it starts. -/
abbrev RateBuckets := String → Option RateBucket

def rateLimited (limit windowMs now : ℚ) (agentId : String) (rateBuckets : RateBuckets) :
    Bool × RateBuckets :=
  match rateBuckets agentId with
  | none =>
    (false, Function.update rateBuckets agentId (some { count := 1, windowStart := now }))
  | some bucket =>
    if now - bucket.windowStart > windowMs then
      (false, Function.update rateBuckets agentId (some { count := 1, windowStart := now }))
    else
      (decide (((bucket.count + 1 : ℕ) : ℚ) > limit),
        Function.update rateBuckets agentId (some { bucket with count := bucket.count + 1 }))

/-- An authenticated heartbeat or batch of metrics. -/
structure Arrival where
  agentId : String
  now : ℚ

/-- The calls in the order in which the process takes them, each with whether it is limited. -/
def outcomes (limit windowMs : ℚ) : RateBuckets → List Arrival → List (Arrival × Bool)
  | _, [] => []
  | rateBuckets, call :: calls =>
    let (limited, after) := rateLimited limit windowMs call.now call.agentId rateBuckets
    (call, limited) :: outcomes limit windowMs after calls

/-- When an agent's calls come, and whether they are admitted. -/
def logOf (agentId : String) (log : List (Arrival × Bool)) : List (ℚ × Bool) :=
  (log.filter (fun o => o.1.agentId = agentId)).map (fun o => (o.1.now, !o.2))

def timesOf (agentId : String) (calls : List Arrival) : List ℚ :=
  (calls.filter (fun call => call.agentId = agentId)).map Arrival.now

/-- What an agent sees of the calls since the process started. -/
def agentLog (limit windowMs : ℚ) (agentId : String) (calls : List Arrival) : List (ℚ × Bool) :=
  logOf agentId (outcomes limit windowMs (fun _ => none) calls)

def RateBucket.window (bucket : RateBucket) : Window ℚ :=
  { count := bucket.count, start := bucket.windowStart }

section
variable {limit windowMs now : ℚ} {agentId other : String} {rateBuckets : RateBuckets}
  {calls : List Arrival}

theorem rateLimited_other (limit windowMs now : ℚ) (rateBuckets : RateBuckets)
    (h : other ≠ agentId) :
    (rateLimited limit windowMs now agentId rateBuckets).2 other = rateBuckets other := by
  unfold rateLimited
  split
  · exact Function.update_of_ne h _ _
  · split
    · exact Function.update_of_ne h _ _
    · exact Function.update_of_ne h _ _

theorem outcomes_cons (call : Arrival) :
    outcomes limit windowMs rateBuckets (call :: calls) =
      (call, (rateLimited limit windowMs call.now call.agentId rateBuckets).1) ::
        outcomes limit windowMs
          (rateLimited limit windowMs call.now call.agentId rateBuckets).2 calls :=
  rfl

/-- A call is limited where its window has counted more than the limit. -/
theorem rateLimited_arrive (windowMs now : ℚ) (agentId : String) (rateBuckets : RateBuckets)
    (hlimit : 1 ≤ limit) :
    ((rateLimited limit windowMs now agentId rateBuckets).2 agentId).map RateBucket.window =
      some (arrive windowMs ((rateBuckets agentId).map RateBucket.window) now) ∧
    (!(rateLimited limit windowMs now agentId rateBuckets).1) =
      decide (((arrive windowMs ((rateBuckets agentId).map RateBucket.window) now).count : ℚ) ≤
        limit) := by
  unfold rateLimited
  cases hbucket : rateBuckets agentId with
  | none => simp [arrive, RateBucket.window, hlimit]
  | some bucket =>
    by_cases hended : windowMs < now - bucket.windowStart
    · simp [arrive, RateBucket.window, hended, hlimit]
    · simp [arrive, RateBucket.window, hended, decide_not.symm]

theorem logOf_outcomes (hlimit : 1 ≤ limit) :
    logOf agentId (outcomes limit windowMs rateBuckets calls) =
      Windows.decisions limit windowMs ((rateBuckets agentId).map RateBucket.window)
        (timesOf agentId calls) := by
  induction calls generalizing rateBuckets with
  | nil => rfl
  | cons call calls ih =>
    rw [outcomes_cons, logOf, timesOf]
    by_cases hown : call.agentId = agentId
    · subst hown
      obtain ⟨hafter, hadmitted⟩ :=
        rateLimited_arrive windowMs call.now call.agentId rateBuckets hlimit
      rw [List.filter_cons_of_pos (by simp), List.map_cons, List.filter_cons_of_pos (by simp),
        List.map_cons, Windows.decisions, ← hafter, hadmitted]
      exact congrArg _ ih
    · rw [List.filter_cons_of_neg (by simpa using hown),
        List.filter_cons_of_neg (by simpa using hown),
        ← rateLimited_other limit windowMs call.now rateBuckets (Ne.symm hown)]
      exact ih

theorem timesOf_sorted (h : calls.Pairwise (fun a b => a.now ≤ b.now)) :
    (timesOf agentId calls).Pairwise (· ≤ ·) :=
  List.pairwise_map.mpr (h.filter _)

/-- Whatever the other agents send, an agent gets at most two limits' worth of calls into an
interval of the window's length, and all of its calls as long as they keep to the limit. -/
theorem rateLimited_windows (hlimit : 1 ≤ limit) (hwindow : 0 < windowMs)
    (hsorted : calls.Pairwise (fun a b => a.now ≤ b.now)) (agentId : String) :
    (∀ start, (TokenBucket.admitted start (start + windowMs)
      (agentLog limit windowMs agentId calls) : ℚ) ≤ 2 * limit) ∧
    ((∀ start, (arrivals start (start + windowMs) (timesOf agentId calls) : ℚ) ≤ limit) →
      ∀ o ∈ agentLog limit windowMs agentId calls, o.2 = true) ∧
    ∀ others, timesOf agentId others = timesOf agentId calls →
      agentLog limit windowMs agentId others = agentLog limit windowMs agentId calls := by
  simp only [agentLog, logOf_outcomes hlimit, Option.map_none]
  refine ⟨?_, ?_, ?_⟩
  · intro start
    exact admitted_le_two_limits hlimit (timesOf_sorted hsorted)
  · intro hquiet
    exact decisions_quiet [] hwindow counted_none (timesOf_sorted hsorted) hquiet
  · intro others hown
    rw [hown]
end

/-- Two agents' calls: the first one's third call comes at the very end of its window, its
fourth one opens the next. -/
def alternatingCalls : List Arrival :=
  [⟨"a", 0⟩, ⟨"b", 10⟩, ⟨"a", 50000⟩, ⟨"a", 60000⟩, ⟨"b", 60000⟩, ⟨"a", 60001⟩, ⟨"a", 60002⟩]

theorem alternating_calls_limited :
    agentLog 2 60000 "a" alternatingCalls =
      [(0, true), (50000, true), (60000, false), (60001, true), (60002, true)] ∧
    TokenBucket.admitted 50000 110000 (agentLog 2 60000 "a" alternatingCalls) = 3 ∧
    ((TokenBucket.admitted 50000 (50000 + 60000)
      (agentLog 2 60000 "a" alternatingCalls) : ℕ) : ℚ) ≤ 2 * 2 :=
  ⟨by decide +kernel, by decide +kernel,
    (rateLimited_windows (by decide) (by decide) (by decide) "a").1 50000⟩

end WaOps.Gateway
