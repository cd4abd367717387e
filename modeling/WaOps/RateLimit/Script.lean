import Mathlib.Data.Rat.Floor
import WaOps.Lib.Runs
import WaOps.Lib.TokenBucket

namespace WaOps.RateLimit
open Lib Lib.Runs

/-- The bucket's hash in Redis and the deadline of its last PEXPIRE. -/
structure Key where
  tokens : ℚ
  ts : ℚ
  expireAt : ℚ
  deriving DecidableEq, Repr

structure Answer where
  allowed : Bool
  remaining : ℤ
  ttlMs : ℤ
  deriving DecidableEq, Repr

def ttlSeconds (capacity refillPerMs : ℚ) : ℤ :=
  ⌈(capacity / refillPerMs + 60000) / 1000⌉

def elapsed (now ts : ℚ) : ℚ :=
  if now - ts < 0 then 0 else now - ts

/-- TOKEN_BUCKET_LUA in exact arithmetic: the answer and the key it leaves. -/
def tokenBucket (capacity refillPerMs now cost : ℚ) (state : Option Key) : Answer × Key :=
  let found := state.elim (capacity, now) (fun k => (k.tokens, k.ts))
  let tokens := min capacity (found.1 + elapsed now found.2 * refillPerMs)
  let left := if tokens ≥ cost then tokens - cost else tokens
  ({ allowed := tokens ≥ cost
     remaining := ⌊left⌋
     ttlMs := if tokens ≥ cost then 0 else ⌈(cost - left) / refillPerMs⌉ },
   { tokens := left
     ts := now
     expireAt := now + ttlSeconds capacity refillPerMs * 1000 })

structure State where
  key : Option Key := none
  clock : ℚ
  /-- The requests so far and whether they were allowed. -/
  log : List (ℚ × Bool) := []
  deriving DecidableEq, Repr

inductive Event where
  /-- A request of cost 1. -/
  | request (now : ℚ)
  /-- Redis drops the key, at or after its deadline. -/
  | vanish (now : ℚ)
  deriving DecidableEq, Repr

def Event.time : Event → ℚ
  | .request now => now
  | .vanish now => now

def Event.isRequest : Event → Bool
  | .request _ => true
  | .vanish _ => false

variable (capacity rate : ℚ)

/-- Requests and expiry share one clock, which does not run backwards. -/
def step (s : State) (e : Event) : Option State :=
  if e.time < s.clock then none
  else
    match e with
    | .request now =>
      let (answer, key) := tokenBucket capacity rate now 1 s.key
      some { key := some key, clock := now, log := s.log ++ [(now, answer.allowed)] }
    | .vanish now =>
      match s.key with
      | some key => if key.expireAt ≤ now then some { s with key := none, clock := now } else none
      | none => none

end WaOps.RateLimit
