import WaOps.Incidents.State
import WaOps.Lib.Sorting

namespace WaOps.Outbox
open Lib.Sorting
open Incidents (Outcome)

inductive Status where
  | pending | sent | failed
  deriving DecidableEq, Repr

structure OutboxEvent where
  id : String
  eventId : String
  tenantId : String
  /-- The JSON text of the envelope. -/
  payloadJson : String
  status : Status := .pending
  attempts : Nat := 0
  availableAt : Int
  sentAt : Option Int := none
  createdAt : Int
  deriving DecidableEq, Repr

/-- What the claim statement returns of a row. -/
structure Claimed where
  id : String
  tenantId : String
  eventId : String
  payloadJson : String
  attempts : Nat
  deriving DecidableEq, Repr

inductive Phase where
  /-- Between two publishes, or after the last one. -/
  | ready
  | publishing (row : Claimed)
  /-- Returned, rejected or dead. -/
  | over
  deriving DecidableEq, Repr

structure Tick where
  phase : Phase := .ready
  rest : List Claimed
  /-- The rows of sentIds and failedIds whose verdict is not written yet. -/
  sent : List Claimed := []
  failed : List Claimed := []
  deriving DecidableEq, Repr

/-- The dispatcher's parameters. -/
structure Config where
  batchSize : Nat := 50
  maxAttempts : Nat := 10

/-- The ticks of any number of workers overlap. A tick claims a batch in one statement, publishes
its rows one after the other and writes its verdicts. -/
structure State where
  rows : List OutboxEvent := []
  ticks : List Tick := []
  /- History: the rows handed to the publisher and those it accepted, by their ids, and every
  verdict written. -/
  handed : List String := []
  published : List String := []
  verdicts : List (String × Status) := []
  deriving DecidableEq, Repr

inductive Action where
  /-- A domain transaction adds a row. -/
  | append (id eventId tenantId payloadJson : String) (now : Int)
  /-- A tick starts; its claim skips the rows another statement has locked. -/
  | claim (now : Int) (locked : List String)
  /-- The tick calls publish for a row of its batch, which comes in no fixed order. -/
  | hand (i j : Nat)
  | outcome (i : Nat) (ok : Bool)
  | markSent (i : Nat) (now : Int) (outcome : Outcome)
  | markFailed (i : Nat) (outcome : Outcome)
  | crash (i : Nat)
  deriving DecidableEq, Repr

def OutboxEvent.available (now : Int) (locked : List String) (r : OutboxEvent) : Bool :=
  r.status = .pending && r.availableAt ≤ now && r.id ∉ locked

def OutboxEvent.claimed (r : OutboxEvent) : Claimed :=
  { id := r.id, tenantId := r.tenantId, eventId := r.eventId, payloadJson := r.payloadJson,
    attempts := r.attempts + 1 }

/-- The rows the inner select of the claim picks. -/
def State.picked (s : State) (cfg : Config) (now : Int) (locked : List String) :
    List OutboxEvent :=
  (orderAsc OutboxEvent.createdAt (s.rows.filter (OutboxEvent.available now locked))).take
    cfg.batchSize

/-- An updateMany of the rows with some ids. -/
def updateRows (ids : List String) (f : OutboxEvent → OutboxEvent) (rows : List OutboxEvent) :
    List OutboxEvent :=
  rows.map (fun r => if r.id ∈ ids then f r else r)

def State.setTick (s : State) (i : Nat) (t : Tick) : State :=
  { s with ticks := s.ticks.set i t }

def State.claim (s : State) (cfg : Config) (now : Int) (locked : List String) : State :=
  let picked := s.picked cfg now locked
  { s with
    rows := updateRows (picked.map OutboxEvent.id) (fun r => { r with attempts := r.attempts + 1 })
      s.rows
    ticks := s.ticks ++ [{ rest := picked.map OutboxEvent.claimed }] }

/-- The verdict of a tick on rows, whatever their status is by now. -/
def State.mark (s : State) (rows : List Claimed) (status : Status) (sentAt : Option Int) : State :=
  let ids := rows.map Claimed.id
  { s with
    rows := updateRows ids (fun r => { r with status, sentAt := sentAt.or r.sentAt }) s.rows
    verdicts := s.verdicts ++ ids.map (fun id => (id, status)) }

def Tick.hand (t : Tick) (j : Nat) (row : Claimed) : Tick :=
  { t with phase := .publishing row, rest := t.rest.eraseIdx j }

/-- After a publish that failed the row is given up only at its last attempt. -/
def Tick.settle (t : Tick) (cfg : Config) (row : Claimed) (ok : Bool) : Tick :=
  if ok then { t with phase := .ready, sent := t.sent ++ [row] }
  else if row.attempts ≥ cfg.maxAttempts then
    { t with phase := .ready, failed := t.failed ++ [row] }
  else { t with phase := .ready }

/-- A tick that has ended holds nothing. -/
def Tick.dead : Tick := { phase := .over, rest := [] }

def step (cfg : Config) (s : State) : Action → Option State
  | .append id eventId tenantId payloadJson now =>
    if s.rows.any (fun r => r.id = id ∨ r.eventId = eventId) then none
    else some { s with rows := s.rows ++
      [{ id, eventId, tenantId, payloadJson, availableAt := now, createdAt := now }] }
  | .claim now locked => some (s.claim cfg now locked)
  | .hand i j => do
    let t ← s.ticks[i]?
    let row ← t.rest[j]?
    if t.phase = .ready then
      some { s.setTick i (t.hand j row) with handed := s.handed ++ [row.id] }
    else none
  | .outcome i ok => do
    let t ← s.ticks[i]?
    match t.phase with
    | .publishing row =>
      some { s.setTick i (t.settle cfg row ok) with
        published := if ok then s.published ++ [row.id] else s.published }
    | _ => none
  | .markSent i now outcome => do
    let t ← s.ticks[i]?
    if t.phase = .ready ∧ t.rest = [] ∧ t.sent ≠ [] then
      match outcome with
      | .committed => some ((s.mark t.sent .sent (some now)).setTick i { t with sent := [] })
      | .aborted => some (s.setTick i .dead)
      | .unanswered => some ((s.mark t.sent .sent (some now)).setTick i .dead)
    else none
  | .markFailed i outcome => do
    let t ← s.ticks[i]?
    if t.phase = .ready ∧ t.rest = [] ∧ t.sent = [] ∧ t.failed ≠ [] then
      match outcome with
      | .aborted => some (s.setTick i .dead)
      | _ => some ((s.mark t.failed .failed none).setTick i .dead)
    else none
  | .crash i => do
    let _ ← s.ticks[i]?
    some (s.setTick i .dead)

end WaOps.Outbox
