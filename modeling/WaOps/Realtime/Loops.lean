import WaOps.Lib.Runs
import WaOps.Realtime.Client
import WaOps.Realtime.Wire

namespace WaOps.Realtime

inductive RealtimeStatus where
  | connecting | open | reconnecting | closed | unauthorized
  deriving DecidableEq, Repr

/-- What a fetch comes to. -/
inductive Response where
  /-- It is aborted, or the network fails. -/
  | failed
  /-- 401 or 403 -/
  | unauthorized
  /-- Another status that is not ok, or no body. -/
  | refused
  | ok
  deriving DecidableEq, Repr

/-- What `reader.read()` comes to, with the text decoded. -/
inductive Read where
  | chunk (text : Text)
  | done
  | failed
  deriving DecidableEq, Repr

/-- What a loop does next, or awaits. -/
inductive LoopPc where
  | check
  /-- The status is set; the token is looked up. -/
  | lookup
  /-- `getToken` has been called. -/
  | looked
  | send
  | fetching
  | fetched (res : Response)
  /-- In the catch block of the fetch. -/
  | caught
  | backoff
  | sleeping
  | woken
  | open
  | reading
  | read (result : Read)
  /-- The frames of a chunk that are left, and how many handlers are left of the frame before. -/
  | frames (rest : List SseFrame) (handlers : Nat)
  | closed (streamError : Bool)
  /-- In the finally block. -/
  | finish
  | ended
  deriving DecidableEq, Repr

structure Loop where
  token : Nat
  attempt : Nat := 0
  cursor : Option Text
  /-- The AbortController whose signal the fetch was given. -/
  signal : Nat := 0
  parser : SseParser := {}
  pc : LoopPc := .check
  deriving DecidableEq, Repr

/-- What the application's code was called as; `own` is a turn of its own. -/
inductive Callback where
  | own | onStatus | onError | getToken | handler
  deriving DecidableEq, Repr

inductive Task where
  | app (callback : Callback)
  | loop (i : Nat)
  deriving DecidableEq, Repr

/-- Code runs to its next await or call-back in one step, and a call-back may call `start` and
`stop`. Controllers have the index of the loop they were made for. -/
structure RealtimeClient where
  controller : Option Nat := none
  runToken : Nat := 0
  running : Bool := false
  stopped : Bool := true
  status : RealtimeStatus := .closed
  /-- The sleeping loop that `wake` belongs to. -/
  wake : Option Nat := none
  recentIds : List Text := []
  loops : List Loop := []
  aborted : List Nat := []
  /-- What is being executed, innermost first. -/
  stack : List Task := []
  /-- History: a loop was answered 401 or 403 and neither `start` nor `stop` was called since. -/
  rejected : Bool := false
  deriving DecidableEq, Repr

/-- The application's subscriptions: how many handlers an event has; `parses` is whether
JSON.parse takes a text. -/
structure Subscriptions where
  parses : Text → Bool
  handlers : Text → Nat

/-- How many handlers `dispatchFrame` calls. -/
def Subscriptions.dispatchFrame (sub : Subscriptions) (frame : SseFrame) : Nat :=
  if sub.parses frame.data then sub.handlers frame.event else 0

namespace RealtimeClient

/-- Whether an id is a duplicate, and the ids remembered then. -/
def isDuplicate (recentIds : List Text) (id : Text) : Bool × List Text :=
  if id = [] then (false, recentIds)
  else if id ∈ recentIds then (true, recentIds)
  else
    let queue := recentIds ++ [id]
    (false, if queue.length > dedupWindow then queue.drop 1 else queue)

def call (s : RealtimeClient) (callback : Callback) : RealtimeClient :=
  { s with stack := .app callback :: s.stack }

def setStatus (s : RealtimeClient) (next : RealtimeStatus) : RealtimeClient :=
  if s.status = next then s else { s with status := next }.call .onStatus

def setLoop (s : RealtimeClient) (i : Nat) (l : Loop) : RealtimeClient :=
  { s with loops := s.loops.set i l }

/-- The loop leaves the stack until its promise is settled. -/
def await (s : RealtimeClient) : RealtimeClient := { s with stack := s.stack.tail }

/-- A sleeping loop's promise is resolved. -/
def wakeUp (s : RealtimeClient) (i : Nat) : RealtimeClient :=
  match s.loops[i]? with
  | some l => if l.pc = .sleeping then s.setLoop i { l with pc := .woken } else s
  | none => s

def start (s : RealtimeClient) (startId : Option Text) : RealtimeClient :=
  if s.running then { s with rejected := false }
  else
    { s with
      running := true
      stopped := false
      controller := some s.loops.length
      runToken := s.runToken + 1
      loops := s.loops ++ [{ token := s.runToken + 1, cursor := startId }]
      stack := .loop s.loops.length :: s.stack
      rejected := false }

def stop (s : RealtimeClient) : RealtimeClient :=
  let halted :=
    { s with
      stopped := true
      runToken := s.runToken + 1
      aborted := s.controller.toList ++ s.aborted
      controller := none
      running := false
      wake := none
      rejected := false }
  (match s.wake with
    | some i => halted.wakeUp i
    | none => halted).setStatus .closed

/-- `live()` of a loop. -/
def live (s : RealtimeClient) (l : Loop) : Bool := !s.stopped && s.runToken = l.token

/-- The loop on top of the stack goes on. -/
def go (sub : Subscriptions) (s : RealtimeClient) (i : Nat) (l : Loop) : Option RealtimeClient :=
  match l.pc with
  | .check =>
    if s.live l then
      some ((s.setLoop i { l with pc := .lookup }).setStatus
        (if l.attempt = 0 then .connecting else .reconnecting))
    else some (s.setLoop i { l with pc := .finish })
  | .lookup => some ((s.setLoop i { l with pc := .looked }).call .getToken)
  | .send =>
    match s.controller with
    | some signal => some (s.setLoop i { l with signal, pc := .fetching }).await
    -- `this.controller!.signal` of null throws.
    | none => some (s.setLoop i { l with pc := .caught })
  | .fetched .failed => some (s.setLoop i { l with pc := .caught })
  | .fetched .unauthorized =>
    some ({ s.setLoop i { l with pc := .finish } with rejected := true }.setStatus .unauthorized)
  | .fetched .refused => some ((s.setLoop i { l with pc := .backoff }).call .onError)
  | .fetched .ok => some ((s.setLoop i { l with attempt := 0, pc := .open }).setStatus .open)
  | .caught =>
    if s.live l then some ((s.setLoop i { l with pc := .backoff }).call .onError)
    else some (s.setLoop i { l with pc := .finish })
  | .backoff =>
    some { s.setLoop i { l with attempt := l.attempt + 1, pc := .sleeping } with
      wake := some i }.await
  | .open => some (s.setLoop i { l with parser := {}, pc := .reading }).await
  | .read (.chunk text) =>
    let (parser, frames) := l.parser.push text
    some (s.setLoop i { l with parser, pc := .frames frames 0 })
  | .read .done => some (s.setLoop i { l with pc := .closed false })
  | .read .failed => some (s.setLoop i { l with pc := .closed true })
  | .frames rest (n + 1) => some ((s.setLoop i { l with pc := .frames rest n }).call .handler)
  | .frames (frame :: rest) 0 =>
    let cursor := if frame.id = [] then l.cursor else some frame.id
    let (duplicate, recentIds) := isDuplicate s.recentIds frame.id
    let n := if duplicate then 0 else sub.dispatchFrame frame
    some { s.setLoop i { l with cursor, pc := .frames rest n } with recentIds }
  | .frames [] 0 => some (s.setLoop i { l with pc := .reading }).await
  | .closed streamError =>
    if s.live l then
      let next := s.setLoop i { l with pc := .backoff }
      some (if streamError then next.call .onError else next)
    else some (s.setLoop i { l with pc := .finish })
  | .finish =>
    let next := s.setLoop i { l with pc := .ended }
    some (if s.runToken = l.token then next.setStatus .closed else next)
  | .ended => some s.await
  | .looked | .fetching | .sleeping | .woken | .reading => none

/-- A call-back returns to the loop that called it; only `getToken`'s value is looked at. -/
def returned (l : Loop) (token : Option Text) : Loop :=
  match l.pc, token with
  | .looked, some (_ :: _) => { l with pc := .send }
  -- Without a token the fetch is not tried.
  | .looked, _ => { l with pc := .caught }
  | _, _ => l

/-- A call-back throws. What a handler throws is caught. -/
def threw (l : Loop) : Loop :=
  match l.pc with
  | .frames .. | .ended => l
  | _ => { l with pc := .finish }

/-- The application's call-back ends. -/
def back (s : RealtimeClient) (f : Loop → Loop) : Option RealtimeClient :=
  match s.stack with
  | .app _ :: .loop i :: rest =>
    (s.loops[i]?).map fun l => { s.setLoop i (f l) with stack := .loop i :: rest }
  | .app _ :: rest => some { s with stack := rest }
  | _ => none

end RealtimeClient

inductive ClientTurn where
  /-- A turn of the application's own. -/
  | enter
  | start (startId : Option Text)
  | stop
  | ret (token : Option Text)
  | throw
  /-- The code of the loop on top goes on. -/
  | go
  | fetchSettled (i : Nat) (res : Response)
  | readSettled (i : Nat) (result : Read)
  | timer (i : Nat)
  | resume (i : Nat)
  deriving DecidableEq, Repr

/-- An aborted signal lets a fetch or a read only fail. -/
def Loop.mayGet (l : Loop) (s : RealtimeClient) (ok : Bool) : Bool := !ok || l.signal ∉ s.aborted

open RealtimeClient in
def turn (sub : Subscriptions) (s : RealtimeClient) : ClientTurn → Option RealtimeClient
  | .enter => if s.stack = [] then some (s.call .own) else none
  | .start startId =>
    match s.stack with
    | .app _ :: _ => some (s.start startId)
    | _ => none
  | .stop =>
    match s.stack with
    | .app _ :: _ => some s.stop
    | _ => none
  | .ret token => s.back (returned · token)
  | .throw => s.back threw
  | .go =>
    match s.stack with
    | .loop i :: _ => (s.loops[i]?).bind (go sub s i)
    | _ => none
  | .fetchSettled i res => do
    let l ← s.loops[i]?
    if s.stack = [] ∧ l.pc = .fetching ∧ l.mayGet s (res ≠ .failed) then
      some (s.setLoop i { l with pc := .fetched res })
    else none
  | .readSettled i result => do
    let l ← s.loops[i]?
    if s.stack = [] ∧ l.pc = .reading ∧ l.mayGet s (result ≠ .failed) then
      some (s.setLoop i { l with pc := .read result })
    else none
  | .timer i => do
    let l ← s.loops[i]?
    if s.stack = [] ∧ l.pc = .sleeping then
      some { s.setLoop i { l with pc := .woken } with wake := none }
    else none
  | .resume i => do
    let l ← s.loops[i]?
    if s.stack = [] then
      match l.pc with
      | .fetched _ | .read _ => some { s with stack := [.loop i] }
      | .woken => some { s.setLoop i { l with pc := .check } with stack := [.loop i] }
      | _ => none
    else none

end WaOps.Realtime
