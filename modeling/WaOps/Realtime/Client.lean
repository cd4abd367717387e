import WaOps.Realtime.Retained

namespace WaOps.Realtime

def dedupWindow : Nat := 64

/-- A response being read: the stream it belongs to and the frames read of it. -/
structure Connection where
  stream : Nat
  read : Nat
  deriving DecidableEq, Repr

structure Client where
  tenantId : String
  channels : List SseChannel
  cursor : Option String
  /-- The queue of the deduplication, oldest first; the Set holds the same ids. -/
  recentIds : List String := []
  /-- The events handed to the handlers. -/
  dispatched : List RealtimeEvent := []
  /-- A first connection has been established. -/
  connected : Bool := false
  connection : Option Connection := none
  deriving DecidableEq, Repr

def Client.isDuplicate (c : Client) (id : String) : Bool × Client :=
  if id = "" then (false, c)
  else if id ∈ c.recentIds then (true, c)
  else
    let queue := c.recentIds ++ [id]
    (false, { c with
      recentIds := if queue.length > dedupWindow then queue.drop 1 else queue })

def Client.dispatchFrame (c : Client) (evt : RealtimeEvent) : Client :=
  { c with dispatched := c.dispatched ++ [evt] }

/-- The body of the read loop for one event. A comment does not reach it. -/
def Client.receive (c : Client) (evt : RealtimeEvent) : Client :=
  let c := if evt.id = "" then c else { c with cursor := some evt.id }
  match c.isDuplicate evt.id with
  | (true, c) => c
  | (false, c) => c.dispatchFrame evt

/-- What became of an event since its id was allocated. -/
inductive Stage where
  | allocated
  /-- PUBLISH is done, LPUSH and LTRIM are not. -/
  | published
  /-- Retained, or LPUSH failed. -/
  | settled
  deriving DecidableEq, Repr

structure Publication where
  tenantId : String
  channel : SseChannel
  evt : RealtimeEvent
  stage : Stage := .allocated
  /-- Published after the client's first connection was established. -/
  since : Bool := false
  deriving DecidableEq, Repr

def Publication.name (p : Publication) : String :=
  channelName p.tenantId p.channel

structure System where
  broker : Broker := {}
  /-- The counter `sse:seq:{tenant}`. -/
  seq : String → Nat := fun _ => 0
  publications : List Publication := []
  client : Client

/-- A client of a tenant about to call `start`. -/
def System.start (tenantId : String) (channels : List SseChannel) (startId : Option String) :
    System :=
  { client := { tenantId, channels, cursor := startId } }

inductive SystemAction where
  /-- INCR of a producer. -/
  | nextId (tenantId : String) (channel : SseChannel) (type occurredAt payload : String)
  | publish (k : Nat)
  | retain (k : Nat)
  /-- The transaction with LPUSH and LTRIM fails. -/
  | giveUp (k : Nat)
  /-- The broker goes on, or someone else's stream is opened or closed. -/
  | broker (a : Action)
  | connect
  | read
  | disconnect
  deriving DecidableEq, Repr

def System.setPublication (s : System) (k : Nat) (p : Publication) : System :=
  { s with publications := s.publications.set k p }

def systemStep (s : System) : SystemAction → Option System
  | .nextId tenantId channel type occurredAt payload =>
    let n := s.seq tenantId + 1
    let evt : RealtimeEvent :=
      { id := toString n, channel := channel.name, type, occurredAt, payload }
    some { s with
      seq := fun t => if t = tenantId then n else s.seq t
      publications := s.publications ++ [{ tenantId, channel, evt }] }
  | .publish k => do
    let p ← s.publications[k]?
    if p.stage = .allocated then
      some ({ s with broker := s.broker.publish p.name p.evt }.setPublication k
        { p with stage := .published, since := s.client.connected })
    else none
  | .retain k => do
    let p ← s.publications[k]?
    if p.stage = .published then do
      let broker ← step s.broker (.retain p.name (.event p.evt))
      some ({ s with broker }.setPublication k { p with stage := .settled })
    else none
  | .giveUp k => do
    let p ← s.publications[k]?
    if p.stage = .published then some (s.setPublication k { p with stage := .settled })
    else none
  -- What arrives and what is retained comes from the producers.
  | .broker (.message _ _) | .broker (.retain _ _) => none
  | .broker a => do
    let broker ← step s.broker a
    some { s with broker }
  | .connect => do
    if s.client.connection.isSome then none
    else
      let c := s.client
      let broker ← step s.broker (.open c.tenantId c.channels c.cursor)
      some { s with
        broker
        client := { c with
          connected := true
          connection := some { stream := s.broker.streams.length, read := 0 } } }
  | .read => do
    let conn ← s.client.connection
    let st ← s.broker.streams[conn.stream]?
    let frame ← st.written[conn.read]?
    let c := { s.client with connection := some { conn with read := conn.read + 1 } }
    match frame with
    | .comment _ => some { s with client := c }
    | .event _ evt => some { s with client := c.receive evt }
  | .disconnect =>
    if s.client.connection.isSome then
      some { s with client := { s.client with connection := none } }
    else none

def Client.position (c : Client) : Option Int :=
  c.cursor.bind Lib.Js.bigInt

/-- Published on one of the client's channels after its first connection was established. -/
def System.Concerns (s : System) (p : Publication) : Prop :=
  p.since = true ∧ p.tenantId = s.client.tenantId ∧ p.channel ∈ s.client.channels

def System.Retained (s : System) (p : Publication) : Prop :=
  Line.event p.evt ∈ s.broker.retainedOf p.name

/-- The client's cursor has skipped nothing that is still retained. -/
def System.CaughtUp (s : System) : Prop :=
  ∀ p ∈ s.publications, s.Concerns p → s.Retained p →
    ∀ n ∈ s.client.position, p.evt.number ≤ n → p.evt ∈ s.client.dispatched

instance (s : System) (p : Publication) : Decidable (s.Concerns p) :=
  inferInstanceAs (Decidable (_ ∧ _))

instance (s : System) (p : Publication) : Decidable (s.Retained p) :=
  inferInstanceAs (Decidable (_ ∈ _))

instance (s : System) : Decidable s.CaughtUp :=
  inferInstanceAs (Decidable (∀ p ∈ s.publications, _))

/-- All a step can do. -/
inductive SystemEffect (s : System) : SystemAction → System → Prop
  | nextId {p : Publication} (hp : p.tenantId = tenantId)
    (hid : p.evt.id = toString (s.seq tenantId + 1)) (hsince : p.since = false) :
    SystemEffect s (.nextId tenantId channel type occurredAt payload)
      { s with
        seq := fun t => if t = tenantId then s.seq tenantId + 1 else s.seq t
        publications := s.publications ++ [p] }
  | publish {p : Publication} (hp : s.publications[k]? = some p) (hst : p.stage = .allocated) :
    SystemEffect s (.publish k)
      ({ s with broker := s.broker.publish p.name p.evt }.setPublication k
        { p with stage := .published, since := s.client.connected })
  | retain {p : Publication} (hp : s.publications[k]? = some p) (hst : p.stage = .published) :
    SystemEffect s (.retain k)
      ({ s with
          broker := s.broker.setRetained p.name
            ((Line.event p.evt :: s.broker.retainedOf p.name).take retainedMax) }.setPublication k
        { p with stage := .settled })
  | giveUp {p : Publication} (hp : s.publications[k]? = some p) (hst : p.stage = .published) :
    SystemEffect s (.giveUp k) (s.setPublication k { p with stage := .settled })
  | broker (hs : step s.broker a = some b) (hm : ∀ ch line, a ≠ .message ch line)
    (hr : ∀ ch line, a ≠ .retain ch line) : SystemEffect s (.broker a) { s with broker := b }
  | connect (hc : s.client.connection = none) (hs : step s.broker
      (.open s.client.tenantId s.client.channels s.client.cursor) = some b) :
    SystemEffect s .connect { s with
      broker := b
      client := { s.client with
        connected := true
        connection := some { stream := s.broker.streams.length, read := 0 } } }
  | comment {st : Stream} {conn : Connection} (hc : s.client.connection = some conn)
    (hst : s.broker.streams[conn.stream]? = some st)
    (hf : st.written[conn.read]? = some (.comment text)) :
    SystemEffect s .read
      { s with client := { s.client with connection := some { conn with read := conn.read + 1 } } }
  | event {st : Stream} {conn : Connection} (hc : s.client.connection = some conn)
    (hst : s.broker.streams[conn.stream]? = some st)
    (hf : st.written[conn.read]? = some (.event origin evt)) :
    SystemEffect s .read { s with client :=
      { s.client with connection := some { conn with read := conn.read + 1 } }.receive evt }
  | disconnect : SystemEffect s .disconnect { s with client := { s.client with connection := none } }

theorem systemStep_effect {s t : System} {a : SystemAction} (h : systemStep s a = some t) :
    SystemEffect s a t := by
  cases a with
  | nextId tenantId channel type occurredAt payload =>
    simp only [systemStep, Option.some.injEq] at h
    subst h
    exact .nextId rfl rfl rfl
  | publish k =>
    simp only [systemStep, Option.bind_eq_bind, Option.bind_eq_some_iff] at h
    obtain ⟨p, hp, h⟩ := h
    split at h
    · rename_i hst
      cases h
      exact .publish hp hst
    · contradiction
  | retain k =>
    simp only [systemStep, Option.bind_eq_bind, Option.bind_eq_some_iff] at h
    obtain ⟨p, hp, h⟩ := h
    split at h
    · rename_i hst
      cases h
      exact .retain hp hst
    · contradiction
  | giveUp k =>
    simp only [systemStep, Option.bind_eq_bind, Option.bind_eq_some_iff] at h
    obtain ⟨p, hp, h⟩ := h
    split at h
    · rename_i hst
      cases h
      exact .giveUp hp hst
    · contradiction
  | broker a =>
    cases a with
    | message ch line => cases h
    | retain ch line => cases h
    | _ =>
      simp only [systemStep, Option.bind_eq_bind, Option.bind_eq_some_iff, Option.some.injEq] at h
      obtain ⟨b, hs, rfl⟩ := h
      exact .broker hs (by simp) (by simp)
  | connect =>
    simp only [systemStep, Option.bind_eq_bind] at h
    split at h
    · contradiction
    · rename_i hc
      obtain ⟨b, hs, ht⟩ := Option.bind_eq_some_iff.mp h
      cases ht
      exact .connect (by simpa using hc) hs
  | read =>
    simp only [systemStep, Option.bind_eq_bind, Option.bind_eq_some_iff] at h
    obtain ⟨conn, hc, st, hst, frame, hf, h⟩ := h
    cases frame with
    | comment text =>
      cases h
      exact .comment hc hst hf
    | event origin evt =>
      cases h
      exact .event hc hst hf
  | disconnect =>
    simp only [systemStep] at h
    split at h
    · cases h
      exact .disconnect
    · contradiction

section
variable (c : Client) (evt : RealtimeEvent)

/-- What the client keeps of an event: its id as the cursor and, unless it remembers that id,
the event itself. -/
theorem receive_spec : ∃ recent dispatched, c.receive evt = { c with
      cursor := if evt.id = "" then c.cursor else some evt.id
      recentIds := recent
      dispatched := dispatched } ∧
    recent ⊆ c.recentIds ++ [evt.id] ∧ c.dispatched ⊆ dispatched ∧
    (evt ∈ dispatched ∨ evt.id ∈ c.recentIds) := by
  by_cases hne : evt.id = ""
  · refine ⟨c.recentIds, c.dispatched ++ [evt], ?_, by simp, by simp, by simp⟩
    simp [Client.receive, Client.isDuplicate, Client.dispatchFrame, hne]
  · by_cases hseen : evt.id ∈ c.recentIds
    · refine ⟨c.recentIds, c.dispatched, ?_, by simp, by simp, .inr hseen⟩
      simp [Client.receive, Client.isDuplicate, hne, hseen]
    · simp only [Client.receive, Client.isDuplicate, hne, hseen, if_false, Client.dispatchFrame]
      refine ⟨_, _, rfl, ?_, by simp, by simp⟩
      split
      · exact List.drop_subset 1 _
      · exact List.Subset.refl _

end

end WaOps.Realtime
