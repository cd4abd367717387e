import Mathlib.Data.List.Sort
import WaOps.Lib.Js
import WaOps.Lib.Runs

namespace WaOps.Realtime

inductive SseChannel where
  | incidents | agents
  deriving DecidableEq, Repr

def SseChannel.name : SseChannel → String
  | .incidents => "incidents"
  | .agents => "agents"

def channelName (tenantId : String) (channel : SseChannel) : String :=
  "tenant:" ++ tenantId ++ ":" ++ channel.name

structure RealtimeEvent where
  id : String
  channel : String
  type : String
  occurredAt : String
  /-- The JSON text of the payload object. -/
  payload : String
  deriving DecidableEq, Repr

/-- A text on the wire: the event JSON.parse finds in it, or text it throws on. -/
inductive Line where
  | event (evt : RealtimeEvent)
  | malformed (text : String)
  deriving DecidableEq, Repr

def retainedMax : Nat := 200

/-- The events of a retained list strictly newer than the cursor, oldest first.
A malformed entry is skipped. -/
def retainedAfter (raw : List Line) (afterId : Int) : List RealtimeEvent :=
  let events := raw.filterMap (fun line =>
    match line with
    | .event evt =>
      (Lib.Js.bigInt evt.id).bind (fun id => if id > afterId then some (id, evt) else none)
    | .malformed _ => none)
  (events.insertionSort (fun a b => a.1 ≤ b.1)).map Prod.snd

/-- What `res.write` is called with. The origin of an event is the Redis channel it was
read from, live or from that channel's retained list; the program does not keep it. -/
inductive Frame where
  | event (origin : String) (evt : RealtimeEvent)
  | comment (text : String)
  deriving DecidableEq, Repr

/-- The await a `stream` call is suspended at. -/
inductive Phase where
  | replaying (rest : List SseChannel)
  | subscribing
  /-- Redis has answered the SUBSCRIBE; the continuation has not run yet. -/
  | subscribed
  | attached
  | returned
  deriving DecidableEq, Repr

structure Stream where
  tenantId : String
  channels : List SseChannel
  cursor : Option Int
  closed : Bool := false
  phase : Phase
  /-- The 'message' listener is installed on the shared subscriber. -/
  onMessage : Bool := false
  heartbeat : Bool := false
  written : List Frame := []
  deriving DecidableEq, Repr

def Stream.tenantChannels (st : Stream) : List String :=
  st.channels.map (channelName st.tenantId)

def Stream.write (st : Stream) (frames : List Frame) : Stream :=
  if st.closed then st else { st with written := st.written ++ frames }

def Stream.send (st : Stream) (origin : String) (evts : List RealtimeEvent) : Stream :=
  st.write (evts.map (Frame.event origin))

def Stream.comment (st : Stream) (text : String) : Stream :=
  st.write [.comment text]

/-- The continuation after the replay loop: nothing is subscribed for a closed response. -/
def Stream.afterReplay (st : Stream) : Stream :=
  { st with phase := if st.closed then .returned else .subscribing }

/-- The synchronous part of `stream` up to its first await. -/
def Stream.start (tenantId : String) (channels : List SseChannel)
    (lastEventId : Option String) : Stream :=
  let cursor := lastEventId.bind (fun id => if id = "" then none else Lib.Js.bigInt id)
  let st : Stream := { tenantId, channels, cursor, phase := .replaying channels }
  match cursor, channels with
  | some _, _ :: _ => st
  | _, _ => st.afterReplay

/-- One pass of the replay loop; a failed LRANGE counts as an empty list. -/
def Stream.replay (st : Stream) (retained : String → List Line) (ok : Bool) : Option Stream :=
  match st.phase, st.cursor with
  | .replaying (channel :: rest), some cursor =>
    let ch := channelName st.tenantId channel
    let evts := if ok then retainedAfter (retained ch) cursor else []
    let st := { st.send ch evts with phase := .replaying rest }
    some (if rest = [] then st.afterReplay else st)
  | _, _ => none

/-- The continuation after a successful subscribe. -/
def Stream.attach (st : Stream) : Stream :=
  { st.comment "connected" with phase := .attached, onMessage := true, heartbeat := true }

/-- The 'close' event of the response. The second handler is there once attached. -/
def Stream.close (st : Stream) : Stream :=
  if st.phase = .attached then
    { st with closed := true, onMessage := false, heartbeat := false, phase := .returned }
  else { st with closed := true }

/-- The listener ignores which channel a message came from. -/
def Stream.receive (st : Stream) (ch : String) : Line → Stream
  | .event evt => if st.onMessage then st.send ch [evt] else st
  | .malformed _ => st

/-- A command sent on the subscriber connection and not yet executed by Redis. -/
inductive Command where
  | subscribe (i : Nat) (chs : List String)
  | unsubscribe (chs : List String)
  deriving DecidableEq, Repr

/-- The shared subscriber connection, the retained lists and the streams attached to them. -/
structure Broker where
  streams : List Stream := []
  /-- Redis lists by channel name, newest first. -/
  retained : List (String × List Line) := []
  /-- Channels the shared connection is subscribed to. -/
  subscriptions : List String := []
  commands : List Command := []
  deriving DecidableEq, Repr

def Broker.retainedOf (b : Broker) (ch : String) : List Line :=
  ((b.retained.find? (fun p => p.1 == ch)).map Prod.snd).getD []

def Broker.setRetained (b : Broker) (ch : String) (lines : List Line) : Broker :=
  { b with retained := (ch, lines) :: b.retained.filter (fun p => p.1 != ch) }

def Broker.setStream (b : Broker) (i : Nat) (st : Stream) : Broker :=
  { b with streams := b.streams.set i st }

inductive Action where
  | open (tenantId : String) (channels : List SseChannel) (lastEventId : Option String)
  | replay (i : Nat) (ok : Bool)
  /-- Redis executes the oldest command of the subscriber connection. -/
  | execute
  /-- The oldest command fails; the awaiting stream call is rejected. -/
  | fail
  | attach (i : Nat)
  | close (i : Nat)
  | keepAlive (i : Nat) (now : String)
  /-- A message arrives on a channel the connection is subscribed to. -/
  | message (ch : String) (line : Line)
  /-- LPUSH and LTRIM of a producer. -/
  | retain (ch : String) (line : Line)
  | expire (ch : String)
  deriving DecidableEq, Repr

/-- A stream that has just reached its subscribe call sends the command. -/
def Broker.sendSubscribe (b : Broker) (i : Nat) (st : Stream) : Broker :=
  if st.phase = .subscribing then
    { b with commands := b.commands ++ [.subscribe i st.tenantChannels] }
  else b

def step (b : Broker) : Action → Option Broker
  | .open tenantId channels lastEventId =>
    let st := Stream.start tenantId channels lastEventId
    some ({ b with streams := b.streams ++ [st] }.sendSubscribe b.streams.length st)
  | .replay i ok => do
    let st ← b.streams[i]?
    let st' ← st.replay b.retainedOf ok
    some ((b.setStream i st').sendSubscribe i st')
  | .execute =>
    match b.commands with
    | .subscribe i chs :: rest => do
      let st ← b.streams[i]?
      some { b.setStream i { st with phase := .subscribed } with
        subscriptions := b.subscriptions ++ chs, commands := rest }
    | .unsubscribe chs :: rest =>
      some { b with subscriptions := b.subscriptions.filter (· ∉ chs), commands := rest }
    | [] => none
  | .fail =>
    match b.commands with
    | .subscribe i _ :: rest => do
      let st ← b.streams[i]?
      some { b.setStream i { st with phase := .returned } with commands := rest }
    | .unsubscribe _ :: rest => some { b with commands := rest }
    | [] => none
  | .attach i => do
    let st ← b.streams[i]?
    if st.phase = .subscribed then some (b.setStream i st.attach) else none
  | .close i => do
    let st ← b.streams[i]?
    let b' := b.setStream i st.close
    if st.closed then none
    else if st.phase = .attached then
      some { b' with commands := b.commands ++ [.unsubscribe st.tenantChannels] }
    else some b'
  | .keepAlive i now => do
    let st ← b.streams[i]?
    if st.heartbeat then some (b.setStream i (st.comment ("keep-alive " ++ now))) else none
  | .message ch line =>
    if ch ∈ b.subscriptions then
      some { b with streams := b.streams.map (fun st => st.receive ch line) }
    else none
  | .retain ch line => some (b.setRetained ch ((line :: b.retainedOf ch).take retainedMax))
  | .expire ch => some (b.setRetained ch [])

section
variable (st : Stream) (frames : List Frame)

@[simp] theorem write_tenantId : (st.write frames).tenantId = st.tenantId := by
  unfold Stream.write
  split <;> rfl

@[simp] theorem write_channels : (st.write frames).channels = st.channels := by
  unfold Stream.write
  split <;> rfl

@[simp] theorem write_cursor : (st.write frames).cursor = st.cursor := by
  unfold Stream.write
  split <;> rfl

@[simp] theorem write_closed : (st.write frames).closed = st.closed := by
  unfold Stream.write
  split <;> rfl

@[simp] theorem write_phase : (st.write frames).phase = st.phase := by
  unfold Stream.write
  split <;> rfl

@[simp] theorem write_onMessage : (st.write frames).onMessage = st.onMessage := by
  unfold Stream.write
  split <;> rfl

@[simp] theorem write_tenantChannels :
    (st.write frames).tenantChannels = st.tenantChannels := by
  simp [Stream.tenantChannels]

theorem write_open (h : st.closed = false) :
    (st.write frames).written = st.written ++ frames := by
  simp [Stream.write, h]

@[simp] theorem attach_closed : st.attach.closed = st.closed := by
  simp [Stream.attach, Stream.comment]

@[simp] theorem attach_tenantChannels : st.attach.tenantChannels = st.tenantChannels :=
  write_tenantChannels st _

@[simp] theorem close_closed : st.close.closed = true := by
  unfold Stream.close
  split <;> rfl

@[simp] theorem close_written : st.close.written = st.written := by
  unfold Stream.close
  split <;> rfl

@[simp] theorem close_tenantChannels : st.close.tenantChannels = st.tenantChannels := by
  unfold Stream.close
  split <;> rfl

theorem close_phase (h : st.phase ≠ .attached) : st.close.phase = st.phase := by
  simp [Stream.close, h]

theorem close_onMessage (h : st.phase ≠ .attached) : st.close.onMessage = st.onMessage := by
  simp [Stream.close, h]

theorem afterReplay_phase {phase : Phase} (hr : phase ≠ .returned) (hs : phase ≠ .subscribing) :
    st.afterReplay.phase ≠ phase := by
  unfold Stream.afterReplay
  dsimp only
  split
  · exact hr.symm
  · exact hs.symm

end

section
variable (st : Stream) (ch : String) (line : Line)

/-- A message may add a frame to a stream and changes nothing else of it. -/
theorem receive_eq : ∃ frames, st.receive ch line = st.write frames := by
  unfold Stream.receive
  cases line with
  | malformed text => exact ⟨[], by simp [Stream.write]⟩
  | event evt =>
    dsimp only
    split
    · exact ⟨_, rfl⟩
    · exact ⟨[], by simp [Stream.write]⟩

@[simp] theorem receive_channels : (st.receive ch line).channels = st.channels := by
  obtain ⟨frames, h⟩ := receive_eq st ch line
  simp [h]

@[simp] theorem receive_closed : (st.receive ch line).closed = st.closed := by
  obtain ⟨frames, h⟩ := receive_eq st ch line
  simp [h]

@[simp] theorem receive_phase : (st.receive ch line).phase = st.phase := by
  obtain ⟨frames, h⟩ := receive_eq st ch line
  simp [h]

@[simp] theorem receive_onMessage : (st.receive ch line).onMessage = st.onMessage := by
  obtain ⟨frames, h⟩ := receive_eq st ch line
  simp [h]

@[simp] theorem receive_tenantChannels :
    (st.receive ch line).tenantChannels = st.tenantChannels := by
  obtain ⟨frames, h⟩ := receive_eq st ch line
  simp [h]

theorem receive_written {evt : RealtimeEvent} (hon : st.onMessage = true)
    (ho : st.closed = false) :
    (st.receive ch (.event evt)).written = st.written ++ [.event ch evt] := by
  simp [Stream.receive, hon, Stream.send, write_open st _ ho]

theorem receive_deaf (hon : st.onMessage = false) : st.receive ch line = st := by
  cases line <;> simp [Stream.receive, hon]

end

section
variable {st st' : Stream} {retained : String → List Line} {ok : Bool}

/-- One pass of the replay loop sends one channel's events and leaves the loop after the
last one. -/
theorem replay_spec (h : st.replay retained ok = some st') :
    ∃ channel rest cursor, st.phase = .replaying (channel :: rest) ∧ st.cursor = some cursor ∧
      let ch := channelName st.tenantId channel
      let evts := if ok then retainedAfter (retained ch) cursor else []
      let u := { st.send ch evts with phase := .replaying rest }
      st' = if rest = [] then u.afterReplay else u := by
  unfold Stream.replay at h
  split at h
  · rename_i channel rest cursor hp hc
    exact ⟨channel, rest, cursor, hp, hc, (Option.some.inj h).symm⟩
  · contradiction

theorem replay_phase (h : st.replay retained ok = some st') :
    st'.phase ≠ .subscribed ∧ st'.phase ≠ .attached := by
  obtain ⟨channel, rest, cursor, -, -, rfl⟩ := replay_spec h
  dsimp only
  split
  · exact ⟨afterReplay_phase _ (by simp) (by simp), afterReplay_phase _ (by simp) (by simp)⟩
  · simp

theorem replay_onMessage (h : st.replay retained ok = some st') :
    st'.onMessage = st.onMessage := by
  obtain ⟨channel, rest, cursor, -, -, rfl⟩ := replay_spec h
  dsimp only
  split <;> simp [Stream.afterReplay, Stream.send]

end

section
variable (tenantId : String) (channels : List SseChannel) (last : Option String)

theorem start_written : (Stream.start tenantId channels last).written = [] := by
  unfold Stream.start
  dsimp only
  split <;> rfl

theorem start_cursor : (Stream.start tenantId channels last).cursor =
    last.bind (fun id => if id = "" then none else Lib.Js.bigInt id) := by
  unfold Stream.start
  dsimp only
  split <;> rfl

theorem start_fresh : (Stream.start tenantId channels last).phase ≠ .subscribed ∧
    (Stream.start tenantId channels last).phase ≠ .attached ∧
    (Stream.start tenantId channels last).onMessage = false := by
  unfold Stream.start
  dsimp only
  split
  · simp
  · simp [Stream.afterReplay]

end

section
variable (b : Broker) (i : Nat) (st : Stream)

@[simp] theorem setStream_streams : (b.setStream i st).streams = b.streams.set i st := rfl

@[simp] theorem setStream_subscriptions :
    (b.setStream i st).subscriptions = b.subscriptions := rfl

@[simp] theorem sendSubscribe_streams : (b.sendSubscribe i st).streams = b.streams := by
  unfold Broker.sendSubscribe
  split <;> rfl

@[simp] theorem sendSubscribe_subscriptions :
    (b.sendSubscribe i st).subscriptions = b.subscriptions := by
  unfold Broker.sendSubscribe
  split <;> rfl

end

end WaOps.Realtime
