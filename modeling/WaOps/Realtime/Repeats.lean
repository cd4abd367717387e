import WaOps.Lib.Recent
import WaOps.Realtime.Client

namespace WaOps.Realtime
open Lib.Runs Lib.Recent

/-- The event of the frame the client reads next. -/
def System.nextEvent (s : System) : Option RealtimeEvent := do
  let conn ← s.client.connection
  let st ← s.broker.streams[conn.stream]?
  let frame ← st.written[conn.read]?
  frame.evt?

/-- The events of the frames read in a run, on whatever connection. -/
def delivered : System → List SystemAction → List RealtimeEvent
  | _, [] => []
  | s, a :: as =>
    match systemStep s a with
    | none => []
    | some t => (if a = .read then s.nextEvent.toList else []) ++ delivered t as

/-- The SSE ids of events; the empty text is none. -/
def sseIds (evts : List RealtimeEvent) : List String :=
  (evts.map RealtimeEvent.id).filter (· ≠ "")

/-- What a handler is invoked with. It is subscribed to an event's type, or is not, at the time
the event is dispatched. -/
def Client.invoked (c : Client) (subscribed : Nat → String → Bool) : List RealtimeEvent :=
  (c.dispatched.zipIdx.filter (fun p => subscribed p.2 p.1.type)).map Prod.fst

/-- No handler is invoked twice for the same SSE id. -/
def Client.OncePerId (c : Client) : Prop :=
  ∀ subscribed, (sseIds (c.invoked subscribed)).Nodup

/-- The ids the client remembers and those it has dispatched. -/
def Client.ledger (c : Client) : Ledger String := (c.recentIds, sseIds c.dispatched)

section
variable {s t : System} {c : Client} {as : List SystemAction}

theorem sseIds_append (evts more : List RealtimeEvent) :
    sseIds (evts ++ more) = sseIds evts ++ sseIds more := by
  simp [sseIds]

theorem invoked_sublist (subscribed : Nat → String → Bool) :
    (c.invoked subscribed).Sublist c.dispatched := by
  have h := (List.filter_sublist (l := c.dispatched.zipIdx)
    (p := fun p => subscribed p.2 p.1.type)).map Prod.fst
  rwa [List.zipIdx_map_fst] at h

/-- The handler of every type sees everything. -/
theorem invoked_all : c.invoked (fun _ _ => true) = c.dispatched := by
  simp [Client.invoked]

theorem oncePerId_iff : c.OncePerId ↔ (sseIds c.dispatched).Nodup := by
  constructor
  · intro h
    have hall := h (fun _ _ => true)
    rwa [invoked_all] at hall
  · intro h subscribed
    exact h.sublist (((invoked_sublist subscribed).map _).filter _)

/-- The client takes an event unless it remembers the event's id. -/
theorem receive_ledger (evt : RealtimeEvent) :
    (c.receive evt).ledger = (sseIds [evt]).foldl (offer dedupWindow) c.ledger := by
  by_cases hne : evt.id = ""
  · simp [Client.receive, Client.isDuplicate, Client.dispatchFrame, Client.ledger, hne, sseIds]
  · by_cases hseen : evt.id ∈ c.recentIds
    · simp [Client.receive, Client.isDuplicate, Client.ledger, sseIds, offer, hne, hseen]
    · simp [Client.receive, Client.isDuplicate, Client.dispatchFrame, Client.ledger, sseIds, offer,
        hne, hseen]

/-- A step offers the client the event of the frame it reads, if any. -/
theorem step_ledger {a : SystemAction} (h : systemStep s a = some t) : t.client.ledger =
    (sseIds (if a = .read then s.nextEvent.toList else [])).foldl (offer dedupWindow)
      s.client.ledger := by
  cases systemStep_effect h with
  | comment hc hst hf =>
    have hnext : s.nextEvent = none := by
      simp [System.nextEvent, hc, hst, hf, Frame.evt?]
    rw [if_pos rfl, hnext]
    rfl
  | event hc hst hf =>
    rename_i origin evt st conn
    have hnext : s.nextEvent = some evt := by
      simp [System.nextEvent, hc, hst, hf, Frame.evt?]
    rw [if_pos rfl, hnext]
    exact receive_ledger evt
  | _ => rfl

/-- The ledger of a run is that of the ids delivered in it. -/
theorem exec_ledger (h : exec systemStep s as = some t) : t.client.ledger =
    (sseIds (delivered s as)).foldl (offer dedupWindow) s.client.ledger := by
  induction as generalizing s with
  | nil =>
    cases h
    rfl
  | cons a as ih =>
    obtain ⟨u, hu, hrest⟩ := exec_cons h
    simp only [delivered, hu]
    rw [ih hrest, step_ledger hu, sseIds_append, List.foldl_append]

end

/-- In a run of one client no handler is invoked twice for an SSE id exactly when every id that
is delivered again is one of the last ones, as many as the client remembers. -/
theorem oncePerId_iff_spaced {tenantId : String} {channels : List SseChannel}
    {startId : Option String} {as : List SystemAction} {s : System}
    (h : exec systemStep (System.start tenantId channels startId) as = some s) :
    s.client.OncePerId ↔
      Spaced dedupWindow (sseIds (delivered (System.start tenantId channels startId) as)) := by
  have hledger := exec_ledger h
  have hstart : (System.start tenantId channels startId).client.ledger = ([], []) := rfl
  rw [hstart] at hledger
  rw [oncePerId_iff, ← nodup_iff_spaced, ← hledger]
  rfl

def created (channel : SseChannel) : SystemAction :=
  .nextId "a" channel "incident.created" "2026-09-25T12:00:00.000Z" "{}"

/-- An incident is read, the connection drops, and the incident's cursor replays nothing twice. -/
def onceRead : List SystemAction :=
  [.connect, .broker .execute, .broker (.attach 0), .read, created .incidents, .publish 0,
    .retain 0, .read, .disconnect, .connect, .broker (.replay 1 true)]

theorem once_read : ∃ s,
    exec systemStep (System.start "a" [.incidents] none) onceRead = some s ∧
      (s.client.OncePerId ↔
        Spaced dedupWindow (sseIds (delivered (System.start "a" [.incidents] none) onceRead))) :=
  have hrun : (exec systemStep (System.start "a" [.incidents] none) onceRead).isSome := by decide
  ⟨_, (Option.some_get hrun).symm, oncePerId_iff_spaced (Option.some_get hrun).symm⟩

/-- While the client is away, an agent's event and 65 incidents are retained. They are replayed
channel by channel, so that the cursor ends at the agent's event, below all the incidents; after
another reconnection the first of them comes again. -/
def resumedBelow : List SystemAction :=
  [.connect, .broker .execute, .broker (.attach 0), .read, created .incidents, .publish 0,
    .retain 0, .read, .disconnect, created .agents] ++ List.replicate 65 (created .incidents) ++
    (List.range' 1 66).map .publish ++ (List.range' 1 66).map .retain ++
    [.connect, .broker (.replay 1 true), .broker (.replay 1 true)] ++ List.replicate 66 .read ++
    [.disconnect, .connect, .broker (.replay 2 true), .read]

theorem handled_twice : ¬ ∀ tenantId channels startId as s,
    exec systemStep (System.start tenantId channels startId) as = some s → s.client.OncePerId := by
  intro h
  have hrun : ∃ s ∈ exec systemStep (System.start "a" [.incidents, .agents] none) resumedBelow,
      1 < (sseIds s.client.dispatched).count "3" := by
    decide +kernel
  obtain ⟨s, hs, htwice⟩ := hrun
  have honce := oncePerId_iff.mp (h "a" [.incidents, .agents] none resumedBelow s hs)
  exact absurd (List.nodup_iff_count_le_one.mp honce "3") (by omega)

end WaOps.Realtime
