import Mathlib.Data.List.Nodup
import WaOps.Incidents.Duplicates

namespace WaOps.Incidents
open Lib Lib.Runs

structure NotificationChannel where
  id : String
  tenantId : String
  provider : String
  enabled : Bool := true
  configJson : Js.Json

inductive DeliveryStatus where
  | pending | delivered | failed
  deriving DecidableEq, Repr

structure NotificationDelivery where
  id : String
  tenantId : String
  channelId : String
  incidentId : Option String
  status : DeliveryStatus := .pending
  attemptCount : Nat := 0
  lastError : Option String := none
  providerMessageRef : Option String := none
  deriving DecidableEq, Repr

structure IncidentRealtimeEvent where
  id : String
  channel : String := "incidents"
  type : String := "incident.created"
  occurredAt : Int
  incidentId : String
  eventType : String
  severity : String
  resourceId : Option String
  title : String
  deriving DecidableEq, Repr

/-- Events are handled one after the other, and the database and Redis answer. -/
structure Notifier where
  tables : State := {}
  channels : List NotificationChannel := []
  deliveries : List NotificationDelivery := []
  /-- The counters `sse:seq:{tenant}`. -/
  seq : String → Nat := fun _ => 0
  /-- What was published, each with its Redis channel. -/
  published : List (String × IncidentRealtimeEvent) := []

inductive DispatchResult where
  | skipped | delivered
  | failed (error : String)
  deriving DecidableEq, Repr

/-- The search for an open incident and what is written after it, with the id a new incident
would get; whether the event was deduplicated comes last. -/
def State.openFromEvent (s : State) (e : EventEnvelope) (newId : String) : State × String × Bool :=
  match e.key with
  | none => (s, "", false)
  | some _ =>
    match s.incidents.find? (Incident.openFor e) with
    | some x =>
      ({ s.link e x.id with timeline := s.timeline ++ [e.recurrence x.id] }, x.id, true)
    | none => (s.create e newId, newId, false)

def Notifier.emitIncidentEvent (s : Notifier) (e : EventEnvelope) (incidentId : String) :
    Notifier :=
  let id := s.seq e.tenantId + 1
  { s with
    seq := fun t => if t = e.tenantId then id else s.seq t
    published := s.published ++ [("tenant:" ++ e.tenantId ++ ":incidents",
      { id := toString id
        occurredAt := e.observedAt
        incidentId
        eventType := e.eventType
        severity := e.severity
        resourceId := e.resourceId
        title := e.eventType ++ " on " ++ e.resourceId.getD "resource" })] }

/- What the mail server or the webhook's endpoint makes of a channel's message: accepted, with
the message's reference if there is one, or an error. And the id the n-th delivery row gets. -/
variable (send : NotificationChannel → NotificationDelivery → EventEnvelope →
  Except String (Option String)) (uuid : Nat → String)

def Notifier.dispatchToChannel (s : Notifier) (channelId : String) (incidentId : Option String)
    (e : EventEnvelope) : Notifier × DispatchResult :=
  match s.channels.find? (fun c => c.id = channelId) with
  | none => (s, .skipped)
  | some channel =>
    if !channel.enabled then (s, .skipped)
    else
      let delivery : NotificationDelivery :=
        { id := uuid s.deliveries.length
          tenantId := e.tenantId
          channelId
          incidentId := incidentId.or e.resourceId }
      let answer :=
        if channel.provider = "email" ∨ channel.provider = "webhook" then send channel delivery e
        else .error "unknown provider"
      match answer with
      | .ok ref =>
        let row := { delivery with
          status := .delivered, providerMessageRef := ref, attemptCount := 1 }
        ({ s with deliveries := s.deliveries ++ [row] }, .delivered)
      | .error message =>
        let row := { delivery with status := .failed, lastError := some message, attemptCount := 1 }
        ({ s with deliveries := s.deliveries ++ [row] }, .failed message)

/-- The two fan-outs, for a truthy incident id. -/
def Notifier.notify (s : Notifier) (e : EventEnvelope) (incidentId : String) : Notifier :=
  if incidentId = "" then s
  else
    let channels := s.channels.filter (fun c => c.tenantId = e.tenantId && c.enabled)
    channels.foldl (fun s c => (s.dispatchToChannel send uuid c.id (some incidentId) e).1)
      (s.emitIncidentEvent e incidentId)

/-- Nothing is done for an event that is stored already. The third answer of `openFromEvent` is
not read. -/
def Notifier.handleEventEnvelope (s : Notifier) (e : EventEnvelope) (newId : String) : Notifier :=
  if s.tables.stored e.eventId then s
  else
    let (tables, incidentId, _) :=
      { s.tables with events := s.tables.events ++ [e.row] }.openFromEvent e newId
    { s with tables }.notify send uuid e incidentId

/-- Events one after the other, each with the id that a new incident would get. -/
def Notifier.handleAll (s : Notifier) (es : List (EventEnvelope × String)) : Notifier :=
  es.foldl (fun s x => s.handleEventEnvelope send uuid x.1 x.2) s

variable {send uuid} {s : Notifier} {e : EventEnvelope} {channel : NotificationChannel}
  {newId incidentId tenantId fingerprint : String}

theorem dispatch_keeps {channelId : String} {id : Option String} :
    (s.dispatchToChannel send uuid channelId id e).1.tables = s.tables ∧
      (s.dispatchToChannel send uuid channelId id e).1.channels = s.channels := by
  unfold Notifier.dispatchToChannel
  split
  · exact ⟨rfl, rfl⟩
  · split
    · exact ⟨rfl, rfl⟩
    · dsimp only
      split
      · exact ⟨rfl, rfl⟩
      · exact ⟨rfl, rfl⟩

theorem notify_keeps : (s.notify send uuid e incidentId).tables = s.tables ∧
    (s.notify send uuid e incidentId).channels = s.channels := by
  have hloop : ∀ (channels : List NotificationChannel) (u : Notifier),
      (channels.foldl (fun s c => (s.dispatchToChannel send uuid c.id (some incidentId) e).1)
        u).tables = u.tables ∧
      (channels.foldl (fun s c => (s.dispatchToChannel send uuid c.id (some incidentId) e).1)
        u).channels = u.channels := by
    intro channels
    induction channels with
    | nil => exact fun u => ⟨rfl, rfl⟩
    | cons c channels ih =>
      intro u
      obtain ⟨htables, hchannels⟩ := ih (u.dispatchToChannel send uuid c.id (some incidentId) e).1
      exact ⟨htables.trans dispatch_keeps.1, hchannels.trans dispatch_keeps.2⟩
  unfold Notifier.notify
  split
  · exact ⟨rfl, rfl⟩
  · exact hloop _ _

/-- The steps of delivery `i` from its search on, none of which fails. -/
def opening (s : State) (i : Nat) (e : EventEnvelope) (newId : String) : List Action :=
  .check i true ::
    match e.key, s.incidents.find? (Incident.openFor e) with
    | none, _ => []
    | some _, some _ => [.link i .committed, .entry i .committed]
    | some _, none => [.create i newId .committed]

/-- The steps of a whole attempt up to the end of `openFromEvent`. -/
def attempt (s : State) (e : EventEnvelope) (newId : String) : List Action :=
  let i := s.deliveries.length
  .deliver e :: .insert i .committed ::
    if s.stored e.eventId then [] else opening s i e newId

def State.rows (s : State) : List DomainEvent × List Incident × List IncidentEvent ×
    List TimelineEntry :=
  (s.events, s.incidents, s.links, s.timeline)

/-- The link insert reads and writes the rows alone, and leaves the timeline. -/
theorem link_rows {u v : State} {id : String} (h : u.rows = v.rows) :
    (u.link e id).rows = (v.link e id).rows ∧ (u.link e id).timeline = v.timeline := by
  simp only [State.rows, Prod.mk.injEq] at h
  obtain ⟨hevents, hincidents, hlinks, htimeline⟩ := h
  simp only [State.link, hlinks]
  split
  · simp [State.rows, hevents, hincidents, hlinks, htimeline]
  · simp [State.rows, hevents, hincidents, htimeline]

section Steps
variable {w : State} {i : Nat} {key id : String}

theorem step_check_found {x : Incident} (hat : w.deliveries[i]? = some ⟨e, .stored⟩)
    (hkey : e.key = some key) (hfind : w.incidents.find? (Incident.openFor e) = some x) :
    step w (.check i true) = some (w.setPc i (.found x.id)) := by
  simp [step, hat, hkey, hfind]

theorem step_check_none (hat : w.deliveries[i]? = some ⟨e, .stored⟩)
    (hkey : e.key = some key) (hfind : w.incidents.find? (Incident.openFor e) = none) :
    step w (.check i true) = some (w.setPc i .notFound) := by
  simp [step, hat, hkey, hfind]

theorem step_create (hat : w.deliveries[i]? = some ⟨e, .notFound⟩)
    (hfresh : ∀ x ∈ w.incidents, x.id ≠ id) :
    step w (.create i id .committed) = some ((w.create e id).setPc i (.opened id)) := by
  have hnew : w.incidents.any (fun x => x.id = id) = false := by
    simpa [List.any_eq_false] using hfresh
  simp [step, hat, hnew]

theorem step_link (hat : w.deliveries[i]? = some ⟨e, .found id⟩) :
    step w (.link i .committed) = some ((w.link e id).setPc i (.linked id)) := by
  simp [step, hat]

theorem step_entry (hat : w.deliveries[i]? = some ⟨e, .linked id⟩) :
    step w (.entry i .committed) =
      some ({ w with timeline := w.timeline ++ [e.recurrence id] }.setPc i (.opened id)) := by
  simp [step, hat]

end Steps

theorem opening_rows {u v : State} {i : Nat} (hat : u.deliveries[i]? = some ⟨e, .stored⟩)
    (hfresh : ∀ x ∈ u.incidents, x.id ≠ newId) (h : u.rows = v.rows) :
    ∃ w, exec step u (opening u i e newId) = some w ∧
      w.rows = (v.openFromEvent e newId).1.rows := by
  have hrows := h
  simp only [State.rows, Prod.mk.injEq] at hrows
  obtain ⟨hevents, hincidents, hlinks, htimeline⟩ := hrows
  unfold opening State.openFromEvent
  cases hkey : e.key with
  | none =>
    refine ⟨u.setPc i (.opened ""), ?_, h⟩
    simp [exec, step, hat, hkey]
  | some key =>
    rw [← hincidents]
    cases hfind : u.incidents.find? (Incident.openFor e) with
    | none =>
      have hcheck := step_check_none hat hkey hfind
      have hfound : (u.setPc i .notFound).deliveries[i]? = some ⟨e, .notFound⟩ := setPc_at_self hat
      have hcreate := step_create hfound hfresh
      refine ⟨_, (exec_of_step hcheck).trans (exec_of_step hcreate), ?_⟩
      simp [State.rows, State.setPc, State.create, hevents, hincidents, hlinks, htimeline]
    | some x =>
      have hcheck := step_check_found hat hkey hfind
      have hfound : (u.setPc i (.found x.id)).deliveries[i]? = some ⟨e, .found x.id⟩ :=
        setPc_at_self hat
      have hlink := step_link hfound
      have hkept := link_deliveries (u.setPc i (.found x.id)) e x.id
      have hlinked : (((u.setPc i (.found x.id)).link e x.id).setPc i (.linked x.id)).deliveries[
          i]? = some ⟨e, .linked x.id⟩ := setPc_at_self (hkept ▸ hfound)
      have hentry := step_entry hlinked
      obtain ⟨hrows, htimeline'⟩ :
          ((u.setPc i (.found x.id)).link e x.id).rows = (v.link e x.id).rows ∧ _ := link_rows h
      refine ⟨_, (exec_of_step hcheck).trans ((exec_of_step hlink).trans (exec_of_step hentry)), ?_⟩
      simp only [State.rows, Prod.mk.injEq] at hrows
      obtain ⟨hevents', hincidents', hlinks', -⟩ := hrows
      simp only [State.rows, Prod.mk.injEq]
      refine ⟨hevents', hincidents', hlinks', ?_⟩
      rw [← htimeline']
      rfl

/-- The handler leaves the rows that the steps of an attempt leave. -/
theorem attempt_rows
    (hjob : ∀ d ∈ s.tables.deliveries, d.envelope.eventId = e.eventId → d.envelope = e)
    (hfresh : ∀ x ∈ s.tables.incidents, x.id ≠ newId) :
    ∃ u, exec step s.tables (attempt s.tables e newId) = some u ∧
      u.rows = (s.handleEventEnvelope send uuid e newId).tables.rows := by
  have hdeliver : step s.tables (.deliver e) =
      some { s.tables with deliveries := s.tables.deliveries ++ [{ envelope := e }] } := by
    refine if_pos (List.all_eq_true.mpr fun d hd => decide_eq_true ?_)
    exact hjob d hd
  generalize hu : ({ s.tables with
    deliveries := s.tables.deliveries ++ [{ envelope := e }] } : State) = u at hdeliver
  have hat : u.deliveries[s.tables.deliveries.length]? = some ⟨e, .received⟩ := by
    rw [← hu]
    exact List.getElem?_concat_length
  have hstored : u.stored e.eventId = s.tables.stored e.eventId := by
    rw [← hu]
    rfl
  unfold attempt Notifier.handleEventEnvelope
  cases hst : s.tables.stored e.eventId with
  | true =>
    have hinsert : step u (.insert s.tables.deliveries.length .committed) =
        some (u.complete s.tables.deliveries.length e) := by
      simp [step, hat, hstored, hst]
    refine ⟨_, (exec_of_step hdeliver).trans (exec_of_step hinsert), ?_⟩
    rw [← hu]
    rfl
  | false =>
    have hinsert : step u (.insert s.tables.deliveries.length .committed) =
        some ({ u with events := u.events ++ [e.row] }.setPc s.tables.deliveries.length
          .stored) := by
      simp [step, hat, hstored, hst]
    have hstoredAt : ({ u with events := u.events ++ [e.row] }.setPc s.tables.deliveries.length
        .stored).deliveries[s.tables.deliveries.length]? = some ⟨e, .stored⟩ := setPc_at_self hat
    subst hu
    obtain ⟨w, hrun, hrows⟩ := opening_rows hstoredAt hfresh
      (v := { s.tables with events := s.tables.events ++ [e.row] }) rfl
    refine ⟨w, (exec_of_step hdeliver).trans ((exec_of_step hinsert).trans hrun), ?_⟩
    rw [hrows, if_neg Bool.false_ne_true]
    dsimp only
    rw [notify_keeps.1]

/-- A dispatch to an enabled channel adds one row, whatever the provider answers. -/
theorem dispatch_row (hc : s.channels.find? (fun c => c.id = channel.id) = some channel)
    (he : channel.enabled = true) :
    ∃ row, (s.dispatchToChannel send uuid channel.id (some incidentId) e).1 =
      { s with deliveries := s.deliveries ++ [row] } ∧
      row.channelId = channel.id ∧ row.incidentId = some incidentId := by
  simp only [Notifier.dispatchToChannel, hc, he, Bool.not_true, Bool.false_eq_true, if_false]
  split
  · exact ⟨_, rfl, rfl, rfl⟩
  · exact ⟨_, rfl, rfl, rfl⟩

/-- A row for each channel of the loop. -/
theorem dispatch_rows {channels : List NotificationChannel}
    (h : ∀ c ∈ channels, s.channels.find? (fun c' => c'.id = c.id) = some c ∧ c.enabled = true) :
    ∃ rows, channels.foldl
        (fun s c => (s.dispatchToChannel send uuid c.id (some incidentId) e).1) s =
      { s with deliveries := s.deliveries ++ rows } ∧
      rows.map NotificationDelivery.channelId = channels.map NotificationChannel.id ∧
      ∀ row ∈ rows, row.incidentId = some incidentId := by
  induction channels generalizing s with
  | nil => exact ⟨[], by simp, rfl, by simp⟩
  | cons c channels ih =>
    obtain ⟨hfind, henabled⟩ := h c List.mem_cons_self
    obtain ⟨row, hrow, hid, hincident⟩ :
        ∃ row, (s.dispatchToChannel send uuid c.id (some incidentId) e).1 =
          { s with deliveries := s.deliveries ++ [row] } ∧
          row.channelId = c.id ∧ row.incidentId = some incidentId :=
      dispatch_row hfind henabled
    rw [List.foldl_cons, hrow]
    obtain ⟨rows, hrows, hids, hincidents⟩ :=
      ih (s := { s with deliveries := s.deliveries ++ [row] })
        fun c' hc' => h c' (List.mem_cons_of_mem c hc')
    refine ⟨row :: rows, by simp [hrows], by rw [List.map_cons, List.map_cons, hid, hids], ?_⟩
    intro row' hm
    rcases List.mem_cons.mp hm with rfl | hm
    · exact hincident
    · exact hincidents row' hm

/-- The delivery rows of a channel for an incident. -/
def Notifier.deliveriesTo (s : Notifier) (channelId incidentId : String) : Nat :=
  s.deliveries.countP (fun d => d.channelId = channelId ∧ d.incidentId = some incidentId)

/-- The incident.created events for an incident on the tenant's realtime channel. -/
def Notifier.createdFor (s : Notifier) (tenantId incidentId : String) : Nat :=
  s.published.countP (fun x => x.1 = "tenant:" ++ tenantId ++ ":incidents" ∧
    x.2.type = "incident.created" ∧ x.2.incidentId = incidentId)

def Notifier.channelsOf (s : Notifier) (tenantId : String) : List NotificationChannel :=
  s.channels.filter (fun c => c.tenantId = tenantId && c.enabled)

def Notifier.UniqueChannels (s : Notifier) : Prop :=
  (s.channels.map NotificationChannel.id).Nodup

theorem find_channel (h : s.UniqueChannels) (hc : channel ∈ s.channels) :
    s.channels.find? (fun c => c.id = channel.id) = some channel := by
  cases hfind : s.channels.find? (fun c => c.id = channel.id) with
  | none => exact absurd (List.find?_eq_none.mp hfind channel hc) (by simp)
  | some c =>
    have hid : c.id = channel.id := by simpa using List.find?_some hfind
    have hmem := List.mem_of_find?_eq_some hfind
    rw [List.inj_on_of_nodup_map h hmem hc hid]

/-- Both fan-outs happen once for each event that has an incident. -/
theorem notify_counts (h : s.UniqueChannels) (hne : incidentId ≠ "") :
    (s.notify send uuid e incidentId).createdFor e.tenantId incidentId =
      s.createdFor e.tenantId incidentId + 1 ∧
    ∀ c ∈ s.channelsOf e.tenantId, (s.notify send uuid e incidentId).deliveriesTo c.id incidentId =
      s.deliveriesTo c.id incidentId + 1 := by
  have hchannels : ∀ c ∈ s.channelsOf e.tenantId,
      (s.emitIncidentEvent e incidentId).channels.find? (fun c' => c'.id = c.id) = some c ∧
        c.enabled = true := by
    intro c hc
    obtain ⟨hmem, hof⟩ := List.mem_filter.mp hc
    rw [Bool.and_eq_true] at hof
    exact ⟨find_channel h hmem, hof.2⟩
  obtain ⟨rows, hrows, hids, hincidents⟩ := dispatch_rows (e := e) hchannels
  have hnotify : s.notify send uuid e incidentId = { s.emitIncidentEvent e incidentId with
      deliveries := s.deliveries ++ rows } := by
    rw [Notifier.notify, if_neg hne]
    exact hrows
  rw [hnotify]
  refine ⟨?_, ?_⟩
  · simp [Notifier.createdFor, Notifier.emitIncidentEvent]
  · intro c hc
    have hone : rows.countP (fun d => d.channelId = c.id ∧ d.incidentId = some incidentId) = 1 := by
      have hcount : rows.countP (fun d => d.channelId = c.id ∧ d.incidentId = some incidentId) =
          (rows.map NotificationDelivery.channelId).count c.id := by
        rw [List.count, List.countP_map]
        refine List.countP_congr fun row hrow => ?_
        simp [hincidents row hrow]
      rw [hcount, hids]
      have hnodup : ((s.channelsOf e.tenantId).map NotificationChannel.id).Nodup :=
        h.sublist (List.filter_sublist.map _)
      exact List.count_eq_one_of_mem hnodup (List.mem_map_of_mem hc)
    simp only [Notifier.deliveriesTo, List.countP_append, hone]

/-- Each channel has this many deliveries for the incident, and the realtime channel this many
events. -/
structure Notified (s : Notifier) (tenantId incidentId : String) (n : Nat) : Prop where
  realtime : s.createdFor tenantId incidentId = n
  channels : ∀ c ∈ s.channelsOf tenantId, s.deliveriesTo c.id incidentId = n

/-- Events of the fingerprint find this incident, and so many of them have notified. -/
structure Ongoing (s : Notifier) (tenantId fingerprint incidentId : String) (n : Nat) : Prop where
  notified : Notified s tenantId incidentId n
  found : ∀ e : EventEnvelope, e.tenantId = tenantId → e.fingerprint = some fingerprint →
    ∃ x, s.tables.incidents.find? (Incident.openFor e) = some x ∧ x.id = incidentId
  unique : s.UniqueChannels
  named : incidentId ≠ ""

/-- An event of the fingerprint that is not stored yet. -/
structure New (s : Notifier) (tenantId fingerprint : String) (e : EventEnvelope) : Prop where
  tenant : e.tenantId = tenantId
  key : e.key = some fingerprint
  unseen : s.tables.stored e.eventId = false

theorem fingerprint_of_key (h : e.key = some fingerprint) : e.fingerprint = some fingerprint := by
  unfold EventEnvelope.key at h
  split at h
  · cases h
  · exact h

theorem ongoing_notify {n : Nat} (h : Ongoing s e.tenantId fingerprint incidentId n) :
    Ongoing (s.notify send uuid e incidentId) e.tenantId fingerprint incidentId (n + 1) := by
  obtain ⟨hrealtime, hcounts⟩ := notify_counts (e := e) h.unique h.named
  obtain ⟨htables, hchannels⟩ := notify_keeps (s := s) (e := e)
  refine ⟨⟨by rw [hrealtime, h.notified.realtime], ?_⟩, ?_, ?_, h.named⟩
  · intro c hc
    rw [Notifier.channelsOf, hchannels] at hc
    rw [hcounts c hc, h.notified.channels c hc]
  · rw [htables]
    exact h.found
  · rw [Notifier.UniqueChannels, hchannels]
    exact h.unique

theorem handle_new {tables : State} {deduped : Bool} (h : New s tenantId fingerprint e)
    (hopen : { s.tables with events := s.tables.events ++ [e.row] }.openFromEvent e newId =
      (tables, incidentId, deduped)) :
    s.handleEventEnvelope send uuid e newId = { s with tables }.notify send uuid e incidentId := by
  simp only [Notifier.handleEventEnvelope, h.unseen, hopen, Bool.false_eq_true, if_false]

/-- The next event of an ongoing incident notifies once more. -/
theorem handle_recurring {n : Nat} (h : Ongoing s tenantId fingerprint incidentId n)
    (hnew : New s tenantId fingerprint e) :
    Ongoing (s.handleEventEnvelope send uuid e newId) tenantId fingerprint incidentId (n + 1) := by
  have htenant := hnew.tenant
  subst htenant
  obtain ⟨x, hfind, hid⟩ := h.found e rfl (fingerprint_of_key hnew.key)
  have hopen : { s.tables with events := s.tables.events ++ [e.row] }.openFromEvent e newId =
      ({ { s.tables with events := s.tables.events ++ [e.row] }.link e x.id with
        timeline := s.tables.timeline ++ [e.recurrence x.id] }, incidentId, true) := by
    simp only [State.openFromEvent, hnew.key, hfind, hid]
  rw [handle_new hnew hopen]
  refine ongoing_notify ⟨⟨h.notified.realtime, h.notified.channels⟩, ?_, h.unique, h.named⟩
  intro e' htenant hfingerprint
  have hkept := link_incidents { s.tables with events := s.tables.events ++ [e.row] } e x.id
  dsimp only
  rw [hkept]
  exact h.found e' htenant hfingerprint

/-- The id has not been given to anything yet. -/
structure Unused (s : Notifier) (id : String) : Prop where
  named : id ≠ ""
  deliveries : ∀ d ∈ s.deliveries, d.incidentId ≠ some id
  published : ∀ x ∈ s.published, x.2.incidentId ≠ id

/-- The first event opens an incident and notifies once. -/
theorem handle_opening (hnew : New s tenantId fingerprint e) (hunique : s.UniqueChannels)
    (hclosed : ∀ x ∈ s.tables.incidents, x.openFor e = false) (hunused : Unused s newId) :
    Ongoing (s.handleEventEnvelope send uuid e newId) tenantId fingerprint newId 1 := by
  have htenant := hnew.tenant
  subst htenant
  have hnone : s.tables.incidents.find? (Incident.openFor e) = none := by
    refine List.find?_eq_none.mpr fun x hx => ?_
    rw [hclosed x hx]
    simp
  have hopen : { s.tables with events := s.tables.events ++ [e.row] }.openFromEvent e newId =
      ({ s.tables with events := s.tables.events ++ [e.row] }.create e newId, newId, false) := by
    simp only [State.openFromEvent, hnew.key, hnone]
  rw [handle_new hnew hopen]
  refine ongoing_notify ⟨⟨?_, ?_⟩, ?_, hunique, hunused.named⟩
  · refine List.countP_eq_zero.mpr fun x hx => ?_
    have hother := hunused.published x hx
    simp [hother]
  · intro c hc
    refine List.countP_eq_zero.mpr fun d hd => ?_
    have hother := hunused.deliveries d hd
    simp [hother]
  · intro e' htenant hfingerprint
    have hsame : Incident.openFor e' = Incident.openFor e := by
      funext x
      simp [Incident.openFor, htenant, hfingerprint, fingerprint_of_key hnew.key]
    refine ⟨e.incident newId, ?_, rfl⟩
    rw [hsame]
    simp only [State.create, List.find?_append, hnone, Option.none_or]
    simp [Incident.openFor, EventEnvelope.incident, Incident.active]

theorem openFromEvent_events {tables : State} :
    (tables.openFromEvent e newId).1.events = tables.events := by
  unfold State.openFromEvent
  split
  · rfl
  · split
    · simp only [State.link]
      split <;> rfl
    · rfl

/-- Handling an event stores it and no other. -/
theorem handle_stored {eventId : String} (h : s.tables.stored eventId = false)
    (hne : e.eventId ≠ eventId) :
    (s.handleEventEnvelope send uuid e newId).tables.stored eventId = false := by
  unfold Notifier.handleEventEnvelope
  split
  · exact h
  · dsimp only
    rw [notify_keeps.1, State.stored, openFromEvent_events, List.any_append]
    simpa [State.stored, EventEnvelope.row, hne] using h

/-- The later of distinct new events stay new. -/
theorem rest_new {x : EventEnvelope × String} {es : List (EventEnvelope × String)}
    (hnew : ∀ y ∈ x :: es, New s tenantId fingerprint y.1)
    (hdistinct : ((x :: es).map (fun y => y.1.eventId)).Nodup) :
    ∀ y ∈ es, New (s.handleEventEnvelope send uuid x.1 x.2) tenantId fingerprint y.1 := by
  rw [List.map_cons, List.nodup_cons] at hdistinct
  intro y hy
  have hold := hnew y (List.mem_cons_of_mem x hy)
  refine ⟨hold.tenant, hold.key, handle_stored hold.unseen ?_⟩
  intro heq
  exact hdistinct.1 (heq ▸ List.mem_map_of_mem hy)

theorem handleAll_ongoing {n : Nat} {es : List (EventEnvelope × String)}
    (h : Ongoing s tenantId fingerprint incidentId n)
    (hnew : ∀ x ∈ es, New s tenantId fingerprint x.1)
    (hdistinct : (es.map (fun x => x.1.eventId)).Nodup) :
    Ongoing (s.handleAll send uuid es) tenantId fingerprint incidentId (n + es.length) := by
  induction es generalizing s n with
  | nil => exact h
  | cons x es ih =>
    have hnext : Ongoing (s.handleEventEnvelope send uuid x.1 x.2) tenantId fingerprint incidentId
        (n + 1) := handle_recurring h (hnew x List.mem_cons_self)
    rw [List.length_cons, Nat.add_comm es.length, ← Nat.add_assoc]
    exact ih hnext (rest_new hnew hdistinct) (List.nodup_cons.mp hdistinct).2

/-- Distinct events of one fingerprint, the first of which opens an incident. -/
structure Burst (s : Notifier) (tenantId fingerprint : String) (first : EventEnvelope × String)
    (rest : List (EventEnvelope × String)) : Prop where
  new : ∀ x ∈ first :: rest, New s tenantId fingerprint x.1
  distinct : ((first :: rest).map (fun x => x.1.eventId)).Nodup
  closed : ∀ x ∈ s.tables.incidents, x.openFor first.1 = false
  unused : Unused s first.2
  unique : s.UniqueChannels

/-- Every event of a burst notifies every channel. -/
theorem burst_ongoing {first : EventEnvelope × String} {rest : List (EventEnvelope × String)}
    (h : Burst s tenantId fingerprint first rest) :
    Ongoing (s.handleAll send uuid (first :: rest)) tenantId fingerprint first.2
      (1 + rest.length) :=
  handleAll_ongoing
    (handle_opening (h.new first List.mem_cons_self) h.unique h.closed h.unused)
    (rest_new h.new h.distinct) (List.nodup_cons.mp h.distinct).2

/-- The incident is notified of once exactly when no event recurs. -/
theorem notified_once_iff {first : EventEnvelope × String} {rest : List (EventEnvelope × String)}
    (h : Burst s tenantId fingerprint first rest) :
    Notified (s.handleAll send uuid (first :: rest)) tenantId first.2 1 ↔ rest = [] := by
  have hall : Notified (s.handleAll send uuid (first :: rest)) tenantId first.2
      (1 + rest.length) := (burst_ongoing h).notified
  constructor
  · intro honce
    have hlength : 1 + rest.length = 1 := hall.realtime.symm.trans honce.realtime
    exact List.length_eq_zero_iff.mp (by omega)
  · intro hrest
    subst hrest
    exact hall

/-- A tenant with a mail channel that is on and a webhook that is off. -/
def mailed : Notifier :=
  { channels :=
      [{ id := "c1", tenantId := "t", provider := "email", configJson := .null },
       { id := "c2", tenantId := "t", provider := "webhook", enabled := false
         configJson := .null }] }

theorem mailed_burst (rest : List (EventEnvelope × String))
    (hnew : ∀ x ∈ rest, New mailed "t" "cpu:h1" x.1)
    (hdistinct : (((cpuEvent "e1", "i1") :: rest).map (fun x => x.1.eventId)).Nodup) :
    Burst mailed "t" "cpu:h1" (cpuEvent "e1", "i1") rest := by
  refine ⟨?_, hdistinct, by simp [mailed], ⟨by decide, by simp [mailed], by simp [mailed]⟩,
    by simp [Notifier.UniqueChannels, mailed]⟩
  intro x hx
  rcases List.mem_cons.mp hx with rfl | hx
  · exact ⟨rfl, by decide, rfl⟩
  · exact hnew x hx

/-- One event, one mail. -/
theorem opening_notified : Burst mailed "t" "cpu:h1" (cpuEvent "e1", "i1") [] ∧
    Notified (mailed.handleAll (fun _ _ _ => .ok none) toString [(cpuEvent "e1", "i1")])
      "t" "i1" 1 := by
  have hburst := mailed_burst [] (by simp) (by decide)
  exact ⟨hburst, (notified_once_iff hburst).mpr rfl⟩

/-- The second event of the incident notifies again. -/
theorem recurrence_notified : ¬ ∀ send uuid s tenantId fingerprint first rest,
    Burst s tenantId fingerprint first rest →
      Notified (s.handleAll send uuid (first :: rest)) tenantId first.2 1 := by
  intro h
  have hburst : Burst mailed "t" "cpu:h1" (cpuEvent "e1", "i1") [(cpuEvent "e2", "i2")] := by
    refine mailed_burst _ ?_ (by decide)
    intro x hx
    rw [List.mem_singleton.mp hx]
    exact ⟨rfl, by decide, rfl⟩
  have honce := (h (fun _ _ _ => .ok none) toString _ _ _ _ _ hburst).realtime
  exact absurd honce (by decide +kernel)

end WaOps.Incidents
