import WaOps.Lib.Feed
import WaOps.Realtime.Client

namespace WaOps.Realtime
open Lib.Runs Lib.Lists Lib.Feed

/-- The stream the client is reading. -/
def System.stream (s : System) : Option Stream :=
  s.client.connection.bind (fun conn => s.broker.streams[conn.stream]?)

/-- The events written to the client's response and not read yet. -/
def System.inFlight (s : System) : List RealtimeEvent :=
  match s.client.connection, s.stream with
  | some conn, some st => (st.written.drop conn.read).filterMap Frame.evt?
  | _, _ => []

/-- The cursor the client's stream was opened with. -/
def System.resumed (s : System) : Option Int :=
  s.stream.bind Stream.cursor

/-- Not dispatched yet, and retained or about to be. -/
def System.Owed (s : System) (p : Publication) : Prop :=
  s.Concerns p ∧ p.evt ∉ s.client.dispatched ∧ (p.stage = .published ∨ s.Retained p)

instance (s : System) (p : Publication) : Decidable (s.Owed p) :=
  inferInstanceAs (Decidable (_ ∧ _))

/-- Above everything the client has been sent. -/
def System.Latest (s : System) (evt : RealtimeEvent) : Prop :=
  (∀ n ∈ s.client.position, n < evt.number) ∧ (∀ n ∈ s.resumed, n < evt.number) ∧
    (∀ f ∈ s.inFlight, f.number < evt.number) ∧ evt.id ∉ s.client.recentIds

instance (s : System) (evt : RealtimeEvent) : Decidable (s.Latest evt) :=
  inferInstanceAs (Decidable (_ ∧ _))

/-- Everything owed that has no higher id is on its way already. -/
def System.Follows (s : System) (evt : RealtimeEvent) : Prop :=
  ∀ p ∈ s.publications, s.Owed p → p.evt.number ≤ evt.number → p.evt ∈ s.inFlight

instance (s : System) (evt : RealtimeEvent) : Decidable (s.Follows evt) :=
  inferInstanceAs (Decidable (∀ p ∈ s.publications, _))

/-- Everything owed that has no higher id than an entry of the list above the cursor is in the
list itself or on its way already. -/
def System.Complete (s : System) (lines : List Line) (cursor : Int) : Prop :=
  ∀ f ∈ lines.filterMap Line.evt?, cursor < f.number → ∀ p ∈ s.publications, s.Owed p →
    p.evt.number ≤ f.number → Line.event p.evt ∈ lines ∨ p.evt ∈ s.inFlight

instance (s : System) (lines : List Line) (cursor : Int) : Decidable (s.Complete lines cursor) :=
  inferInstanceAs (Decidable (∀ f ∈ lines.filterMap Line.evt?, _))

/-- An event for the client is published before the client is sent one with a higher id. Its
stream is sent an event live only behind what it is owed below that id, and a pass of its
replay loop reads a list that misses nothing it is owed below the ids it sends. -/
def InTurn (s : System) : SystemAction → Prop
  | .publish k => ∀ p ∈ s.publications[k]?,
    (s.Concerns { p with since := s.client.connected } → s.Latest p.evt) ∧
    ∀ st ∈ s.stream, s.broker.Hears st p.name → s.Follows p.evt
  | .broker a => ∀ conn ∈ s.client.connection, a = .replay conn.stream true →
    ∀ st ∈ s.stream, st.closed = false → ∀ r ∈ st.nextReplay,
      s.Complete (s.broker.retainedOf r.1) r.2
  | _ => True

instance (s : System) : ∀ a, Decidable (InTurn s a)
  | .publish _ => inferInstanceAs (Decidable (∀ p ∈ s.publications[_]?, _))
  | .broker _ => inferInstanceAs (Decidable (∀ conn ∈ s.client.connection, _))
  | .nextId .. | .retain _ | .giveUp _ | .connect | .read | .disconnect =>
    inferInstanceAs (Decidable True)

/-- The events ids were given to, with their tenants. -/
def System.allotted (s : System) : List (String × RealtimeEvent) :=
  s.publications.map (fun p => (p.tenantId, p.evt))

/-- What holds in every run, whatever the order of the steps: an id is given to one event of a
tenant only, and the retained lists of a tenant hold nothing but its events. -/
structure Sound (s : System) : Prop where
  numbered : ∀ x ∈ s.allotted, ∃ n : Nat, n ≤ s.seq x.1 ∧ x.2.id = toString n
  distinct : (s.allotted.map (fun x => (x.1, x.2.id))).Nodup
  kept : ∀ tenantId channel line, line ∈ s.broker.retainedOf (channelName tenantId channel) →
    ∃ evt, line = .event evt ∧ (tenantId, evt) ∈ s.allotted
  reading : ∀ conn ∈ s.client.connection, ∃ st, s.broker.streams[conn.stream]? = some st ∧
    conn.read ≤ st.written.length

theorem toString_inj {m n : Nat} (h : toString m = toString n) : m = n := by
  have h := congrArg Lib.Js.bigInt h
  simpa only [Lib.Js.bigInt_toString, Option.some.injEq, Nat.cast_inj] using h

section
variable {s t : System} {k : Nat} {p q : Publication}

theorem setPublication_allotted (hp : s.publications[k]? = some p)
    (ht : q.tenantId = p.tenantId) (he : q.evt = p.evt) :
    (s.setPublication k q).allotted = s.allotted := by
  unfold System.allotted System.setPublication
  exact map_set_same _ hp (by rw [ht, he])

theorem Sound.move (h : Sound s) (ha : t.allotted = s.allotted) (hseq : t.seq = s.seq)
    (hr : ∀ ch, t.broker.retainedOf ch ⊆ s.broker.retainedOf ch)
    (hread : ∀ conn ∈ t.client.connection, ∃ st, t.broker.streams[conn.stream]? = some st ∧
      conn.read ≤ st.written.length) : Sound t := by
  refine ⟨?_, ?_, ?_, hread⟩
  · rw [ha, hseq]
    exact h.numbered
  · rw [ha]
    exact h.distinct
  · intro tenantId channel line hline
    rw [ha]
    exact h.kept tenantId channel line (hr _ hline)

/-- Writing to streams leaves what was read of them read. -/
theorem Sound.still_reading (h : Sound s) (hc : t.client.connection = s.client.connection)
    (hw : ∀ (i : Nat) (st : Stream), s.broker.streams[i]? = some st →
      ∃ st' evts, t.broker.streams[i]? = some st' ∧ st.Wrote st' evts) :
    ∀ conn ∈ t.client.connection, ∃ st, t.broker.streams[conn.stream]? = some st ∧
      conn.read ≤ st.written.length := by
  intro conn hconn
  rw [hc] at hconn
  obtain ⟨st, hst, hle⟩ := h.reading conn hconn
  obtain ⟨st', evts, hst', -, frames, hwritten, -⟩ := hw conn.stream st hst
  exact ⟨st', hst', by rw [hwritten, List.length_append]; omega⟩

/-- INCR gives no id out twice. -/
theorem nextId_sound {tenantId : String} (h : Sound s) (hp : p.tenantId = tenantId)
    (hid : p.evt.id = toString (s.seq tenantId + 1)) (ht : t = { s with
      seq := fun t => if t = tenantId then s.seq tenantId + 1 else s.seq t
      publications := s.publications ++ [p] }) : Sound t := by
  have hall : t.allotted = s.allotted ++ [(tenantId, p.evt)] := by
    simp [ht, System.allotted, hp]
  refine ⟨?_, ?_, ?_, ?_⟩
  · intro x hx
    rw [hall] at hx
    rw [ht]
    obtain hx | hx := List.mem_append.mp hx
    · obtain ⟨n, hn, hxid⟩ := h.numbered x hx
      refine ⟨n, ?_, hxid⟩
      dsimp only
      split
      · rename_i htenant
        rw [htenant] at hn
        omega
      · exact hn
    · cases List.mem_singleton.mp hx
      exact ⟨s.seq tenantId + 1, by simp, hid⟩
  · rw [hall, List.map_append]
    refine List.Nodup.append h.distinct (by simp) ?_
    intro key hkey hnew
    obtain ⟨x, hx, rfl⟩ := List.mem_map.mp hkey
    obtain ⟨n, hn, hxid⟩ := h.numbered x hx
    simp only [List.map_cons, List.map_nil, List.mem_singleton, Prod.mk.injEq] at hnew
    obtain ⟨htenant, hsame⟩ := hnew
    have := toString_inj (hxid.symm.trans (hsame.trans hid))
    rw [htenant] at hn
    omega
  · intro tenant channel line hline
    rw [ht] at hline
    obtain ⟨evt, rfl, hmem⟩ := h.kept tenant channel line hline
    rw [hall]
    exact ⟨evt, rfl, List.mem_append_left _ hmem⟩
  · rw [ht]
    exact h.reading

/-- What a producer retains goes to the list of its own tenant. -/
theorem retain_sound (h : Sound s) (hp : s.publications[k]? = some p) (ht : t = ({ s with
      broker := s.broker.setRetained p.name
        ((Line.event p.evt :: s.broker.retainedOf p.name).take retainedMax) }.setPublication k
      { p with stage := .settled })) : Sound t := by
  have hall : t.allotted = s.allotted := by
    rw [ht]
    exact setPublication_allotted hp rfl rfl
  refine ⟨?_, ?_, ?_, ?_⟩
  · rw [hall, ht]
    exact h.numbered
  · rw [hall]
    exact h.distinct
  · intro tenant channel line hline
    rw [hall]
    simp only [ht, System.setPublication, retainedOf_setRetained] at hline
    split at hline
    · rename_i hname
      obtain ⟨rfl, -⟩ := channelName_inj hname
      obtain rfl | hline := List.mem_cons.mp (List.mem_of_mem_take hline)
      · exact ⟨p.evt, rfl, List.mem_map.mpr ⟨p, List.mem_of_getElem? hp, rfl⟩⟩
      · exact h.kept p.tenantId channel line (hname ▸ hline)
    · exact h.kept tenant channel line hline
  · rw [ht]
    exact h.reading

theorem step_sound (s : System) (a : SystemAction) (t : System) (h : Sound s)
    (hs : systemStep s a = some t) : Sound t := by
  cases systemStep_effect hs with
  | nextId hp hid hsince => exact nextId_sound h hp hid rfl
  | publish hp hst =>
    rename_i k p
    refine h.move (setPublication_allotted hp rfl rfl) rfl (by simp [System.setPublication]) ?_
    refine h.still_reading rfl ?_
    intro i st hst'
    obtain ⟨st', hst', hw⟩ := publish_wrote hst' p.name p.evt
    exact ⟨st', _, hst', hw⟩
  | retain hp hst => exact retain_sound h hp rfl
  | giveUp hp hst =>
    exact h.move (setPublication_allotted hp rfl rfl) rfl (fun _ => List.Subset.refl _) h.reading
  | broker hb hm hr =>
    refine h.move rfl rfl (step_retained hb hr) (h.still_reading rfl ?_)
    intro i st hst
    obtain ⟨st', evts, hst', hw, -⟩ := step_wrote hb hm hst
    exact ⟨st', evts, hst', hw⟩
  | connect hc hb =>
    refine h.move rfl rfl (step_retained hb (by simp)) ?_
    intro conn hconn
    cases hconn
    cases step_effect hb with
    | «open» hst =>
      rename_i st
      exact ⟨st, by simp, Nat.zero_le _⟩
  | comment hc hst hf =>
    refine h.move rfl rfl (fun _ => List.Subset.refl _) ?_
    intro conn hconn
    cases hconn
    exact ⟨_, hst, (List.getElem?_eq_some_iff.mp hf).1⟩
  | event hc hst hf =>
    rename_i origin evt st conn
    obtain ⟨recent, dispatched, heq, -⟩ := receive_spec
      { s.client with connection := some { conn with read := conn.read + 1 } } evt
    refine h.move rfl rfl (fun _ => List.Subset.refl _) ?_
    intro conn' hconn
    rw [heq] at hconn
    cases hconn
    exact ⟨st, hst, (List.getElem?_eq_some_iff.mp hf).1⟩
  | disconnect => exact h.move rfl rfl (fun _ => List.Subset.refl _) (by simp)

end

def System.owed (s : System) (e : RealtimeEvent) : Prop :=
  ∃ p ∈ s.publications, s.Owed p ∧ p.evt = e

/-- Nothing the client is owed has been passed: not by its cursor, not by what it remembers and
not by what is on its way to it. -/
structure Ordered (s : System) : Prop where
  ahead : ∀ e, s.owed e → ∀ n ∈ s.client.position, n < e.number
  resumed : ∀ e, s.owed e → ∀ n ∈ s.resumed, n < e.number
  unseen : ∀ e, s.owed e → e.id ∉ s.client.recentIds
  inOrder : InOrder RealtimeEvent.number s.owed s.inFlight

theorem Ordered.caughtUp {s : System} (h : Ordered s) : s.CaughtUp := by
  intro p hp hc hr n hn hle
  by_contra hd
  exact absurd hle (not_le.mpr (h.ahead p.evt ⟨p, hp, ⟨hc, hd, .inr hr⟩, rfl⟩ n hn))

section
variable {s t : System} {conn : Connection} {st st' : Stream} {evts : List RealtimeEvent}

theorem inFlight_eq (hc : s.client.connection = some conn)
    (hst : s.broker.streams[conn.stream]? = some st) :
    s.inFlight = (st.written.drop conn.read).filterMap Frame.evt? := by
  simp [System.inFlight, System.stream, hc, hst]

theorem resumed_eq (hc : s.client.connection = some conn)
    (hst : s.broker.streams[conn.stream]? = some st) : s.resumed = st.cursor := by
  simp [System.resumed, System.stream, hc, hst]

theorem inFlight_offline (hc : s.client.connection = none) : s.inFlight = [] := by
  simp [System.inFlight, hc]

theorem resumed_offline (hc : s.client.connection = none) : s.resumed = none := by
  simp [System.resumed, System.stream, hc]

theorem offline_view (hc : s.client.connection = none) (hc' : t.client.connection = none) :
    t.resumed = s.resumed ∧ t.inFlight = s.inFlight ++ [] := by
  rw [resumed_offline hc, resumed_offline hc', inFlight_offline hc, inFlight_offline hc']
  exact ⟨rfl, rfl⟩

/-- What is written to the client's stream goes to the end of what is on its way. -/
theorem wrote_view (hc : s.client.connection = some conn)
    (hst : s.broker.streams[conn.stream]? = some st) (hle : conn.read ≤ st.written.length)
    (hc' : t.client.connection = some conn)
    (hst' : t.broker.streams[conn.stream]? = some st') (hw : st.Wrote st' evts) :
    t.resumed = s.resumed ∧ t.inFlight = s.inFlight ++ evts := by
  obtain ⟨hcursor, frames, hwritten, hevts⟩ := hw
  rw [resumed_eq hc hst, resumed_eq hc' hst', inFlight_eq hc hst, inFlight_eq hc' hst', hwritten,
    List.drop_append_of_le_length hle, List.filterMap_append, hevts]
  exact ⟨hcursor, rfl⟩

/-- A step that owes nothing new and adds to what is on its way only in order. -/
theorem Ordered.keep (h : Ordered s) (ho : ∀ e, t.owed e → s.owed e)
    (hc : t.client = s.client) (hr : t.resumed = s.resumed)
    (hf : t.inFlight = s.inFlight ++ evts)
    (hin : InOrder RealtimeEvent.number (fun e => s.owed e ∧ e ∉ s.inFlight) evts) :
    Ordered t := by
  refine ⟨?_, ?_, ?_, ?_⟩
  · intro e he
    rw [hc]
    exact h.ahead e (ho e he)
  · intro e he
    rw [hr]
    exact h.resumed e (ho e he)
  · intro e he
    rw [hc]
    exact h.unseen e (ho e he)
  · rw [hf]
    exact (inOrder_append.mpr ⟨h.inOrder, hin⟩).mono ho

theorem Ordered.still (h : Ordered s) (ho : ∀ e, t.owed e → s.owed e)
    (hc : t.client = s.client) (hst : t.broker.streams = s.broker.streams) : Ordered t := by
  have hstream : t.stream = s.stream := by simp [System.stream, hc, hst]
  have hf : t.inFlight = s.inFlight ++ [] := by simp [System.inFlight, hstream, hc]
  exact h.keep ho hc (by simp [System.resumed, hstream]) hf trivial

end

section
variable {s t : System} {e : RealtimeEvent}

theorem owed_broker {b : Broker} (hr : ∀ ch, b.retainedOf ch ⊆ s.broker.retainedOf ch)
    (h : System.owed { s with broker := b } e) : s.owed e := by
  obtain ⟨p, hp, ⟨hc, hd, hkept⟩, rfl⟩ := h
  exact ⟨p, hp, ⟨hc, hd, hkept.imp_right (fun h => hr _ h)⟩, rfl⟩

/-- Once an event is retained it is owed only if it was before. -/
theorem owed_settle {k : Nat} {p : Publication} {b : Broker} (hp : s.publications[k]? = some p)
    (hst : p.stage = .published)
    (hr : ∀ q ∈ s.publications, Line.event q.evt ∈ b.retainedOf q.name → s.Retained q ∨ q = p)
    (h : (System.setPublication { s with broker := b } k { p with stage := .settled }).owed e) :
    s.owed e := by
  obtain ⟨q, hq, ⟨hc, hd, hkept⟩, rfl⟩ := h
  have hmem := List.mem_of_getElem? hp
  obtain rfl | hq := mem_set_cases hq
  · exact ⟨p, hmem, ⟨hc, hd, .inl hst⟩, rfl⟩
  · refine ⟨q, hq, ⟨hc, hd, ?_⟩, rfl⟩
    obtain hpub | hkept := hkept
    · exact .inl hpub
    · obtain hold | rfl := hr q hq hkept
      · exact .inr hold
      · exact .inl hst

end

theorem Sound.unique {s : System} {p q : Publication} (h : Sound s) (hp : p ∈ s.publications)
    (hq : q ∈ s.publications) (ht : q.tenantId = p.tenantId) (he : q.evt = p.evt) : q = p := by
  have hn := h.distinct
  rw [System.allotted, List.map_map] at hn
  exact List.inj_on_of_nodup_map hn hq hp (by simp [ht, he])

theorem Sound.numeric {s : System} {x : String × RealtimeEvent} (h : Sound s)
    (hx : x ∈ s.allotted) : ∃ n : Nat, x.2.id = toString n ∧
      Lib.Js.bigInt x.2.id = some (n : Int) ∧ x.2.number = n := by
  obtain ⟨n, -, hid⟩ := h.numbered x hx
  have hint : Lib.Js.bigInt x.2.id = some (n : Int) := by rw [hid, Lib.Js.bigInt_toString]
  exact ⟨n, hid, hint, by simp [RealtimeEvent.number, hint]⟩

theorem mem_allotted {s : System} {p : Publication} (hp : p ∈ s.publications) :
    (p.tenantId, p.evt) ∈ s.allotted :=
  List.mem_map.mpr ⟨p, hp, rfl⟩

/-- A pass over a list that misses nothing sends what is owed in the order of the ids. -/
theorem pass_inOrder {s : System} {tenantId : String} {channel : SseChannel} {cursor : Int}
    (h : Sound s) (hc : s.Complete (s.broker.retainedOf (channelName tenantId channel)) cursor)
    (hcursor : ∀ e, s.owed e → cursor < e.number) :
    InOrder RealtimeEvent.number (fun e => s.owed e ∧ e ∉ s.inFlight)
      (retainedAfter (s.broker.retainedOf (channelName tenantId channel)) cursor) := by
  have hallotted : ∀ x ∈ retainedAfter (s.broker.retainedOf (channelName tenantId channel)) cursor,
      (tenantId, x) ∈ s.allotted := by
    intro x hx
    obtain ⟨evt, he, hmem⟩ := h.kept tenantId channel _ (mem_retainedAfter.mp hx).1
    cases he
    exact hmem
  apply inOrder_of_sorted retainedAfter_sorted
  · intro x hx y hy hkey
    obtain ⟨m, hxid, -, hxn⟩ := h.numeric (hallotted x hx)
    obtain ⟨n, hyid, -, hyn⟩ := h.numeric (hallotted y hy)
    have hmn : m = n := by simpa [hxn, hyn] using hkey
    have hids : x.id = y.id := by rw [hxid, hyid, hmn]
    have := List.inj_on_of_nodup_map h.distinct (hallotted x hx) (hallotted y hy)
      (by simp [hids])
    exact congrArg Prod.snd this
  · intro e he x hx hle
    obtain ⟨⟨p, hp, howed, rfl⟩, hnew⟩ := he
    obtain ⟨hline, n, hn, hlt⟩ := mem_retainedAfter.mp hx
    have hxn : x.number = n := by simp [RealtimeEvent.number, hn]
    have hmem : x ∈ (s.broker.retainedOf (channelName tenantId channel)).filterMap Line.evt? :=
      List.mem_filterMap.mpr ⟨_, hline, rfl⟩
    obtain hin | hin := hc x hmem (by rw [hxn]; exact hlt) p hp howed hle
    · obtain ⟨m, -, hm, hpn⟩ := h.numeric (mem_allotted hp)
      refine mem_retainedAfter.mpr ⟨hin, m, hm, ?_⟩
      rw [← hpn]
      exact hcursor p.evt ⟨p, hp, howed, rfl⟩
    · exact absurd hin hnew

/-- Publishing in turn keeps the order, whether or not the client's stream hears it. -/
theorem publish_ordered {s t : System} {k : Nat} {p : Publication} {evts : List RealtimeEvent}
    (h : Ordered s)
    (ht : t = ({ s with broker := s.broker.publish p.name p.evt }.setPublication k
      { p with stage := .published, since := s.client.connected }))
    (hlatest : s.Concerns { p with since := s.client.connected } → s.Latest p.evt)
    (hr : t.resumed = s.resumed) (hf : t.inFlight = s.inFlight ++ evts)
    (hevts : evts = [] ∨ evts = [p.evt] ∧ s.Follows p.evt) : Ordered t := by
  have howed : ∀ e, t.owed e → s.owed e ∨ e = p.evt ∧ s.Latest p.evt := by
    intro e he
    subst ht
    obtain ⟨q, hq, ⟨hc, hd, hkept⟩, rfl⟩ := he
    obtain rfl | hq := mem_set_cases hq
    · exact .inr ⟨rfl, hlatest hc⟩
    · refine .inl ⟨q, hq, ⟨hc, hd, hkept.imp_right ?_⟩, rfl⟩
      intro hr
      simpa [System.Retained, System.setPublication] using hr
  have hc : t.client = s.client := by rw [ht]; rfl
  refine ⟨?_, ?_, ?_, ?_⟩
  · intro e he
    rw [hc]
    obtain he | ⟨rfl, hl⟩ := howed e he
    · exact h.ahead e he
    · exact hl.1
  · intro e he
    rw [hr]
    obtain he | ⟨rfl, hl⟩ := howed e he
    · exact h.resumed e he
    · exact hl.2.1
  · intro e he
    rw [hc]
    obtain he | ⟨rfl, hl⟩ := howed e he
    · exact h.unseen e he
    · exact hl.2.2.2
  · rw [hf]
    refine inOrder_append.mpr ⟨?_, ?_⟩
    · by_cases hl : s.Latest p.evt
      · exact (h.inOrder.owe hl.2.2.1).mono fun e he => (howed e he).imp_right And.left
      · refine h.inOrder.mono ?_
        intro e he
        obtain he | ⟨-, hl'⟩ := howed e he
        · exact he
        · exact absurd hl' hl
    · obtain rfl | ⟨rfl, hfollows⟩ := hevts
      · trivial
      · refine ⟨?_, trivial⟩
        intro e he hle
        obtain ⟨he, hnew⟩ := he
        obtain ⟨q, hq, hqo, rfl⟩ | ⟨rfl, -⟩ := howed e he
        · exact absurd (hfollows q hq hqo hle) hnew
        · rfl

/-- A new connection has nothing on its way yet. -/
theorem connect_ordered {s t : System} {b : Broker} (h : Ordered s) (hb : step s.broker
      (.open s.client.tenantId s.client.channels s.client.cursor) = some b)
    (ht : t = { s with
      broker := b
      client := { s.client with
        connected := true
        connection := some { stream := s.broker.streams.length, read := 0 } } }) : Ordered t := by
  have ho : ∀ e, t.owed e → s.owed e := by
    intro e he
    subst ht
    exact owed_broker (step_retained hb (by simp)) he
  have hpos : t.client.position = s.client.position := by rw [ht]; rfl
  have hconn : t.client.connection = some { stream := s.broker.streams.length, read := 0 } := by
    rw [ht]
  cases step_effect hb with
  | «open» hst =>
    rename_i st
    have hget : t.broker.streams[s.broker.streams.length]? = some st := by simp [ht]
    refine ⟨?_, ?_, ?_, ?_⟩
    · intro e he
      rw [hpos]
      exact h.ahead e (ho e he)
    · intro e he n hn
      rw [resumed_eq hconn hget, hst, start_cursor] at hn
      refine h.ahead e (ho e he) n ?_
      obtain ⟨id, hid, hn⟩ := Option.bind_eq_some_iff.mp hn
      split at hn
      · contradiction
      · simp [Client.position, hid, hn]
    · intro e he
      rw [ht]
      exact h.unseen e (ho e he)
    · rw [inFlight_eq hconn hget, hst, start_written]
      trivial

/-- The next event read is the lowest of what is owed, or is not owed. -/
theorem read_ordered {s t : System} {evt : RealtimeEvent} {flight : List RealtimeEvent}
    {conn : Connection} (h : Ordered s) (hf : s.inFlight = evt :: flight)
    (ht : t = { s with client := { s.client with connection := some conn }.receive evt })
    (hr : t.resumed = s.resumed) (hf' : t.inFlight = flight) : Ordered t := by
  obtain ⟨recent, dispatched, hc, hrecent, hsub, hgiven⟩ :=
    receive_spec { s.client with connection := some conn } evt
  rw [hc] at ht
  have hin := h.inOrder
  rw [hf] at hin
  have ho : ∀ e, t.owed e → s.owed e ∧ e ≠ evt := by
    intro e he
    subst ht
    obtain ⟨p, hp, ⟨hcon, hd, hkept⟩, rfl⟩ := he
    have hs : s.owed p.evt := ⟨p, hp, ⟨hcon, fun hm => hd (hsub hm), hkept⟩, rfl⟩
    refine ⟨hs, ?_⟩
    rintro rfl
    obtain hgiven | hseen := hgiven
    · exact hd hgiven
    · exact h.unseen p.evt hs hseen
  have hlt : ∀ e, t.owed e → evt.number < e.number := by
    intro e he
    obtain ⟨hs, hne⟩ := ho e he
    by_contra hle
    exact hne (hin.1 e hs (not_lt.mp hle))
  refine ⟨?_, ?_, ?_, ?_⟩
  · intro e he n hn
    rw [ht] at hn
    obtain ⟨id, hid, hn⟩ := Option.bind_eq_some_iff.mp hn
    dsimp only at hid
    split at hid
    · exact h.ahead e (ho e he).1 n (by simp [Client.position, hid, hn])
    · cases hid
      have hnum : evt.number = n := by simp [RealtimeEvent.number, hn]
      rw [← hnum]
      exact hlt e he
  · intro e he
    rw [hr]
    exact h.resumed e (ho e he).1
  · intro e he hseen
    rw [ht] at hseen
    obtain hseen | hseen := List.mem_append.mp (hrecent hseen)
    · exact h.unseen e (ho e he).1 hseen
    · have hsame : e.number = evt.number := by
        rw [RealtimeEvent.number, RealtimeEvent.number, List.mem_singleton.mp hseen]
      exact absurd hsame (ne_of_gt (hlt e he))
  · rw [hf']
    exact hin.2.mono ho

/-- Reading takes one frame off what is on its way. -/
theorem read_view {s t : System} {conn : Connection} {st : Stream} {frame : Frame}
    (hc : s.client.connection = some conn) (hst : s.broker.streams[conn.stream]? = some st)
    (hf : st.written[conn.read]? = some frame) (hb : t.broker = s.broker)
    (hc' : t.client.connection = some { conn with read := conn.read + 1 }) :
    t.resumed = s.resumed ∧ s.inFlight = [frame].filterMap Frame.evt? ++ t.inFlight := by
  have hst' : t.broker.streams[conn.stream]? = some st := by rw [hb, hst]
  obtain ⟨hlt, hget⟩ := List.getElem?_eq_some_iff.mp hf
  rw [resumed_eq hc hst, resumed_eq hc' hst', inFlight_eq hc hst, inFlight_eq hc' hst',
    List.drop_eq_getElem_cons hlt, hget, ← List.filterMap_append]
  exact ⟨rfl, rfl⟩

theorem publish_step {s t : System} {k : Nat} {p : Publication} (hsound : Sound s)
    (h : Ordered s) (hc : InTurn s (.publish k)) (hp : s.publications[k]? = some p)
    (ht : t = ({ s with broker := s.broker.publish p.name p.evt }.setPublication k
      { p with stage := .published, since := s.client.connected })) : Ordered t := by
  obtain ⟨hlatest, hfollows⟩ := hc p hp
  have hclient : t.client = s.client := by rw [ht]; rfl
  cases hconn : s.client.connection with
  | none =>
    obtain ⟨hr, hf⟩ := offline_view hconn (hclient ▸ hconn)
    exact publish_ordered h ht hlatest hr hf (.inl rfl)
  | some conn =>
    obtain ⟨st, hget, hle⟩ := hsound.reading conn hconn
    obtain ⟨st', hget', hw⟩ := publish_wrote hget p.name p.evt
    have hget' : t.broker.streams[conn.stream]? = some st' := by rw [ht]; exact hget'
    obtain ⟨hr, hf⟩ := wrote_view hconn hget hle (hclient ▸ hconn) hget' hw
    refine publish_ordered h ht hlatest hr hf ?_
    split
    · rename_i hears
      exact .inr ⟨rfl, hfollows st (by simp [System.stream, hconn, hget]) hears⟩
    · exact .inl rfl

theorem broker_step {s t : System} {a : Action} {b : Broker} (hsound : Sound s)
    (h : Ordered s) (hc : InTurn s (.broker a)) (hb : step s.broker a = some b)
    (hm : ∀ ch line, a ≠ .message ch line) (hr : ∀ ch line, a ≠ .retain ch line)
    (ht : t = { s with broker := b }) : Ordered t := by
  have ho : ∀ e, t.owed e → s.owed e := by
    rw [ht]
    exact fun e => owed_broker (step_retained hb hr)
  have hclient : t.client = s.client := by rw [ht]
  cases hconn : s.client.connection with
  | none =>
    obtain ⟨hr, hf⟩ := offline_view hconn (hclient ▸ hconn)
    exact h.keep ho hclient hr hf trivial
  | some conn =>
    obtain ⟨st, hget, hle⟩ := hsound.reading conn hconn
    obtain ⟨st', evts, hget', hw, hevts⟩ := step_wrote hb hm hget
    have hget' : t.broker.streams[conn.stream]? = some st' := by rw [ht]; exact hget'
    obtain ⟨hres, hf⟩ := wrote_view hconn hget hle (hclient ▸ hconn) hget' hw
    refine h.keep ho hclient hres hf ?_
    obtain rfl | ⟨rfl, hopen, ch, cursor, hnext, rfl⟩ := hevts
    · trivial
    · have hstream : s.stream = some st := by simp [System.stream, hconn, hget]
      have hcomplete := hc conn hconn rfl st hstream hopen _ hnext
      obtain ⟨channel, rfl, hcursor⟩ := nextReplay_spec hnext
      refine pass_inOrder hsound hcomplete ?_
      intro e he
      exact h.resumed e he cursor (by rw [resumed_eq hconn hget, hcursor]; rfl)

theorem retain_step {s t : System} {k : Nat} {p : Publication} (hsound : Sound s)
    (h : Ordered s) (hp : s.publications[k]? = some p) (hst : p.stage = .published)
    (ht : t = ({ s with
      broker := s.broker.setRetained p.name
        ((Line.event p.evt :: s.broker.retainedOf p.name).take retainedMax) }.setPublication k
      { p with stage := .settled })) : Ordered t := by
  subst ht
  refine h.still ?_ rfl rfl
  intro e he
  refine owed_settle hp hst ?_ he
  intro q hq hkept
  rw [retainedOf_setRetained] at hkept
  split at hkept
  · rename_i hname
    obtain ⟨htenant, -⟩ := channelName_inj hname
    obtain heq | hkept := List.mem_cons.mp (List.mem_of_mem_take hkept)
    · exact .inr (hsound.unique (List.mem_of_getElem? hp) hq htenant (Line.event.inj heq))
    · exact .inl (by rw [System.Retained, hname]; exact hkept)
  · exact .inl hkept

theorem comment_ordered {s t : System} {conn : Connection} {st : Stream} {text : String}
    (h : Ordered s) (hc : s.client.connection = some conn)
    (hst : s.broker.streams[conn.stream]? = some st)
    (hf : st.written[conn.read]? = some (.comment text))
    (ht : t = { s with client :=
      { s.client with connection := some { conn with read := conn.read + 1 } } }) :
    Ordered t := by
  have hb : t.broker = s.broker := by rw [ht]
  obtain ⟨hr, hflight⟩ := read_view hc hst hf hb (by rw [ht])
  subst ht
  have hin := h.inOrder
  rw [hflight] at hin
  exact ⟨h.ahead, fun e he => by rw [hr]; exact h.resumed e he, h.unseen, hin⟩

theorem event_ordered {s t : System} {conn : Connection} {st : Stream} {origin : String}
    {evt : RealtimeEvent} (h : Ordered s) (hc : s.client.connection = some conn)
    (hst : s.broker.streams[conn.stream]? = some st)
    (hf : st.written[conn.read]? = some (.event origin evt))
    (ht : t = { s with client :=
      { s.client with connection := some { conn with read := conn.read + 1 } }.receive evt }) :
    Ordered t := by
  have hb : t.broker = s.broker := by rw [ht]
  have hc' : t.client.connection = some { conn with read := conn.read + 1 } := by
    obtain ⟨recent, dispatched, heq, -⟩ := receive_spec
      { s.client with connection := some { conn with read := conn.read + 1 } } evt
    rw [ht, heq]
  obtain ⟨hr, hflight⟩ := read_view hc hst hf hb hc'
  exact read_ordered h hflight ht hr rfl

theorem step_ordered (s : System) (a : SystemAction) (t : System) (hsound : Sound s)
    (h : Ordered s) (hc : InTurn s a) (hs : systemStep s a = some t) : Ordered t := by
  cases systemStep_effect hs with
  | nextId hp hid hsince =>
    rename_i p
    refine h.still ?_ rfl rfl
    intro e he
    obtain ⟨q, hq, ⟨hcon, howed⟩, rfl⟩ := he
    obtain hq | hq := List.mem_append.mp hq
    · exact ⟨q, hq, ⟨hcon, howed⟩, rfl⟩
    · -- What is not published yet is not owed.
      cases List.mem_singleton.mp hq
      exact absurd (hsince.symm.trans hcon.1) (by simp)
  | publish hp hst => exact publish_step hsound h hc hp rfl
  | retain hp hst => exact retain_step hsound h hp hst rfl
  | giveUp hp hst =>
    refine h.still ?_ rfl rfl
    intro e he
    exact owed_settle hp hst (fun q _ hkept => .inl hkept) he
  | broker hb hm hr => exact broker_step hsound h hc hb hm hr rfl
  | connect hnone hb => exact connect_ordered h hb rfl
  | comment hconn hget hf => exact comment_ordered h hconn hget hf rfl
  | event hconn hget hf => exact event_ordered h hconn hget hf rfl
  | disconnect =>
    refine ⟨h.ahead, ?_, h.unseen, ?_⟩
    · intro e _ n hn
      rw [resumed_offline rfl] at hn
      cases hn
    · rw [inFlight_offline rfl]
      trivial

theorem start_sound (tenantId : String) (channels : List SseChannel) (startId : Option String) :
    Sound (System.start tenantId channels startId) := by
  refine ⟨?_, by simp [System.start, System.allotted], ?_, ?_⟩
  · intro x hx
    cases hx
  · intro tenant channel line hline
    cases hline
  · intro conn hconn
    cases hconn

theorem start_ordered (tenantId : String) (channels : List SseChannel)
    (startId : Option String) : Ordered (System.start tenantId channels startId) := by
  have ho : ∀ e, ¬ (System.start tenantId channels startId).owed e := by
    intro e he
    obtain ⟨p, hp, -⟩ := he
    cases hp
  refine ⟨?_, ?_, ?_, ?_⟩
  · intro e he
    exact absurd he (ho e)
  · intro e he
    exact absurd he (ho e)
  · intro e he
    exact absurd he (ho e)
  · rw [inFlight_offline rfl]
    trivial

/-- A client that is sent its events in turn never has its cursor above one it was not given. -/
theorem caughtUp_of_inTurn (tenantId : String) (channels : List SseChannel)
    (startId : Option String) (as : List SystemAction)
    (h : Meets systemStep InTurn (System.start tenantId channels startId) as) :
    Always systemStep System.CaughtUp (System.start tenantId channels startId) as := by
  have hinv : Always systemStep (fun s => Sound s ∧ Ordered s)
      (System.start tenantId channels startId) as := by
    refine always_of_meets ?_ ⟨start_sound _ _ _, start_ordered _ _ _⟩ h
    intro s a t hi hc hs
    exact ⟨step_sound s a t hi.1 hs, step_ordered s a t hi.1 hi.2 hc hs⟩
  exact hinv.mono fun s hs => hs.2.caughtUp

/-- A dashboard listens, is cut off while an incident is announced, and comes back. -/
def reconnection : List SystemAction :=
  [.connect, .broker .execute, .broker (.attach 0), .read,
   .nextId "a" .incidents "incident.created" "2026-09-25T12:00:00.000Z" "{}", .publish 0,
   .retain 0, .read, .disconnect, .broker (.close 0), .broker .execute,
   .nextId "a" .incidents "incident.created" "2026-09-25T12:00:01.000Z" "{}", .publish 1,
   .retain 1, .connect, .broker (.replay 1 true), .broker .execute, .broker (.attach 1), .read,
   .read]

theorem reconnection_caughtUp :
    Always systemStep System.CaughtUp (System.start "a" [.incidents] none) reconnection := by
  apply caughtUp_of_inTurn
  decide

/-- An incident is announced before the dashboard is subscribed and another one after. -/
def subscriptionGap : List SystemAction :=
  [.connect,
   .nextId "a" .incidents "incident.created" "2026-09-25T12:00:00.000Z" "{}", .publish 0,
   .retain 0, .broker .execute, .broker (.attach 0), .read,
   .nextId "a" .incidents "incident.created" "2026-09-25T12:00:01.000Z" "{}", .publish 1,
   .retain 1, .read]

/-- The cursor is then above the first, and the next Last-Event-ID does not ask for it. -/
theorem gap_skipped : ¬ ∀ tenantId channels startId as,
    Always systemStep System.CaughtUp (System.start tenantId channels startId) as := by
  intro h
  obtain ⟨s, hs, hskip⟩ : ∃ s ∈ exec systemStep (System.start "a" [.incidents] none)
      subscriptionGap, ¬ s.CaughtUp := by
    decide
  exact hskip ((h "a" [.incidents] none subscriptionGap).last hs)

end WaOps.Realtime
