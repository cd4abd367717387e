import WaOps.Realtime.Delivery

namespace WaOps.Realtime

def Line.evt? : Line → Option RealtimeEvent
  | .event evt => some evt
  | .malformed _ => none

def Frame.evt? : Frame → Option RealtimeEvent
  | .event _ evt => some evt
  | .comment _ => none

/-- The number an SSE id stands for. -/
def RealtimeEvent.number (evt : RealtimeEvent) : Int :=
  (Lib.Js.bigInt evt.id).getD 0

/-- A channel's name tells its tenant: the two suffixes differ where they end alike. -/
theorem channelName_inj {t t' : String} {c c' : SseChannel}
    (h : channelName t c = channelName t' c') : t = t' ∧ c = c' := by
  have hrev := congrArg (fun s : String => s.toList.reverse) h
  cases c <;> cases c' <;>
    simp [channelName, SseChannel.name, String.toList_append, String.toList_inj] at hrev <;>
    simp [hrev]

section
variable {raw : List Line} {cursor : Int} {evt : RealtimeEvent}

/-- What a replay sends: the entries with an id above the cursor. -/
theorem mem_retainedAfter : evt ∈ retainedAfter raw cursor ↔
    Line.event evt ∈ raw ∧ ∃ n, Lib.Js.bigInt evt.id = some n ∧ cursor < n := by
  simp only [retainedAfter, List.mem_map, List.mem_insertionSort, List.mem_filterMap]
  constructor
  · intro h
    obtain ⟨⟨m, e⟩, ⟨line, hline, hm⟩, rfl⟩ := h
    cases line with
    | malformed text => cases hm
    | event evt =>
      obtain ⟨n, hn, hm⟩ := Option.bind_eq_some_iff.mp hm
      split at hm
      · rename_i hgt
        cases hm
        exact ⟨hline, m, hn, hgt⟩
      · cases hm
  · intro h
    obtain ⟨hline, n, hn, hlt⟩ := h
    exact ⟨(n, evt), ⟨_, hline, by simp [hn, hlt]⟩, rfl⟩

theorem retainedAfter_sorted :
    (retainedAfter raw cursor).Pairwise (fun a b => a.number ≤ b.number) := by
  unfold retainedAfter
  rw [List.pairwise_map]
  refine (List.pairwise_insertionSort _ _).imp_of_mem ?_
  intro a b ha hb hle
  have hnumber : ∀ p ∈ raw.filterMap (fun line =>
      match line with
      | .event evt =>
        (Lib.Js.bigInt evt.id).bind (fun id => if id > cursor then some (id, evt) else none)
      | .malformed _ => none), p.2.number = p.1 := by
    intro p hp
    obtain ⟨line, -, hp⟩ := List.mem_filterMap.mp hp
    cases line with
    | malformed text => cases hp
    | event evt =>
      obtain ⟨n, hn, hp⟩ := Option.bind_eq_some_iff.mp hp
      split at hp
      · cases hp
        simp [RealtimeEvent.number, hn]
      · cases hp
  rw [hnumber a ((List.mem_insertionSort _).mp ha), hnumber b ((List.mem_insertionSort _).mp hb)]
  exact hle

end

section
variable (b : Broker) (ch ch' : String) (lines : List Line)

theorem retainedOf_setRetained : (b.setRetained ch lines).retainedOf ch' =
    if ch' = ch then lines else b.retainedOf ch' := by
  unfold Broker.retainedOf Broker.setRetained
  split
  · rename_i h
    simp [h]
  · rename_i h
    simp only [List.find?_cons]
    have hne : (ch == ch') = false := by simpa using fun he : ch = ch' => h he.symm
    simp only [hne, List.find?_filter]
    congr 3
    funext p
    by_cases hp : p.1 = ch' <;> simp [hp, h]

@[simp] theorem setStream_retainedOf (i : Nat) (st : Stream) :
    (b.setStream i st).retainedOf ch = b.retainedOf ch := rfl

@[simp] theorem sendSubscribe_retainedOf (i : Nat) (st : Stream) :
    (b.sendSubscribe i st).retainedOf ch = b.retainedOf ch := by
  unfold Broker.sendSubscribe
  split <;> rfl

@[simp] theorem publish_retainedOf (evt : RealtimeEvent) :
    (b.publish ch evt).retainedOf ch' = b.retainedOf ch' := by
  unfold Broker.publish
  split <;> rfl

end

/-- Nothing but a producer adds to a retained list. -/
theorem step_retained {b t : Broker} {a : Action} (h : step b a = some t)
    (ha : ∀ ch line, a ≠ .retain ch line) (ch : String) :
    t.retainedOf ch ⊆ b.retainedOf ch := by
  cases step_effect h with
  | retain => exact absurd rfl (ha _ _)
  | expire =>
    rw [retainedOf_setRetained]
    split
    · exact List.nil_subset _
    · exact List.Subset.refl _
  | «open» | replay =>
    rw [sendSubscribe_retainedOf]
    exact List.Subset.refl _
  | _ => exact List.Subset.refl _

/-- The channel whose retained list the stream reads next, and the cursor it reads from. -/
def Stream.nextReplay (st : Stream) : Option (String × Int) :=
  match st.phase, st.cursor with
  | .replaying (channel :: _), some cursor => some (channelName st.tenantId channel, cursor)
  | _, _ => none

theorem nextReplay_spec {st : Stream} {ch : String} {cursor : Int}
    (h : st.nextReplay = some (ch, cursor)) :
    ∃ channel, ch = channelName st.tenantId channel ∧ st.cursor = some cursor := by
  unfold Stream.nextReplay at h
  split at h
  · rename_i channel rest n hp hc
    cases h
    exact ⟨channel, rfl, hc⟩
  · contradiction

/-- The stream was only written to, and these are the events written. -/
def Stream.Wrote (st st' : Stream) (evts : List RealtimeEvent) : Prop :=
  st'.cursor = st.cursor ∧
    ∃ frames, st'.written = st.written ++ frames ∧ frames.filterMap Frame.evt? = evts

section
variable {st st' : Stream} {retained : String → List Line} {ok : Bool}

theorem wrote_nothing : st.Wrote st [] :=
  ⟨rfl, [], by simp, rfl⟩

theorem write_wrote (st : Stream) (frames : List Frame) :
    st.Wrote (st.write frames) (if st.closed then [] else frames.filterMap Frame.evt?) := by
  refine ⟨by simp, if st.closed then [] else frames, ?_, ?_⟩
  · unfold Stream.write
    split <;> simp
  · split <;> rfl

theorem comment_wrote (text : String) : st.Wrote (st.comment text) [] := by
  have h := write_wrote st [.comment text]
  have he : [Frame.comment text].filterMap Frame.evt? = [] := rfl
  rw [he, ite_self] at h
  exact h

theorem send_wrote (st : Stream) (ch : String) (evts : List RealtimeEvent) :
    st.Wrote (st.send ch evts) (if st.closed then [] else evts) := by
  have h := write_wrote st (evts.map (Frame.event ch))
  rw [List.filterMap_map] at h
  have he : evts.filterMap (Frame.evt? ∘ Frame.event ch) = evts := List.filterMap_some
  rw [he] at h
  exact h

theorem replay_wrote (h : st.replay retained ok = some st') :
    ∃ ch cursor, st.nextReplay = some (ch, cursor) ∧ st.Wrote st' (if st.closed then [] else
      if ok then retainedAfter (retained ch) cursor else []) := by
  obtain ⟨channel, rest, cursor, hp, hc, rfl⟩ := replay_spec h
  refine ⟨channelName st.tenantId channel, cursor, by simp [Stream.nextReplay, hp, hc], ?_⟩
  obtain ⟨hcursor, frames, hw, he⟩ := send_wrote st (channelName st.tenantId channel)
    (if ok then retainedAfter (retained (channelName st.tenantId channel)) cursor else [])
  dsimp only
  split
  · exact ⟨hcursor, frames, hw, he⟩
  · exact ⟨hcursor, frames, hw, he⟩

theorem close_wrote : st.Wrote st.close [] := by
  refine ⟨?_, [], by simp, rfl⟩
  unfold Stream.close
  split <;> rfl

theorem set_wrote {streams : List Stream} {i j : Nat} {u u' : Stream}
    (hst : streams[i]? = some st) (hu : streams[j]? = some u) (h : u.Wrote u' []) :
    ∃ st', (streams.set j u')[i]? = some st' ∧ st.Wrote st' [] := by
  by_cases hij : j = i
  · subst hij
    rw [hst] at hu
    cases hu
    obtain ⟨hi, -⟩ := List.getElem?_eq_some_iff.mp hst
    exact ⟨u', by simp [hi], h⟩
  · exact ⟨st, by simp [hij, hst], wrote_nothing⟩

end

/-- The connection is subscribed to the channel and the stream's listener writes what comes. -/
def Broker.Hears (b : Broker) (st : Stream) (ch : String) : Prop :=
  ch ∈ b.subscriptions ∧ st.onMessage = true ∧ st.closed = false

instance (b : Broker) (st : Stream) (ch : String) : Decidable (b.Hears st ch) :=
  inferInstanceAs (Decidable (_ ∧ _))

theorem publish_wrote {b : Broker} {i : Nat} {st : Stream} (hst : b.streams[i]? = some st)
    (ch : String) (evt : RealtimeEvent) : ∃ st', (b.publish ch evt).streams[i]? = some st' ∧
      st.Wrote st' (if b.Hears st ch then [evt] else []) := by
  unfold Broker.publish Broker.Hears
  by_cases hch : ch ∈ b.subscriptions
  · refine ⟨st.receive ch (.event evt), by simp [hch, hst], ?_⟩
    by_cases hon : st.onMessage = true
    · have h := send_wrote st ch [evt]
      have hr : st.receive ch (.event evt) = st.send ch [evt] := by simp [Stream.receive, hon]
      rw [hr]
      by_cases ho : st.closed = true <;> simpa [hch, hon, ho] using h
    · rw [receive_deaf st ch _ (by simpa using hon)]
      simpa [hon] using wrote_nothing
  · exact ⟨st, by simp [hch, hst], by simpa [hch] using wrote_nothing⟩

/-- The action is a pass of the stream's replay loop, and these are the events it sends. -/
def Broker.Replays (b : Broker) (a : Action) (i : Nat) (st : Stream)
    (evts : List RealtimeEvent) : Prop :=
  a = .replay i true ∧ st.closed = false ∧ ∃ ch cursor,
    st.nextReplay = some (ch, cursor) ∧ evts = retainedAfter (b.retainedOf ch) cursor

/-- What a step writes to one stream: no event, or those of a pass of its replay loop. -/
theorem step_wrote {b t : Broker} {a : Action} {i : Nat} {st : Stream} (h : step b a = some t)
    (ha : ∀ ch line, a ≠ .message ch line) (hst : b.streams[i]? = some st) :
    ∃ st' evts, t.streams[i]? = some st' ∧ st.Wrote st' evts ∧
      (evts = [] ∨ b.Replays a i st evts) := by
  have hquiet : (∃ st', t.streams[i]? = some st' ∧ st.Wrote st' []) →
      ∃ st' evts, t.streams[i]? = some st' ∧ st.Wrote st' evts ∧
        (evts = [] ∨ b.Replays a i st evts) :=
    fun ⟨st', hst', hw⟩ => ⟨st', [], hst', hw, .inl rfl⟩
  cases step_effect h with
  | «open» =>
    refine hquiet ⟨st, ?_, wrote_nothing⟩
    obtain ⟨hi, hget⟩ := List.getElem?_eq_some_iff.mp hst
    simp [List.getElem?_append, hi, hget]
  | replay hu hr =>
    rename_i j ok u u'
    by_cases hij : j = i
    · subst hij
      rw [hst] at hu
      cases hu
      obtain ⟨hi, -⟩ := List.getElem?_eq_some_iff.mp hst
      obtain ⟨ch, cursor, hn, hw⟩ := replay_wrote hr
      refine ⟨u', _, by simp [hi], hw, ?_⟩
      cases hclosed : st.closed with
      | true => simp
      | false =>
        cases ok with
        | false => simp
        | true => exact .inr ⟨rfl, hclosed, ch, cursor, hn, rfl⟩
    · exact hquiet ⟨st, by simp [hij, hst], wrote_nothing⟩
  | subscribe hc hu => exact hquiet (set_wrote hst hu ⟨rfl, [], by simp, rfl⟩)
  | reject hc hu => exact hquiet (set_wrote hst hu ⟨rfl, [], by simp, rfl⟩)
  | attach hu hp =>
    obtain ⟨hc, hw⟩ := comment_wrote "connected"
    exact hquiet (set_wrote hst hu ⟨hc, hw⟩)
  | close hu ho hp => exact hquiet (set_wrote hst hu (close_wrote))
  | detach hu ho hp => exact hquiet (set_wrote hst hu (close_wrote))
  | keepAlive hu hb => exact hquiet (set_wrote hst hu (comment_wrote _))
  | message => exact absurd rfl (ha _ _)
  | unsubscribe | forget | retain | expire => exact hquiet ⟨st, hst, wrote_nothing⟩

end WaOps.Realtime
