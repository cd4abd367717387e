import WaOps.Realtime.Effects

namespace WaOps.Realtime
open Lib.Runs

def Frame.From (chs : List String) : Frame → Prop
  | .event origin _ => origin ∈ chs
  | .comment _ => True

instance (chs : List String) : DecidablePred (Frame.From chs)
  | .event origin _ => inferInstanceAs (Decidable (origin ∈ chs))
  | .comment _ => inferInstanceAs (Decidable True)

/-- Every event written to the response comes from a channel of the stream's tenant
that the stream asked for. -/
def Stream.Clean (st : Stream) : Prop :=
  ∀ f ∈ st.written, f.From st.tenantChannels

def Isolated (b : Broker) : Prop :=
  ∀ st ∈ b.streams, st.Clean

instance (st : Stream) : Decidable st.Clean :=
  inferInstanceAs (Decidable (∀ f ∈ st.written, f.From st.tenantChannels))

instance (b : Broker) : Decidable (Isolated b) :=
  inferInstanceAs (Decidable (∀ st ∈ b.streams, st.Clean))

/-- Every stream the message is about to be written to has asked for its channel. -/
def Addressed (b : Broker) : Action → Prop
  | .message ch (.event _) =>
    ∀ st ∈ b.streams, st.onMessage = true → st.closed = false → ch ∈ st.tenantChannels
  | _ => True

theorem write_clean {st : Stream} {frames : List Frame} (h : st.Clean)
    (hf : ∀ f ∈ frames, f.From st.tenantChannels) : (st.write frames).Clean := by
  unfold Stream.write
  split
  · exact h
  · intro f hm
    rcases List.mem_append.mp hm with hm | hm
    · exact h f hm
    · exact hf f hm

theorem send_clean {st : Stream} {ch : String} {evts : List RealtimeEvent} (h : st.Clean)
    (hc : ch ∈ st.tenantChannels) : (st.send ch evts).Clean := by
  apply write_clean h
  intro f hf
  obtain ⟨evt, _, rfl⟩ := List.mem_map.mp hf
  exact hc

theorem comment_clean {st : Stream} {text : String} (h : st.Clean) :
    (st.comment text).Clean := by
  apply write_clean h
  intro f hf
  rw [List.mem_singleton.mp hf]
  trivial

theorem start_clean {tenantId : String} {channels : List SseChannel} {last : Option String} :
    (Stream.start tenantId channels last).Clean := by
  intro f hf
  simp [start_written] at hf

theorem replay_clean {st st' : Stream} {retained : String → List Line} {ok : Bool}
    (h : st.Clean) (hrest : ∀ rest, st.phase = .replaying rest → rest ⊆ st.channels)
    (hs : st.replay retained ok = some st') : st'.Clean := by
  obtain ⟨channel, rest, cursor, hp, -, rfl⟩ := replay_spec hs
  have hc : channelName st.tenantId channel ∈ st.tenantChannels :=
    List.mem_map.mpr ⟨channel, hrest _ hp (by simp), rfl⟩
  dsimp only
  split
  · exact send_clean h hc
  · exact send_clean h hc

theorem attach_clean {st : Stream} (h : st.Clean) : st.attach.Clean := by
  have hc : (st.comment "connected").Clean := comment_clean h
  exact hc

theorem close_clean {st : Stream} (h : st.Clean) : st.close.Clean := by
  unfold Stream.close
  split
  · exact h
  · exact h

/-- The listener keeps a stream clean exactly when the message was meant for it. -/
theorem receive_clean_iff {st : Stream} {ch : String} {evt : RealtimeEvent} (h : st.Clean) :
    (st.receive ch (.event evt)).Clean ↔
      (st.onMessage = true → st.closed = false → ch ∈ st.tenantChannels) := by
  constructor
  · intro hr hon hopen
    have hw : (st.receive ch (.event evt)).written = st.written ++ [.event ch evt] := by
      simp [Stream.receive, hon, Stream.send, Stream.write, hopen]
    have hf := hr (.event ch evt) (by simp [hw])
    have ht : (st.receive ch (.event evt)).tenantChannels = st.tenantChannels := by
      simp [Stream.receive, hon, Stream.send]
    rw [ht] at hf
    exact hf
  · intro hc
    unfold Stream.receive
    cases hon : st.onMessage with
    | false => simpa using h
    | true =>
      cases hopen : st.closed with
      | true => simpa [Stream.send, Stream.write, hopen] using h
      | false => simpa using send_clean h (hc hon hopen)

/-- The replay loop only visits channels the stream asked for. -/
def Looping (b : Broker) : Prop :=
  ∀ st ∈ b.streams, ∀ rest, st.phase = .replaying rest → rest ⊆ st.channels

theorem start_looping {tenantId : String} {channels rest : List SseChannel}
    {last : Option String} (h : (Stream.start tenantId channels last).phase = .replaying rest) :
    rest ⊆ (Stream.start tenantId channels last).channels := by
  unfold Stream.start at h ⊢
  dsimp only at h ⊢
  split at h
  · cases h
    exact List.Subset.refl _
  · exact absurd h (afterReplay_phase _ (by simp) (by simp))

theorem moved_looping {b : Broker} {a : Action} {st st' : Stream} (hm : Moved b a st st')
    (h : ∀ rest, st.phase = .replaying rest → rest ⊆ st.channels) :
    ∀ rest, st'.phase = .replaying rest → rest ⊆ st'.channels := by
  intro rest hr
  cases hm with
  | replay hs =>
    obtain ⟨channel, tail, cursor, hp, -, rfl⟩ := replay_spec hs
    dsimp only at hr ⊢
    split at hr
    · exact absurd hr (afterReplay_phase _ (by simp) (by simp))
    · rename_i hne
      rw [if_neg hne]
      cases hr
      have htail : rest ⊆ st.channels := fun c hc => h _ hp (List.mem_cons_of_mem _ hc)
      simpa [Stream.send] using htail
  | execute => cases hr
  | fail => cases hr
  | attach _ => cases hr
  | close _ =>
    unfold Stream.close at hr ⊢
    split at hr
    · cases hr
    · rename_i hne
      rw [if_neg hne]
      exact h rest hr
  | keepAlive _ =>
    simp only [Stream.comment, write_phase, write_channels] at hr ⊢
    exact h rest hr

theorem step_looping (b : Broker) (a : Action) (t : Broker) (h : Looping b)
    (hs : step b a = some t) : Looping t := by
  intro st hst
  rcases step_streams hs with ⟨tenantId, channels, last, _, ht⟩ | ⟨i, u, u', hu, hm, ht⟩ |
      ⟨ch, line, _, _, ht⟩ | ⟨ht, _⟩
  · rw [ht] at hst
    rcases List.mem_append.mp hst with hst | hst
    · exact h st hst
    · rw [List.mem_singleton.mp hst]
      exact fun rest => start_looping
  · rw [ht] at hst
    rcases List.mem_or_eq_of_mem_set hst with hst | rfl
    · exact h st hst
    · exact moved_looping hm (h u (List.mem_of_getElem? hu))
  · rw [ht] at hst
    obtain ⟨u, hu, rfl⟩ := List.mem_map.mp hst
    intro rest hr
    simpa using h u hu rest (by simpa using hr)
  · rw [ht] at hst
    exact h st hst

theorem moved_clean {b : Broker} {a : Action} {st st' : Stream} (hm : Moved b a st st')
    (hl : ∀ rest, st.phase = .replaying rest → rest ⊆ st.channels) (h : st.Clean) :
    st'.Clean := by
  cases hm with
  | replay hs => exact replay_clean h hl hs
  | execute => exact h
  | fail => exact h
  | attach _ => exact attach_clean h
  | close _ => exact close_clean h
  | keepAlive _ => exact comment_clean h

/-- Only a live message can break the isolation, and exactly when some listening
stream did not ask for its channel. -/
theorem step_isolated_iff (b : Broker) (a : Action) (t : Broker) (hl : Looping b)
    (h : Isolated b) (hs : step b a = some t) : Isolated t ↔ Addressed b a := by
  rcases step_streams hs with ⟨tenantId, channels, last, rfl, ht⟩ | ⟨i, u, u', hu, hm, ht⟩ |
      ⟨ch, line, rfl, _, ht⟩ | ⟨ht, hne⟩
  · refine ⟨fun _ => trivial, ?_⟩
    intro _ st hst
    rw [ht] at hst
    rcases List.mem_append.mp hst with hst | hst
    · exact h st hst
    · rw [List.mem_singleton.mp hst]
      exact start_clean
  · have hc : u'.Clean :=
      moved_clean hm (hl u (List.mem_of_getElem? hu)) (h u (List.mem_of_getElem? hu))
    refine ⟨fun _ => by cases hm <;> trivial, ?_⟩
    intro _ st hst
    rw [ht] at hst
    rcases List.mem_or_eq_of_mem_set hst with hst | rfl
    · exact h st hst
    · exact hc
  · cases line with
    | malformed text =>
      have hst : t.streams = b.streams := by simp [ht, Stream.receive]
      refine ⟨fun _ => trivial, ?_⟩
      intro _ st hm
      rw [hst] at hm
      exact h st hm
    | event evt =>
      constructor
      · intro hi st hst
        have hmem : st.receive ch (.event evt) ∈ t.streams := by
          rw [ht]
          exact List.mem_map.mpr ⟨st, hst, rfl⟩
        exact (receive_clean_iff (h st hst)).mp (hi _ hmem)
      · intro hc st hst
        rw [ht] at hst
        obtain ⟨u, hu, rfl⟩ := List.mem_map.mp hst
        exact (receive_clean_iff (h u hu)).mpr (hc u hu)
  · have ha : Addressed b a := by
      cases a with
      | message ch line => exact absurd rfl (hne ch line)
      | _ => trivial
    refine ⟨fun _ => ha, ?_⟩
    intro _ st hst
    rw [ht] at hst
    exact h st hst

/-- A run of the broker writes only frames of the stream's own channels, in every state
it reaches, exactly when each message that arrives is on a channel every stream then
listening asked for. -/
theorem isolated_iff_addressed (as : List Action) :
    Always step Isolated {} as ↔ Meets step Addressed {} as :=
  always_iff_meets step_looping step_isolated_iff (by intro st hst; simp at hst)
    (by intro st hst; simp at hst)

/-- Tenants a and b both listen; b's incident is announced. -/
def crossTenantRun : List Action :=
  [.open "a" [.incidents] none, .execute, .attach 0,
   .open "b" [.incidents] none, .execute, .attach 1,
   .message "tenant:b:incidents" (.event
      { id := "1", channel := "incidents", type := "incident.created",
        occurredAt := "2026-09-25T12:00:00.000Z", payload := "{}" })]

theorem cross_tenant_frame :
    ∃ b, exec step {} crossTenantRun = some b ∧ ¬ Isolated b := by
  refine ⟨(exec step {} crossTenantRun).get (by decide), by simp, ?_⟩
  decide

end WaOps.Realtime
