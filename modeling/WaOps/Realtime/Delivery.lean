import WaOps.Realtime.Effects

namespace WaOps.Realtime
open Lib.Runs Lib.Lists

/-- PUBLISH: Redis hands the message to the shared connection if it is subscribed. -/
def Broker.publish (b : Broker) (ch : String) (evt : RealtimeEvent) : Broker :=
  if ch ∈ b.subscriptions then
    { b with streams := b.streams.map (fun st => st.receive ch (.event evt)) }
  else b

/-- The broker and whoever publishes on its channels. -/
inductive BusAction where
  | broker (a : Action)
  | publish (ch : String) (evt : RealtimeEvent)
  deriving DecidableEq, Repr

/-- A message only arrives by being published. -/
def busStep (b : Broker) : BusAction → Option Broker
  | .broker (.message _ _) => none
  | .broker a => step b a
  | .publish ch evt => some (b.publish ch evt)

/-- Redis has answered the stream's SUBSCRIBE and its response is open. -/
def Stream.Subscribed (st : Stream) : Prop :=
  (st.phase = .subscribed ∨ st.phase = .attached) ∧ st.closed = false

instance (st : Stream) : Decidable st.Subscribed :=
  inferInstanceAs (Decidable (_ ∧ _))

/-- What is published on a channel is written, once, to the response of each stream
subscribed to it. -/
def Delivered (b : Broker) : BusAction → Prop
  | .publish ch evt => ∀ (i : Nat) (st : Stream), b.streams[i]? = some st → st.Subscribed →
    ch ∈ st.tenantChannels → ∃ st' : Stream, (b.publish ch evt).streams[i]? = some st' ∧
      st'.written = st.written ++ [.event ch evt]
  | .broker _ => True

/-- The channels the oldest command of the connection takes away. -/
def Broker.withdrawn (b : Broker) : List String :=
  match b.commands with
  | .unsubscribe chs :: _ => chs
  | _ => []

/-- No UNSUBSCRIBE is executed for a channel some open stream is subscribed to, and nothing
is published on an open stream's channels between Redis's answer to its SUBSCRIBE and the
installation of its listener. -/
def Careful (b : Broker) : BusAction → Prop
  | .broker a => a = .execute →
    ∀ st ∈ b.streams, st.Subscribed → ∀ ch ∈ st.tenantChannels, ch ∉ b.withdrawn
  | .publish ch _ => ∀ st ∈ b.streams, st.phase = .subscribed → st.closed = false →
    ch ∉ st.tenantChannels

instance (b : Broker) : ∀ a, Decidable (Careful b a)
  | .broker a => inferInstanceAs (Decidable (a = .execute → _))
  | .publish _ _ => inferInstanceAs (Decidable (∀ st ∈ b.streams, _))

/-- The connection is subscribed to every channel a subscribed stream relies on. -/
def Covered (b : Broker) : Prop :=
  ∀ st ∈ b.streams, st.Subscribed → ∀ ch ∈ st.tenantChannels, ch ∈ b.subscriptions

theorem busStep_broker {b t : Broker} {a : Action} (h : busStep b (.broker a) = some t) :
    step b a = some t ∧ ∀ ch line, a ≠ .message ch line := by
  cases a with
  | message ch line => cases h
  | _ => exact ⟨h, by simp⟩

theorem publish_wired {b : Broker} (h : Wired b) (ch : String) (evt : RealtimeEvent) :
    Wired (b.publish ch evt) := by
  unfold Broker.publish
  split
  · rename_i hm
    exact step_wired b (.message ch (.event evt)) _ h (by simp [step, hm])
  · exact h

theorem busStep_wired (b : Broker) (a : BusAction) (t : Broker) (h : Wired b)
    (hs : busStep b a = some t) : Wired t := by
  cases a with
  | broker a => exact step_wired b a t h (busStep_broker hs).1
  | publish ch evt =>
    cases hs
    exact publish_wired h ch evt

/-- A published message reaches a subscribed stream exactly when its listener is installed
and the connection is subscribed to the channel. -/
theorem written_publish_iff {b : Broker} {i : Nat} {st : Stream} {ch : String}
    {evt : RealtimeEvent} (h : Wired b) (hst : b.streams[i]? = some st) (hs : st.Subscribed) :
    (∃ st', (b.publish ch evt).streams[i]? = some st' ∧
      st'.written = st.written ++ [.event ch evt]) ↔
    st.phase = .attached ∧ ch ∈ b.subscriptions := by
  have hlisten := h.listening st (List.mem_of_getElem? hst)
  constructor
  · intro hw
    obtain ⟨st', hst', hw⟩ := hw
    unfold Broker.publish at hst'
    split at hst'
    · rename_i hm
      simp only [List.getElem?_map, hst, Option.map_some, Option.some.injEq] at hst'
      subst hst'
      refine ⟨?_, hm⟩
      rw [← hlisten]
      by_contra hoff
      have hoff : st.onMessage = false := by simpa using hoff
      rw [receive_deaf st ch _ hoff] at hw
      simp at hw
    · rw [hst] at hst'
      cases hst'
      simp at hw
  · intro ⟨hp, hm⟩
    have hon := hlisten.mpr hp
    refine ⟨st.receive ch (.event evt), ?_, receive_written st ch hon hs.2⟩
    simp [Broker.publish, hm, hst]

theorem covered_set {b : Broker} {i : Nat} {st st' : Stream} {subs : List String}
    (h : Covered b) (hst : b.streams[i]? = some st) (hsub : b.subscriptions ⊆ subs)
    (hs : st'.Subscribed → st.Subscribed ∨ st.tenantChannels ⊆ subs)
    (hc : st'.tenantChannels = st.tenantChannels) :
    ∀ u ∈ b.streams.set i st', u.Subscribed → ∀ ch ∈ u.tenantChannels, ch ∈ subs := by
  intro u hu hus ch hch
  obtain rfl | hu := mem_set_cases hu
  · rw [hc] at hch
    obtain hold | hnew := hs hus
    · exact hsub (h st (List.mem_of_getElem? hst) hold ch hch)
    · exact hnew hch
  · exact hsub (h u hu hus ch hch)

theorem publish_covered {b : Broker} (h : Covered b) (ch : String) (evt : RealtimeEvent) :
    Covered (b.publish ch evt) := by
  intro st hst hsub c hcm
  unfold Broker.publish at hst ⊢
  split at hst
  · rename_i hm
    obtain ⟨u, hu, rfl⟩ := List.mem_map.mp hst
    rw [if_pos hm]
    exact h u hu (by simpa [Stream.Subscribed] using hsub) c (by simpa using hcm)
  · rename_i hm
    rw [if_neg hm]
    exact h st hst hsub c hcm

/-- What keeps the connection subscribed: every SUBSCRIBE adds its stream's channels, and no
careful step takes a channel away that is still relied on. -/
theorem step_covered {b t : Broker} {a : Action} (hw : Wired b) (h : Covered b)
    (hc : Careful b (.broker a)) (hs : step b a = some t)
    (hmsg : ∀ ch line, a ≠ .message ch line) : Covered t := by
  cases step_effect hs with
  | «open» hst =>
    rename_i tenantId channels last st
    obtain ⟨hns, hna, -⟩ := start_fresh tenantId channels last
    intro u hu hsub c hcm
    simp only [sendSubscribe_streams, List.mem_append, List.mem_singleton] at hu
    obtain hu | rfl := hu
    · simpa using h u hu hsub c hcm
    · subst hst
      obtain hp | hp := hsub.1
      · exact absurd hp hns
      · exact absurd hp hna
  | replay hst hr =>
    have hp := replay_phase hr
    intro u hu hsub c hcm
    simp only [sendSubscribe_streams, setStream_streams] at hu
    obtain rfl | hu := mem_set_cases hu
    · obtain hq | hq := hsub.1
      · exact absurd hq hp.1
      · exact absurd hq hp.2
    · simpa using h u hu hsub c hcm
  | subscribe hcmd hst =>
    rename_i rest i chs st
    obtain ⟨-, rfl⟩ := hw.head hcmd hst
    exact covered_set h hst (List.subset_append_left _ _)
      (fun _ => .inr (List.subset_append_right _ _)) rfl
  | unsubscribe hcmd =>
    rename_i rest chs
    intro u hu hsub c hcm
    have hkept := hc rfl u hu hsub c hcm
    rw [Broker.withdrawn, hcmd] at hkept
    have hin := h u hu hsub c hcm
    simp [hin, hkept]
  | reject hcmd hst =>
    refine covered_set h hst (List.Subset.refl _) ?_ rfl
    intro hsub
    simp [Stream.Subscribed] at hsub
  | forget hcmd => exact h
  | attach hst hp =>
    refine covered_set h hst (List.Subset.refl _) ?_ (by simp)
    intro hsub
    exact .inl ⟨.inl hp, by simpa using hsub.2⟩
  | close hst ho hp =>
    refine covered_set h hst (List.Subset.refl _) ?_ (by simp)
    intro hsub
    simp [Stream.Subscribed] at hsub
  | detach hst ho hp =>
    refine covered_set h hst (List.Subset.refl _) ?_ (by simp)
    intro hsub
    simp [Stream.Subscribed] at hsub
  | keepAlive hst hb =>
    refine covered_set h hst (List.Subset.refl _) ?_ (by simp [Stream.comment])
    intro hsub
    exact .inl (by simpa [Stream.Subscribed, Stream.comment] using hsub)
  | message hm => exact absurd rfl (hmsg _ _)
  | retain => exact h
  | expire => exact h

theorem busStep_covered (b : Broker) (a : BusAction) (t : Broker) (hw : Wired b)
    (h : Covered b) (hc : Careful b a) (hs : busStep b a = some t) : Covered t := by
  cases a with
  | broker a =>
    obtain ⟨hs, hmsg⟩ := busStep_broker hs
    exact step_covered hw h hc hs hmsg
  | publish ch evt =>
    cases hs
    exact publish_covered h ch evt

theorem publish_delivered {b : Broker} {ch : String} {evt : RealtimeEvent} (hw : Wired b)
    (h : Covered b) (hc : Careful b (.publish ch evt)) : Delivered b (.publish ch evt) := by
  intro i st hst hsub hch
  have hmem := List.mem_of_getElem? hst
  refine (written_publish_iff hw hst hsub).mpr ⟨?_, h st hmem hsub ch hch⟩
  obtain hp | hp := hsub.1
  · exact absurd hch (hc st hmem hp hsub.2)
  · exact hp

/-- A run in which the connection keeps the subscriptions its streams rely on delivers every
message published to every stream subscribed to its channel. -/
theorem delivered_of_careful (as : List BusAction) (h : Meets busStep Careful {} as) :
    Meets busStep Delivered {} as := by
  refine meets_of_meets (I := fun b => Wired b ∧ Covered b) ?_ ?_ ⟨wired_empty, ?_⟩ h
  · intro b a t hi hc hs
    exact ⟨busStep_wired b a t hi.1 hs, busStep_covered b a t hi.1 hi.2 hc hs⟩
  · intro b a t hi hc hs
    cases a with
    | broker a => trivial
    | publish ch evt => exact publish_delivered hi.1 hi.2 hc
  · intro st hst
    cases hst

def incidentCreated : RealtimeEvent where
  id := "1"
  channel := "incidents"
  type := "incident.created"
  occurredAt := "2026-09-25T12:00:00.000Z"
  payload := "{}"

/-- One dashboard of tenant a listens and is told of an incident. -/
def oneDashboard : List BusAction :=
  [.broker (.open "a" [.incidents] none), .broker .execute, .broker (.attach 0),
   .publish "tenant:a:incidents" incidentCreated, .broker (.close 0), .broker .execute]

theorem one_dashboard_delivered : Meets busStep Delivered {} oneDashboard := by
  apply delivered_of_careful
  decide

/-- Two dashboards of tenant a listen and the first is closed. -/
def twoDashboards : List BusAction :=
  [.broker (.open "a" [.incidents] none), .broker .execute, .broker (.attach 0),
   .broker (.open "a" [.incidents] none), .broker .execute, .broker (.attach 1),
   .broker (.close 0), .broker .execute]

/-- The incident announced after that is not written to the second. -/
theorem second_dashboard_misses : ¬ ∀ as, Meets busStep Delivered {} as := by
  intro h
  have hm := h (twoDashboards ++ [.publish "tenant:a:incidents" incidentCreated])
  obtain ⟨b, hb, hs⟩ : ∃ b ∈ exec busStep {} twoDashboards, ∃ st ∈ b.streams[1]?,
      st.Subscribed ∧ "tenant:a:incidents" ∈ st.tenantChannels ∧ b.subscriptions = [] := by
    decide
  obtain ⟨st, hst, hsub, hch, hnone⟩ := hs
  obtain ⟨st', hst', hw⟩ := hm.last hb (by simp [busStep]) 1 st hst hsub hch
  simp only [Broker.publish, hnone, List.not_mem_nil, if_false] at hst'
  rw [hst] at hst'
  cases hst'
  simp at hw

end WaOps.Realtime
