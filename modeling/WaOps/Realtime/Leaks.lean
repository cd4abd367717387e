import WaOps.Lib.Runs
import WaOps.Realtime.Effects

namespace WaOps.Realtime
open Lib.Runs Lib.Lists

/-- A broker and the streams, by their index, whose response was closed when `stream` was called;
its 'close' event is over. -/
structure Server where
  broker : Broker := {}
  gone : List Nat := []
  deriving DecidableEq, Repr

inductive ServerAction where
  | broker (a : Action)
  | openClosed (tenantId : String) (channels : List SseChannel) (lastEventId : Option String)
  deriving DecidableEq, Repr

def serverStep (s : Server) : ServerAction → Option Server
  | .broker (.close i) =>
    if i ∈ s.gone then none
    else do
      let broker ← step s.broker (.close i)
      some { s with broker }
  | .broker a => do
    let broker ← step s.broker a
    some { s with broker }
  | .openClosed tenantId channels lastEventId => do
    let broker ← step s.broker (.open tenantId channels lastEventId)
    some { broker, gone := s.gone ++ [s.broker.streams.length] }

def Server.ResponseClosed (s : Server) (i : Nat) (st : Stream) : Prop :=
  i ∈ s.gone ∨ st.closed = true

instance (s : Server) (i : Nat) (st : Stream) : Decidable (s.ResponseClosed i st) :=
  inferInstanceAs (Decidable (_ ∨ _))

/-- The call has no step left to run but the one for a 'close' event. -/
def Stream.Idle (st : Stream) : Prop := st.phase = .attached ∨ st.phase = .returned

instance (st : Stream) : Decidable st.Idle := inferInstanceAs (Decidable (_ ∨ _))

/-- Whatever calls have come to rest with their response closed, have left nothing installed. -/
def Server.Tidy (s : Server) : Prop :=
  ∀ i < s.broker.streams.length, ∀ st ∈ s.broker.streams[i]?, s.ResponseClosed i st → st.Idle →
    st.onMessage = false ∧ st.heartbeat = false

instance (s : Server) : Decidable s.Tidy :=
  inferInstanceAs (Decidable (∀ i < s.broker.streams.length, _))

/-- No stream goes on from its SUBSCRIBE with the response closed. -/
def AttachesOpen (s : Server) : ServerAction → Prop
  | .broker (.attach i) => ∀ st ∈ s.broker.streams[i]?, ¬ s.ResponseClosed i st
  | _ => True

instance (s : Server) : ∀ a, Decidable (AttachesOpen s a)
  | .broker (.attach _) => inferInstanceAs (Decidable (∀ st ∈ s.broker.streams[_]?, _))
  | .broker (.open ..) | .broker (.replay ..) | .broker .execute | .broker .fail
  | .broker (.close _) | .broker (.keepAlive ..) | .broker (.message ..) | .broker (.retain ..)
  | .broker (.expire _) | .openClosed .. => inferInstanceAs (Decidable True)

/-- The listener and the timer come and go together, while a stream is attached. -/
structure Installed (s : Server) : Prop where
  wired : Wired s.broker
  paired : ∀ st ∈ s.broker.streams, st.heartbeat = st.onMessage
  known : ∀ i ∈ s.gone, i < s.broker.streams.length

/-- No attached stream has its response closed. -/
def Server.Watched (s : Server) : Prop :=
  ∀ i st, s.broker.streams[i]? = some st → st.phase = .attached → ¬ s.ResponseClosed i st

theorem Installed.tidy_iff {s : Server} (h : Installed s) : s.Tidy ↔ s.Watched := by
  constructor
  · intro hc i st hst hp hclosed
    obtain ⟨hi, -⟩ := List.getElem?_eq_some_iff.mp hst
    have hon := (h.wired.listening st (List.mem_of_getElem? hst)).mpr hp
    rw [(hc i hi st hst hclosed (.inl hp)).1] at hon
    cases hon
  · intro hw i hi st hst hclosed hidle
    have hmem := List.mem_of_getElem? hst
    have hon : st.onMessage = false := by
      rw [Bool.eq_false_iff]
      intro hon
      exact hw i st hst ((h.wired.listening st hmem).mp hon) hclosed
    exact ⟨hon, (h.paired st hmem).trans hon⟩

section
variable {st st' : Stream}

@[simp] theorem write_heartbeat (st : Stream) (frames : List Frame) :
    (st.write frames).heartbeat = st.heartbeat := by
  unfold Stream.write
  split <;> rfl

theorem start_paired (tenantId : String) (channels : List SseChannel) (last : Option String) :
    (Stream.start tenantId channels last).heartbeat =
      (Stream.start tenantId channels last).onMessage := by
  unfold Stream.start
  dsimp only
  split <;> rfl

theorem moved_paired {b : Broker} {a : Action} (h : Moved b a st st')
    (hp : st.heartbeat = st.onMessage) : st'.heartbeat = st'.onMessage := by
  cases h with
  | replay hr =>
    obtain ⟨channel, rest, cursor, -, -, rfl⟩ := replay_spec hr
    dsimp only
    split <;> simpa [Stream.afterReplay, Stream.send] using hp
  | execute | fail => exact hp
  | attach => rfl
  | close =>
    unfold Stream.close
    split
    · rfl
    · exact hp
  | keepAlive => simpa [Stream.comment] using hp

theorem step_paired {b t : Broker} {a : Action} (h : step b a = some t)
    (hp : ∀ st ∈ b.streams, st.heartbeat = st.onMessage) :
    ∀ st ∈ t.streams, st.heartbeat = st.onMessage := by
  intro st hst
  rcases step_streams h with ⟨tenantId, channels, last, -, heq⟩ | ⟨i, u, u', hu, hm, heq⟩ |
    ⟨ch, line, -, -, heq⟩ | ⟨heq, -⟩
  · rw [heq] at hst
    rcases List.mem_append.mp hst with hst | hst
    · exact hp st hst
    · rw [List.mem_singleton.mp hst]
      exact start_paired tenantId channels last
  · rw [heq] at hst
    rcases mem_set_cases hst with rfl | hst
    · exact moved_paired hm (hp u (List.mem_of_getElem? hu))
    · exact hp st hst
  · rw [heq] at hst
    obtain ⟨u, hu, rfl⟩ := List.mem_map.mp hst
    obtain ⟨frames, hw⟩ := receive_eq u ch line
    rw [hw, write_heartbeat, write_onMessage]
    exact hp u hu
  · exact hp st (heq ▸ hst)

theorem step_length {b t : Broker} {a : Action} (h : step b a = some t) :
    b.streams.length ≤ t.streams.length := by
  rcases step_streams h with ⟨_, _, _, -, heq⟩ | ⟨_, _, _, -, -, heq⟩ | ⟨_, _, -, -, heq⟩ | ⟨heq, -⟩
  all_goals simp [heq]

end

/-- What a step of a server is: one of its broker. -/
theorem serverStep_spec {s t : Server} {a : ServerAction} (h : serverStep s a = some t) :
    (∃ b, a = .broker b ∧ step s.broker b = some t.broker ∧ t.gone = s.gone ∧
      ∀ i, b = .close i → i ∉ s.gone) ∨
    (∃ tenantId channels last, a = .openClosed tenantId channels last ∧
      step s.broker (.open tenantId channels last) = some t.broker ∧
      t.gone = s.gone ++ [s.broker.streams.length]) := by
  cases a with
  | broker b =>
    refine .inl ⟨b, rfl, ?_⟩
    cases b with
    | close i =>
      simp only [serverStep] at h
      split at h
      · cases h
      · rename_i hi
        simp only [Option.bind_eq_bind, Option.bind_eq_some_iff, Option.some.injEq] at h
        obtain ⟨broker, hb, rfl⟩ := h
        refine ⟨hb, rfl, ?_⟩
        rintro j ⟨⟩
        exact hi
    | _ =>
      simp only [serverStep, Option.bind_eq_bind, Option.bind_eq_some_iff, Option.some.injEq] at h
      obtain ⟨broker, hb, rfl⟩ := h
      exact ⟨hb, rfl, by simp⟩
  | openClosed tenantId channels last =>
    simp only [serverStep, Option.bind_eq_bind, Option.bind_eq_some_iff, Option.some.injEq] at h
    obtain ⟨broker, hb, rfl⟩ := h
    exact .inr ⟨tenantId, channels, last, rfl, hb, rfl⟩

theorem step_installed (s : Server) (a : ServerAction) (t : Server) (h : Installed s)
    (hs : serverStep s a = some t) : Installed t := by
  rcases serverStep_spec hs with ⟨b, -, hb, hgone, -⟩ | ⟨_, _, _, -, hb, hgone⟩
  · refine ⟨step_wired _ _ _ h.wired hb, step_paired hb h.paired, ?_⟩
    intro i hi
    rw [hgone] at hi
    exact lt_of_lt_of_le (h.known i hi) (step_length hb)
  · refine ⟨step_wired _ _ _ h.wired hb, step_paired hb h.paired, ?_⟩
    intro i hi
    rw [hgone] at hi
    generalize t.broker = broker at hb
    cases step_effect hb with
    | «open» hst =>
      rw [sendSubscribe_streams, List.length_append, List.length_singleton]
      rcases List.mem_append.mp hi with hi | hi
      · have := h.known i hi
        omega
      · rw [List.mem_singleton.mp hi]
        omega

section
variable {s t : Server} {i : Nat} {st : Stream}

/-- One stream changes, and is not attached to a closed response afterwards. -/
theorem Server.Watched.set (h : s.Watched) (hgone : t.gone = s.gone)
    (hst : t.broker.streams = s.broker.streams.set i st)
    (hnew : st.phase = .attached → ¬ s.ResponseClosed i st) : t.Watched := by
  intro j u hu hp hclosed
  rw [hst] at hu
  rw [Server.ResponseClosed, hgone] at hclosed
  rcases getElem?_set_cases hu with ⟨rfl, rfl⟩ | ⟨-, hu⟩
  · exact hnew hp hclosed
  · exact h j u hu hp hclosed

/-- A new stream is not attached. -/
theorem Server.Watched.push (h : s.Watched) (hgone : t.gone ⊆ s.gone ++ [s.broker.streams.length])
    (hst : t.broker.streams = s.broker.streams ++ [st]) (hnew : st.phase ≠ .attached) :
    t.Watched := by
  intro j u hu hp hclosed
  rw [hst] at hu
  rcases getElem?_append_cases hu with hu | ⟨-, rfl⟩
  · refine h j u hu hp (hclosed.imp_left ?_)
    intro hj
    rcases List.mem_append.mp (hgone hj) with hj | hj
    · exact hj
    · obtain ⟨hlt, -⟩ := List.getElem?_eq_some_iff.mp hu
      rw [List.mem_singleton.mp hj] at hlt
      omega
  · exact hnew hp

/-- Every stream keeps its phase and its response. -/
theorem Server.Watched.map (h : s.Watched) (hgone : t.gone = s.gone) {f : Stream → Stream}
    (hst : t.broker.streams = s.broker.streams.map f) (hf : ∀ st, (f st).phase = st.phase)
    (hc : ∀ st, (f st).closed = st.closed) : t.Watched := by
  intro j u hu hp hclosed
  rw [hst, List.getElem?_map] at hu
  obtain ⟨v, hv, rfl⟩ := Option.map_eq_some_iff.mp hu
  rw [Server.ResponseClosed, hgone, hc] at hclosed
  exact h j v hv ((hf v).symm.trans hp) hclosed

end

/-- Only a stream that attaches to a closed response leaves something behind. -/
theorem step_watched (s : Server) (a : ServerAction) (t : Server) (hw : s.Watched)
    (hs : serverStep s a = some t) : t.Watched ↔ AttachesOpen s a := by
  rcases serverStep_spec hs with ⟨b, rfl, hb, hgone, -⟩ | ⟨tenantId, channels, last, rfl, hb, hgone⟩
  · generalize hbt : t.broker = broker at hb
    cases step_effect hb with
    | «open» hst =>
      rename_i tenantId channels last st
      have hnew : t.broker.streams = s.broker.streams ++ [st] := by
        rw [hbt, sendSubscribe_streams]
      refine ⟨fun _ => trivial, fun _ => hw.push (by simp [hgone]) hnew ?_⟩
      rw [hst]
      exact (start_fresh tenantId channels last).2.1
    | replay hst hr =>
      rename_i i ok st st'
      have hnew : t.broker.streams = s.broker.streams.set i st' := by
        rw [hbt, sendSubscribe_streams, setStream_streams]
      exact ⟨fun _ => trivial, fun _ => hw.set hgone hnew fun hp => absurd hp (replay_phase hr).2⟩
    | subscribe hc hst =>
      refine ⟨fun _ => trivial, fun _ => hw.set hgone (by rw [hbt]; rfl) ?_⟩
      intro hp
      cases hp
    | reject hc hst =>
      refine ⟨fun _ => trivial, fun _ => hw.set hgone (by rw [hbt]; rfl) ?_⟩
      intro hp
      cases hp
    | attach hst hp =>
      rename_i i st
      refine ⟨?_, fun hopen => hw.set hgone (by rw [hbt]; rfl) ?_⟩
      · intro hwt u hu hclosed
        rw [hst] at hu
        cases hu
        obtain ⟨hi, -⟩ := List.getElem?_eq_some_iff.mp hst
        refine hwt i st.attach (by rw [hbt]; simp [hi]) rfl ?_
        rw [Server.ResponseClosed, hgone, attach_closed]
        exact hclosed
      · intro _ hclosed
        rw [Server.ResponseClosed, attach_closed] at hclosed
        exact hopen st hst hclosed
    | close hst ho hp =>
      refine ⟨fun _ => trivial, fun _ => hw.set hgone (by rw [hbt]; rfl) ?_⟩
      intro hp'
      rw [close_phase _ hp] at hp'
      exact absurd hp' hp
    | detach hst ho hp =>
      refine ⟨fun _ => trivial, fun _ => hw.set hgone (by rw [hbt]; rfl) ?_⟩
      intro hp'
      simp [Stream.close, hp] at hp'
    | keepAlive hst hh =>
      rename_i i now st
      refine ⟨fun _ => trivial, fun _ => hw.set hgone (by rw [hbt]; rfl) ?_⟩
      intro hp hclosed
      rw [Stream.comment, write_phase] at hp
      rw [Server.ResponseClosed, Stream.comment, write_closed] at hclosed
      exact hw i st hst hp hclosed
    | message hm =>
      refine ⟨fun _ => trivial, fun _ => hw.map hgone (by rw [hbt]) ?_ ?_⟩
      · exact fun st => receive_phase st _ _
      · exact fun st => receive_closed st _ _
    | unsubscribe | forget =>
      refine ⟨fun _ => trivial, fun _ => hw.map hgone (f := id) ?_ (fun _ => rfl) (fun _ => rfl)⟩
      rw [hbt, List.map_id]
    | retain | expire =>
      refine ⟨fun _ => trivial, fun _ => hw.map hgone (f := id) ?_ (fun _ => rfl) (fun _ => rfl)⟩
      rw [hbt, List.map_id]
      rfl
  · refine ⟨fun _ => trivial, fun _ => ?_⟩
    generalize hbt : t.broker = broker at hb
    cases step_effect hb with
    | «open» hst =>
      rename_i st
      have hnew : t.broker.streams = s.broker.streams ++ [st] := by
        rw [hbt, sendSubscribe_streams]
      refine hw.push (by simp [hgone]) hnew ?_
      rw [hst]
      exact (start_fresh tenantId channels last).2.1

/-- Every closed response is left tidy, in every state of a run, exactly when no stream of the
run attaches to a response that is closed already. -/
theorem streams_tidy_iff (as : List ServerAction) :
    Always serverStep Server.Tidy {} as ↔ Meets serverStep AttachesOpen {} as := by
  have hinit : Installed {} := by
    refine ⟨⟨?_, ?_, ?_⟩, ?_, ?_⟩ <;> simp
  refine always_iff_meets step_installed ?_ hinit ?_
  · intro s a t hi hc hs
    rw [(step_installed s a t hi hs).tidy_iff]
    exact step_watched s a t (hi.tidy_iff.mp hc) hs
  · rw [hinit.tidy_iff]
    intro i st hst
    simp at hst

/-- The client goes away while Redis is asked for the subscription. -/
def abandoned : List ServerAction :=
  [.broker (.open "a" [.incidents] none), .broker (.close 0), .broker .execute,
    .broker (.attach 0)]

theorem abandoned_leaks : ¬ ∀ as, Always serverStep Server.Tidy {} as := by
  intro h
  exact absurd (h abandoned) (by decide)

end WaOps.Realtime
