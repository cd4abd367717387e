import WaOps.Lib.Lists
import WaOps.Realtime.Broker

namespace WaOps.Realtime
open Lib.Lists

/-- All a step can do. -/
inductive Effect (b : Broker) : Action → Broker → Prop
  | «open» {tenantId : String} {channels : List SseChannel} {last : Option String} {st : Stream}
    (hst : st = Stream.start tenantId channels last) :
    Effect b (.open tenantId channels last)
      ({ b with streams := b.streams ++ [st] }.sendSubscribe b.streams.length st)
  | replay {st st' : Stream} (hst : b.streams[i]? = some st)
    (hr : st.replay b.retainedOf ok = some st') :
    Effect b (.replay i ok) ((b.setStream i st').sendSubscribe i st')
  | subscribe {st : Stream} (hc : b.commands = .subscribe i chs :: rest)
    (hst : b.streams[i]? = some st) :
    Effect b .execute { b.setStream i { st with phase := .subscribed } with
      subscriptions := b.subscriptions ++ chs, commands := rest }
  | unsubscribe (hc : b.commands = .unsubscribe chs :: rest) :
    Effect b .execute
      { b with subscriptions := b.subscriptions.filter (· ∉ chs), commands := rest }
  | reject {st : Stream} (hc : b.commands = .subscribe i chs :: rest)
    (hst : b.streams[i]? = some st) :
    Effect b .fail { b.setStream i { st with phase := .returned } with commands := rest }
  | forget (hc : b.commands = .unsubscribe chs :: rest) :
    Effect b .fail { b with commands := rest }
  | attach {st : Stream} (hst : b.streams[i]? = some st) (hp : st.phase = .subscribed) :
    Effect b (.attach i) (b.setStream i st.attach)
  | close {st : Stream} (hst : b.streams[i]? = some st) (ho : st.closed = false)
    (hp : st.phase ≠ .attached) : Effect b (.close i) (b.setStream i st.close)
  | detach {st : Stream} (hst : b.streams[i]? = some st) (ho : st.closed = false)
    (hp : st.phase = .attached) :
    Effect b (.close i) { b.setStream i st.close with
      commands := b.commands ++ [.unsubscribe st.tenantChannels] }
  | keepAlive {st : Stream} (hst : b.streams[i]? = some st) (hb : st.heartbeat = true) :
    Effect b (.keepAlive i now) (b.setStream i (st.comment ("keep-alive " ++ now)))
  | message (hm : ch ∈ b.subscriptions) :
    Effect b (.message ch line) { b with streams := b.streams.map (fun st => st.receive ch line) }
  | retain : Effect b (.retain ch line)
      (b.setRetained ch ((line :: b.retainedOf ch).take retainedMax))
  | expire : Effect b (.expire ch) (b.setRetained ch [])

theorem step_effect {b t : Broker} {a : Action} (h : step b a = some t) : Effect b a t := by
  cases a with
  | «open» tenantId channels last =>
    simp only [step, Option.some.injEq] at h
    subst h
    exact .open rfl
  | replay i ok =>
    simp only [step, Option.bind_eq_bind, Option.bind_eq_some_iff, Option.some.injEq] at h
    obtain ⟨st, hst, st', hr, rfl⟩ := h
    exact .replay hst hr
  | execute =>
    simp only [step] at h
    split at h
    · rename_i hc
      simp only [Option.bind_eq_bind, Option.bind_eq_some_iff, Option.some.injEq] at h
      obtain ⟨st, hst, rfl⟩ := h
      exact .subscribe hc hst
    · rename_i hc
      cases h
      exact .unsubscribe hc
    · contradiction
  | fail =>
    simp only [step] at h
    split at h
    · rename_i hc
      simp only [Option.bind_eq_bind, Option.bind_eq_some_iff, Option.some.injEq] at h
      obtain ⟨st, hst, rfl⟩ := h
      exact .reject hc hst
    · rename_i hc
      cases h
      exact .forget hc
    · contradiction
  | attach i =>
    simp only [step, Option.bind_eq_bind, Option.bind_eq_some_iff] at h
    obtain ⟨st, hst, h⟩ := h
    split at h
    · rename_i hp
      cases h
      exact .attach hst hp
    · contradiction
  | close i =>
    simp only [step, Option.bind_eq_bind, Option.bind_eq_some_iff] at h
    obtain ⟨st, hst, h⟩ := h
    split at h
    · contradiction
    · rename_i ho
      have ho : st.closed = false := by simpa using ho
      split at h
      · rename_i hp
        cases h
        exact .detach hst ho hp
      · rename_i hp
        cases h
        exact .close hst ho hp
  | keepAlive i now =>
    simp only [step, Option.bind_eq_bind, Option.bind_eq_some_iff] at h
    obtain ⟨st, hst, h⟩ := h
    split at h
    · rename_i hb
      cases h
      exact .keepAlive hst hb
    · contradiction
  | message ch line =>
    simp only [step] at h
    split at h
    · rename_i hm
      cases h
      exact .message hm
    · contradiction
  | retain ch line =>
    cases h
    exact .retain
  | expire ch =>
    cases h
    exact .expire

/-- What an action may do to the one stream it concerns. -/
inductive Moved (b : Broker) : Action → Stream → Stream → Prop
  | replay (h : st.replay b.retainedOf ok = some st') : Moved b (.replay i ok) st st'
  | execute : Moved b .execute st { st with phase := .subscribed }
  | fail : Moved b .fail st { st with phase := .returned }
  | attach (h : st.phase = .subscribed) : Moved b (.attach i) st st.attach
  | close (h : st.closed = false) : Moved b (.close i) st st.close
  | keepAlive (h : st.heartbeat = true) :
    Moved b (.keepAlive i now) st (st.comment ("keep-alive " ++ now))

/-- All a step can do to the streams: one is added, one moves, all receive a message,
or none changes. -/
theorem step_streams {b t : Broker} {a : Action} (h : step b a = some t) :
    (∃ tenantId channels last, a = .open tenantId channels last ∧
      t.streams = b.streams ++ [Stream.start tenantId channels last]) ∨
    (∃ i st st', b.streams[i]? = some st ∧ Moved b a st st' ∧ t.streams = b.streams.set i st') ∨
    (∃ ch line, a = .message ch line ∧ ch ∈ b.subscriptions ∧
      t.streams = b.streams.map (fun st => st.receive ch line)) ∨
    (t.streams = b.streams ∧ ∀ ch line, a ≠ .message ch line) := by
  cases step_effect h with
  | «open» hst =>
    subst hst
    exact .inl ⟨_, _, _, rfl, by simp⟩
  | replay hst hr => exact .inr (.inl ⟨_, _, _, hst, .replay hr, by simp⟩)
  | subscribe hc hst => exact .inr (.inl ⟨_, _, _, hst, .execute, rfl⟩)
  | reject hc hst => exact .inr (.inl ⟨_, _, _, hst, .fail, rfl⟩)
  | attach hst hp => exact .inr (.inl ⟨_, _, _, hst, .attach hp, rfl⟩)
  | close hst ho hp => exact .inr (.inl ⟨_, _, _, hst, .close ho, rfl⟩)
  | detach hst ho hp => exact .inr (.inl ⟨_, _, _, hst, .close ho, rfl⟩)
  | keepAlive hst hb => exact .inr (.inl ⟨_, _, _, hst, .keepAlive hb, rfl⟩)
  | message hm => exact .inr (.inr (.inl ⟨_, _, rfl, hm, rfl⟩))
  | unsubscribe | forget | retain | expire => exact .inr (.inr (.inr ⟨rfl, by simp⟩))

def Command.subscriber : Command → Option Nat
  | .subscribe i _ => some i
  | .unsubscribe _ => none

/-- Each queued SUBSCRIBE is the one its stream awaits, and the listeners are those of the
attached streams. -/
structure Wired (b : Broker) : Prop where
  queued : ∀ i chs, Command.subscribe i chs ∈ b.commands → ∃ st, b.streams[i]? = some st ∧
    st.phase = .subscribing ∧ chs = st.tenantChannels
  once : (b.commands.filterMap Command.subscriber).Nodup
  listening : ∀ st ∈ b.streams, st.onMessage = true ↔ st.phase = .attached

section
variable {b : Broker} {st st' : Stream} {i : Nat}

theorem Wired.free (h : Wired b) (hst : b.streams[i]? = some st) (hp : st.phase ≠ .subscribing)
    (chs : List String) : Command.subscribe i chs ∉ b.commands := by
  intro hm
  obtain ⟨u, hu, hsub, -⟩ := h.queued i chs hm
  rw [hst] at hu
  cases hu
  exact hp hsub

/-- A stream whose SUBSCRIBE is queued may only change where the command does not look. -/
theorem Wired.set (h : Wired b) (hq : ∀ st chs, b.streams[i]? = some st →
      Command.subscribe i chs ∈ b.commands →
      st'.phase = st.phase ∧ st'.tenantChannels = st.tenantChannels)
    (hl : st'.onMessage = true ↔ st'.phase = .attached) : Wired (b.setStream i st') := by
  refine ⟨?_, h.once, ?_⟩
  · intro j chs hm
    obtain ⟨u, hu, hp, rfl⟩ := h.queued j chs hm
    by_cases hij : i = j
    · subst hij
      obtain ⟨hp', hc'⟩ := hq u _ hu hm
      obtain ⟨hi, -⟩ := List.getElem?_eq_some_iff.mp hu
      refine ⟨st', ?_, by rw [hp', hp], hc'.symm⟩
      simp [hi]
    · exact ⟨u, by simpa [List.getElem?_set, hij] using hu, hp, rfl⟩
  · intro u hu
    obtain rfl | hu := mem_set_cases hu
    · exact hl
    · exact h.listening u hu

theorem Wired.move (h : Wired b) (hfree : ∀ chs, Command.subscribe i chs ∉ b.commands)
    (hl : st'.onMessage = true ↔ st'.phase = .attached) : Wired (b.setStream i st') :=
  h.set (fun _ chs _ hm => absurd hm (hfree chs)) hl

theorem Wired.keep (h : Wired b) (hst : b.streams[i]? = some st) (hp : st'.phase = st.phase)
    (hc : st'.tenantChannels = st.tenantChannels) (hl : st'.onMessage = st.onMessage) :
    Wired (b.setStream i st') := by
  refine h.set ?_ ?_
  · intro u chs hu hm
    rw [hst] at hu
    cases hu
    exact ⟨hp, hc⟩
  · rw [hl, hp]
    exact h.listening st (List.mem_of_getElem? hst)

theorem Wired.sendSubscribe (h : Wired b) (hst : b.streams[i]? = some st)
    (hfree : ∀ chs, Command.subscribe i chs ∉ b.commands) : Wired (b.sendSubscribe i st) := by
  unfold Broker.sendSubscribe
  split
  · rename_i hp
    refine ⟨?_, ?_, h.listening⟩
    · intro j chs hm
      obtain hm | hm := List.mem_append.mp hm
      · exact h.queued j chs hm
      · cases List.mem_singleton.mp hm
        exact ⟨st, hst, hp, rfl⟩
    · rw [List.filterMap_append]
      refine List.Nodup.append h.once (by simp [Command.subscriber]) ?_
      intro j hj hj'
      have hj' : j = i := by simpa [Command.subscriber] using hj'
      subst hj'
      obtain ⟨c, hc, hcj⟩ := List.mem_filterMap.mp hj
      cases c with
      | subscribe k chs =>
        cases hcj
        exact hfree chs hc
      | unsubscribe chs => cases hcj
  · exact h

theorem Wired.dequeue {c : Command} {rest : List Command} (h : Wired b)
    (hc : b.commands = c :: rest) : Wired { b with commands := rest } := by
  have honce := h.once
  rw [hc] at honce
  refine ⟨?_, ?_, h.listening⟩
  · intro j chs hm
    exact h.queued j chs (by simp [hc, hm])
  · exact honce.sublist ((List.sublist_cons_self c rest).filterMap _)

/-- The oldest SUBSCRIBE is the only one of its stream. -/
theorem Wired.single {chs : List String} {rest : List Command} (h : Wired b)
    (hc : b.commands = .subscribe i chs :: rest) (chs' : List String) :
    Command.subscribe i chs' ∉ rest := by
  intro hm
  have honce := h.once
  simp only [hc, List.filterMap_cons, Command.subscriber, List.nodup_cons] at honce
  exact honce.1 (List.mem_filterMap.mpr ⟨_, hm, rfl⟩)

theorem Wired.head {chs : List String} {rest : List Command} (h : Wired b)
    (hc : b.commands = .subscribe i chs :: rest) (hst : b.streams[i]? = some st) :
    st.phase = .subscribing ∧ chs = st.tenantChannels := by
  obtain ⟨u, hu, hp, hchs⟩ := h.queued i chs (by simp [hc])
  rw [hst] at hu
  cases hu
  exact ⟨hp, hchs⟩

end

theorem step_wired (b : Broker) (a : Action) (t : Broker) (h : Wired b)
    (hs : step b a = some t) : Wired t := by
  cases step_effect hs with
  | «open» hst =>
    rename_i tenantId channels last st
    obtain ⟨-, hp, hon⟩ := start_fresh tenantId channels last
    rw [← hst] at hp hon
    have hadd : Wired { b with streams := b.streams ++ [st] } := by
      refine ⟨?_, h.once, ?_⟩
      · intro j chs hm
        obtain ⟨u, hu, hup, hchs⟩ := h.queued j chs hm
        obtain ⟨hj, -⟩ := List.getElem?_eq_some_iff.mp hu
        exact ⟨u, by simpa [List.getElem?_append, hj] using hu, hup, hchs⟩
      · intro u hu
        obtain hu | hu := List.mem_append.mp hu
        · exact h.listening u hu
        · rw [List.mem_singleton.mp hu]
          simp [hon, hp]
    refine hadd.sendSubscribe (by simp) ?_
    intro chs hm
    obtain ⟨u, hu, -⟩ := h.queued _ chs hm
    simp at hu
  | replay hst hr =>
    rename_i i ok st st'
    obtain ⟨channel, rest, cursor, hp, -⟩ := replay_spec hr
    have hfree := h.free hst (by simp [hp])
    have hoff := h.listening st (List.mem_of_getElem? hst)
    rw [hp] at hoff
    have hset : Wired (b.setStream i st') := by
      refine h.move hfree ?_
      rw [replay_onMessage hr]
      have := (replay_phase hr).2
      grind
    obtain ⟨hi, -⟩ := List.getElem?_eq_some_iff.mp hst
    exact hset.sendSubscribe (by simp [hi]) hfree
  | subscribe hc hst =>
    rename_i rest i chs st
    obtain ⟨hp, -⟩ := h.head hc hst
    have hoff := h.listening st (List.mem_of_getElem? hst)
    rw [hp] at hoff
    have hset : Wired ({ b with commands := rest }.setStream i { st with phase := .subscribed }) :=
      (h.dequeue hc).move (h.single hc) (by simpa using hoff)
    exact ⟨hset.queued, hset.once, hset.listening⟩
  | unsubscribe hc =>
    have hq := h.dequeue hc
    exact ⟨hq.queued, hq.once, hq.listening⟩
  | reject hc hst =>
    rename_i i chs rest st
    obtain ⟨hp, -⟩ := h.head hc hst
    have hoff := h.listening st (List.mem_of_getElem? hst)
    rw [hp] at hoff
    exact (h.dequeue hc).move (h.single hc) (by simpa using hoff)
  | forget hc => exact h.dequeue hc
  | attach hst hp =>
    exact h.move (h.free hst (by simp [hp])) (by simp [Stream.attach])
  | close hst ho hp =>
    rename_i i st
    exact h.keep hst (close_phase st hp) (close_tenantChannels st) (close_onMessage st hp)
  | detach hst ho hp =>
    rename_i i st
    have hset : Wired (b.setStream i st.close) :=
      h.move (h.free hst (by simp [hp])) (by simp [Stream.close, hp])
    refine ⟨?_, ?_, hset.listening⟩
    · intro j chs hm
      obtain hm | hm := List.mem_append.mp hm
      · exact hset.queued j chs hm
      · cases List.mem_singleton.mp hm
    · rw [List.filterMap_append]
      simpa [List.filterMap_cons, Command.subscriber] using h.once
  | keepAlive hst hb =>
    rename_i i now st
    exact h.keep hst (by simp [Stream.comment]) (by simp [Stream.comment])
      (by simp [Stream.comment])
  | message hm =>
    rename_i ch line
    refine ⟨?_, h.once, ?_⟩
    · intro j chs hmem
      obtain ⟨u, hu, hp, rfl⟩ := h.queued j chs hmem
      exact ⟨u.receive ch line, by simp [hu], by simpa using hp, by simp⟩
    · intro u hu
      obtain ⟨v, hv, rfl⟩ := List.mem_map.mp hu
      simpa using h.listening v hv
  | retain => exact ⟨h.queued, h.once, h.listening⟩
  | expire => exact ⟨h.queued, h.once, h.listening⟩

theorem wired_empty : Wired {} := by
  refine ⟨?_, by simp, ?_⟩
  · intro i chs hm
    cases hm
  · intro st hst
    cases hst

end WaOps.Realtime
