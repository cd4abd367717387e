import Mathlib.Data.List.Chain
import WaOps.Realtime.LoopSteps

namespace WaOps.Realtime
open Lib.Runs Lib.Lists RealtimeClient

variable {sub : Subscriptions} {s t : RealtimeClient} {a : ClientTurn} {i j : Nat} {l l' : Loop}
  {callback : Callback} {rest : List Task}

/-- No two loops have one token, and what runs is the loop with the last token. -/
structure Coherent (s : RealtimeClient) : Prop where
  distinct : (tokens s).Nodup
  issued : ∀ token ∈ tokens s, token ≤ s.runToken
  halted : s.stopped = true → s.runToken ∉ tokens s
  running : s.running = !s.stopped
  served : s.running = true → ∃ l ∈ s.loops, l.token = s.runToken ∧ l.pc ≠ .ended

theorem Shifted.coherent (h : Shifted s t i l l') (hc : Coherent s)
    (hend : l'.pc = .ended → l.pc = .ended ∨ l.token ≠ s.runToken) : Coherent t := by
  constructor
  · rw [h.tokens_eq]
    exact hc.distinct
  · rw [h.tokens_eq, h.runToken]
    exact hc.issued
  · rw [h.tokens_eq, h.runToken, h.stopped]
    exact hc.halted
  · rw [h.running, h.stopped]
    exact hc.running
  · rw [h.running, h.runToken, h.loops]
    intro hrunning
    obtain ⟨m, hm, htoken, hpc⟩ := hc.served hrunning
    obtain ⟨j, hj⟩ := List.mem_iff_getElem?.mp hm
    obtain ⟨hi, -⟩ := List.getElem?_eq_some_iff.mp h.found
    by_cases hij : i = j
    · have hlm : l = m := Option.some.inj ((hij ▸ h.found).symm.trans hj)
      refine ⟨l', List.mem_set hi l', ?_, ?_⟩
      · rw [h.token, hlm, htoken]
      · intro hended
        rcases hend hended with hended | hother
        · exact hpc (hlm ▸ hended)
        · exact hother (hlm ▸ htoken)
    · refine ⟨m, List.mem_of_getElem? (i := j) ?_, htoken, hpc⟩
      rw [List.getElem?_set_ne hij, hj]

theorem Coherent.start (hc : Coherent s) (startId : Option Text) :
    Coherent (s.start startId) := by
  unfold RealtimeClient.start
  split
  · exact { hc with }
  · have hfresh : s.runToken + 1 ∉ tokens s := by
      intro hmem
      have := hc.issued _ hmem
      omega
    constructor
    · simp only [tokens, List.map_append, List.map_cons, List.map_nil]
      exact List.nodup_append_comm.mp (List.nodup_cons.mpr ⟨hfresh, hc.distinct⟩)
    · intro token htoken
      simp only [tokens, List.map_append, List.mem_append] at htoken
      rcases htoken with hold | hnew
      · exact (hc.issued token hold).trans (Nat.le_succ _)
      · simp only [List.map_cons, List.map_nil, List.mem_singleton] at hnew
        exact hnew.le
    · simp
    · rfl
    · intro _
      exact ⟨_, List.mem_append_right _ (List.mem_singleton_self _), rfl, by simp⟩

theorem Halted.coherent (h : Halted s t) (hc : Coherent s) : Coherent t := by
  constructor
  · rw [h.tokens]
    exact hc.distinct
  · rw [h.tokens, h.runToken]
    exact fun token htoken => (hc.issued token htoken).trans (Nat.le_succ _)
  · rw [h.tokens, h.runToken]
    intro _ hmem
    have := hc.issued _ hmem
    omega
  · rw [h.running, h.stopped]
    rfl
  · rw [h.running]
    intro hrunning
    cases hrunning

/-- After a stop a loop has no handler left to call. -/
def Loop.Drained (l : Loop) (sub : Subscriptions) (s : RealtimeClient) : Prop :=
  s.stopped = true → l.owes sub s = 0

/-- A loop ends only once it is superseded, and is rejected only while it is the last that could
set a status. -/
def Loop.EndsLast (l : Loop) (s : RealtimeClient) (i : Nat) : Prop :=
  (l.pc = .finish → l.token ≠ s.runToken) ∧
    (l.pc = .fetched .unauthorized → l.token = s.runToken ∨
      ∀ other ∈ s.loops.eraseIdx i, other.maySet s = false)

/-- The turns under which the rules hold. -/
def Orderly (sub : Subscriptions) (s : RealtimeClient) : ClientTurn → Prop
  | .go => ∀ i ∈ s.top, ∀ l ∈ s.loops[i]?, l.EndsLast s i
  | .ret _ | .throw => ∀ i ∈ s.caller, ∀ l ∈ s.loops[i]?, l.Drained sub s
  | .resume i => ∀ l ∈ s.loops[i]?, l.Drained sub s
  | _ => True

instance (l : Loop) (sub : Subscriptions) (s : RealtimeClient) : Decidable (l.Drained sub s) :=
  inferInstanceAs (Decidable (_ → _))

instance (l : Loop) (s : RealtimeClient) (i : Nat) : Decidable (l.EndsLast s i) :=
  inferInstanceAs (Decidable (_ ∧ _))

instance Orderly.decidable (sub : Subscriptions) (s : RealtimeClient) :
    ∀ a, Decidable (Orderly sub s a)
  | .go => inferInstanceAs (Decidable (∀ i ∈ s.top, ∀ l ∈ s.loops[i]?, l.EndsLast s i))
  | .ret _ | .throw =>
    inferInstanceAs (Decidable (∀ i ∈ s.caller, ∀ l ∈ s.loops[i]?, l.Drained sub s))
  | .resume i => inferInstanceAs (Decidable (∀ l ∈ s.loops[i]?, l.Drained sub s))
  | .enter | .start _ | .stop | .fetchSettled .. | .readSettled .. | .timer _ => isTrue trivial

/-- What holds of a client at every time: one loop is live at most, `start` begins one when none
is, and a rejected client says so. -/
structure Ruled (s : RealtimeClient) : Prop where
  single : ∀ (i j : Nat) (l m : Loop), s.loops[i]? = some l → s.loops[j]? = some m →
    s.Live l → s.Live m → i = j
  starts : (∀ l ∈ s.loops, ¬ s.Live l) → ∀ startId, ∃ l, (s.start startId).Live l ∧
    (s.start startId).loops = s.loops ++ [l] ∧
      (s.start startId).stack = .loop s.loops.length :: s.stack
  unauthorized : s.rejected = true → s.status = .unauthorized

/-- A handler is called between a start and a stop only. -/
def CallsStarted (sub : Subscriptions) (s : RealtimeClient) (a : ClientTurn) : Prop :=
  ∀ t, turn sub s a = some t → t.stack = .app .handler :: s.stack → s.stopped = false

theorem token_of_live (h : s.live l = true) : s.stopped = false ∧ l.token = s.runToken := by
  simp only [live, Bool.and_eq_true, Bool.not_eq_true', decide_eq_true_eq] at h
  exact ⟨h.1, h.2.symm⟩

theorem Coherent.single (hc : Coherent s) {m : Loop} (hl : s.loops[i]? = some l)
    (hm : s.loops[j]? = some m) (hlive : s.Live l) (hlive' : s.Live m) : i = j := by
  obtain ⟨-, htoken⟩ := token_of_live hlive.2
  obtain ⟨-, htoken'⟩ := token_of_live hlive'.2
  obtain ⟨hi, -⟩ := List.getElem?_eq_some_iff.mp hl
  refine (List.getElem?_inj (by simpa [tokens] using hi) hc.distinct).mp ?_
  simp only [tokens, List.getElem?_map, hl, hm, Option.map_some, htoken, htoken']

theorem Coherent.starts (hc : Coherent s) (hdead : ∀ l ∈ s.loops, ¬ s.Live l)
    (startId : Option Text) : ∃ l, (s.start startId).Live l ∧
      (s.start startId).loops = s.loops ++ [l] ∧
        (s.start startId).stack = .loop s.loops.length :: s.stack := by
  have hrunning : s.running = false := by
    by_contra hrunning
    rw [Bool.not_eq_false] at hrunning
    obtain ⟨l, hl, htoken, hpc⟩ := hc.served hrunning
    have hstopped : s.stopped = false := by
      rw [hc.running] at hrunning
      simpa using hrunning
    exact hdead l hl ⟨hpc, by simp [live, hstopped, htoken]⟩
  refine ⟨{ token := s.runToken + 1, cursor := startId }, ?_⟩
  simp [RealtimeClient.start, Live, live, hrunning]

/-- No loop may set a status any more. -/
def Silent (s : RealtimeClient) : Prop := ∀ l ∈ s.loops, l.maySet s = false

/-- The rejected loop is at its end, and is the client's own. -/
def Turned (s : RealtimeClient) : Prop :=
  ∃ (i : Nat) (l : Loop), (s.top = some i ∨ s.caller = some i) ∧ s.loops[i]? = some l ∧
    l.pc = .finish ∧ l.token = s.runToken

/-- A loop is not executed right under another. -/
def Task.Calls : Task → Task → Prop
  | .loop _, .loop _ => False
  | _, _ => True

/-- What every orderly turn keeps. -/
structure Kept (sub : Subscriptions) (s : RealtimeClient) : Prop where
  coherent : Coherent s
  nested : s.stack.IsChain Task.Calls
  rejected : s.rejected = true → s.status = .unauthorized ∧ (Silent s ∨ Turned s)
  drained : ∀ i ∈ s.top, ∀ l ∈ s.loops[i]?, l.Drained sub s

theorem Kept.ruled (h : Kept sub s) : Ruled s where
  single _ _ _ _ hl hm hlive hlive' := h.coherent.single hl hm hlive hlive'
  starts hdead startId := h.coherent.starts hdead startId
  unauthorized hrejected := (h.rejected hrejected).1

theorem Shifted.silent (h : Shifted s t i l l') (hs : Silent s) : Silent t := by
  intro m hm
  rw [h.maySet]
  rw [h.loops] at hm
  rcases mem_set_cases hm with rfl | hm
  · exact h.inert (hs l (List.mem_of_getElem? h.found))
  · exact hs m hm

/-- Once a loop is rejected no other sets a status, or the loop is the client's own. -/
theorem Went.rejected (h : Went sub s t i l l') (hk : Kept sub s)
    (hstack : s.stack = .loop i :: rest) (hends : l.EndsLast s i) (hrejected : t.rejected = true) :
    t.status = .unauthorized ∧ (Silent t ∨ Turned t) := by
  rcases h.turned with hturned | ⟨hpc, hpc', hstatus, hstack'⟩
  · rw [hturned] at hrejected
    obtain ⟨hstatus, hsilent | ⟨j, m, hj, hm, hmpc, hmtoken⟩⟩ := hk.rejected hrejected
    · refine ⟨?_, .inl (h.toShifted.silent hsilent)⟩
      rcases h.status with hsame | hmay | ⟨hfinish, htoken⟩ | ⟨-, hnext⟩
      · rw [hsame, hstatus]
      · rw [hsilent l (List.mem_of_getElem? h.found)] at hmay
        cases hmay
      · exact (hends.1 hfinish htoken).elim
      · exact hnext
    · have hij : j = i := by simpa [top, caller, hstack, eq_comm] using hj
      have hlm : l = m := Option.some.inj (h.found.symm.trans (hij ▸ hm))
      exact (hends.1 (hlm ▸ hmpc) (hlm ▸ hmtoken)).elim
  · refine ⟨hstatus, ?_⟩
    by_cases htoken : l.token = s.runToken
    · refine .inr ⟨i, l', ?_, h.getElem?_self, hpc', ?_⟩
      · rcases hstack' with hsame | hcall
        · exact .inl (top_eq_some.mpr ⟨rest, hsame.trans hstack⟩)
        · exact .inr (caller_eq_some.mpr ⟨_, rest, hcall.trans (congrArg _ hstack)⟩)
      · rw [h.token, htoken, h.runToken]
    · refine .inl ?_
      have hothers := (hends.2 hpc).resolve_left htoken
      intro m hm
      obtain ⟨j, hj⟩ := List.mem_iff_getElem?.mp hm
      rw [h.loops] at hj
      rw [h.maySet]
      rcases getElem?_set_cases hj with ⟨-, rfl⟩ | ⟨hne, hj⟩
      · exact maySet_finish hpc' (h.token.symm ▸ htoken)
      · exact hothers m (List.mem_eraseIdx_iff_getElem?.mpr ⟨j, hne, hj⟩)

/-- Where the application's code or nothing is executed, no loop has handlers to call. -/
theorem drained_of_top (h : t.top = none) :
    ∀ i ∈ t.top, ∀ l ∈ t.loops[i]?, l.Drained sub t := by
  intro i hi
  rw [h] at hi
  cases hi

theorem Shifted.drained (h : Shifted s t i l l') (hdrained : l.Drained sub s)
    (howes : l'.owes sub t ≤ l.owes sub s) : l'.Drained sub t := by
  intro hstopped
  rw [h.stopped] at hstopped
  exact Nat.le_zero.mp (howes.trans (hdrained hstopped).le)

theorem kept_go (hk : Kept sub s) (horderly : Orderly sub s .go) (h : turn sub s .go = some t) :
    Kept sub t := by
  obtain ⟨i, rest, l, hstack, hl, h⟩ := turn_go h
  obtain ⟨l', went⟩ := go_went hl h
  have htop : s.top = some i := top_eq_some.mpr ⟨rest, hstack⟩
  have hends : l.EndsLast s i := horderly i htop l hl
  have hnested : (Task.loop i :: rest).IsChain Task.Calls := hstack ▸ hk.nested
  refine ⟨went.coherent hk.coherent ?_, ?_, went.rejected hk hstack hends, ?_⟩
  · intro hended
    exact (went.ended hended).imp_right hends.1
  · rcases went.stack with hsame | htail | ⟨callback, hcall, -⟩
    · rw [hsame]
      exact hk.nested
    · rw [htail]
      exact hk.nested.tail
    · rw [hcall, hstack]
      exact List.isChain_cons_cons.mpr ⟨trivial, hnested⟩
  · rcases went.stack with hsame | htail | ⟨callback, hcall, -⟩
    · intro j hj m hm
      rw [top, hsame, hstack] at hj
      cases hj
      cases went.getElem?_self.symm.trans hm
      exact went.toShifted.drained (hk.drained i htop l hl) went.owes
    · refine drained_of_top ?_
      by_contra hsome
      obtain ⟨j, hj⟩ := Option.ne_none_iff_exists'.mp hsome
      obtain ⟨below, hbelow⟩ := top_eq_some.mp hj
      rw [htail, hstack, List.tail_cons] at hbelow
      rw [hbelow] at hnested
      exact (List.isChain_cons_cons.mp hnested).1
    · exact drained_of_top (top_app hcall)

theorem Unseen.rejected (h : Unseen sub s t i l l') (hk : Kept sub s) (hstack : s.top = none)
    (hcaller : s.caller = none ∨ s.caller = some i ∧ t.top = some i)
    (hrejected : t.rejected = true) : t.status = .unauthorized ∧ (Silent t ∨ Turned t) := by
  rw [h.turned] at hrejected
  rw [h.status]
  obtain ⟨hstatus, hsilent | ⟨j, m, hj, hm, hmpc, hmtoken⟩⟩ := hk.rejected hrejected
  · exact ⟨hstatus, .inl (h.toShifted.silent hsilent)⟩
  · refine ⟨hstatus, .inr ?_⟩
    rcases hcaller with hnone | ⟨hcaller, htop⟩
    · simp [hstack, hnone] at hj
    · have hij : i = j := by simpa [hstack, hcaller] using hj
      have hlm : l = m := Option.some.inj (h.found.symm.trans (hij ▸ hm))
      exact ⟨i, l', .inl htop, h.getElem?_self, h.finish (hlm ▸ hmpc),
        by rw [h.token, hlm, hmtoken, h.runToken]⟩

theorem Unseen.kept (h : Unseen sub s t i l l') (hk : Kept sub s) (hstack : s.top = none)
    (hcaller : s.caller = none ∨ s.caller = some i ∧ t.top = some i)
    (hnested : t.stack.IsChain Task.Calls) (hdrained : t.top = none ∨ t.top = some i ∧
      l'.Drained sub t) : Kept sub t := by
  refine ⟨h.coherent hk.coherent (.inl ∘ h.ended), hnested, h.rejected hk hstack hcaller, ?_⟩
  rcases hdrained with hnone | ⟨htop, hdrained⟩
  · exact drained_of_top hnone
  · intro j hj m hm
    cases htop.symm.trans hj
    cases h.getElem?_self.symm.trans hm
    exact hdrained

theorem Kept.settled (hk : Kept sub s) (h : s.stack = [] ∧ t.stack = [] ∧
    ∃ l l', Unseen sub s t i l l') : Kept sub t := by
  obtain ⟨hs, ht, l, l', unseen⟩ := h
  refine unseen.kept hk (by simp [top, hs]) (.inl (by simp [caller, hs])) ?_
    (.inl (by simp [top, ht]))
  rw [ht]
  exact .nil

theorem kept_resume (hk : Kept sub s) (horderly : Orderly sub s (.resume i))
    (h : turn sub s (.resume i) = some t) : Kept sub t := by
  obtain ⟨hs, ht, l, l', unseen, howes⟩ := resume_unseen h
  have hdrained := unseen.toShifted.drained (horderly l unseen.found) howes
  refine unseen.kept hk (by simp [top, hs]) (.inl (by simp [caller, hs])) ?_
    (.inr ⟨by simp [top, ht], hdrained⟩)
  rw [ht]
  exact .singleton _

/-- Where no loop is executed and none waits for the code on top, the stack does not matter. -/
theorem Kept.restack (hk : Kept sub s) (htop : s.top = none) (hcaller : s.caller = none)
    {stack : List Task} (hnested : stack.IsChain Task.Calls)
    (hnone : ({ s with stack } : RealtimeClient).top = none) : Kept sub { s with stack } := by
  refine ⟨{ hk.coherent with }, hnested, ?_, drained_of_top hnone⟩
  intro hrejected
  obtain ⟨hstatus, hsilent | ⟨j, m, hj, -⟩⟩ := hk.rejected hrejected
  · exact ⟨hstatus, .inl hsilent⟩
  · simp [htop, hcaller] at hj

theorem kept_back {f : Loop → Loop} (hf : Returns sub f) (hk : Kept sub s)
    (hdrained : ∀ i ∈ s.caller, ∀ l ∈ s.loops[i]?, l.Drained sub s) (h : s.back f = some t) :
    Kept sub t := by
  rcases back_unseen hf h with ⟨callback, i, l, l', hs, ht, unseen, howes⟩ |
    ⟨callback, hs, hcaller, htop, ht⟩
  · have hcaller : s.caller = some i := caller_eq_some.mpr ⟨callback, _, hs⟩
    have htop : t.top = some i := top_eq_some.mpr ⟨_, ht⟩
    refine unseen.kept hk (top_app hs) (.inr ⟨hcaller, htop⟩) ?_ (.inr ⟨htop, ?_⟩)
    · have hnested := hk.nested.tail
      rw [hs, List.tail_cons, ← ht] at hnested
      exact hnested
    · exact unseen.toShifted.drained (hdrained i hcaller l unseen.found) howes
  · rw [ht]
    refine hk.restack (top_app hs) hcaller ?_ htop
    have hnested := hk.nested.tail
    rwa [hs] at hnested

theorem kept_enter (hk : Kept sub s) (h : turn sub s .enter = some t) : Kept sub t := by
  obtain ⟨hs, rfl⟩ := turn_enter h
  refine hk.restack (by simp [top, hs]) (by simp [caller, hs]) ?_ rfl
  rw [hs]
  exact .singleton _

theorem kept_start {startId : Option Text} (hk : Kept sub s)
    (h : turn sub s (.start startId) = some t) : Kept sub t := by
  obtain ⟨⟨callback, rest, hs⟩, rfl⟩ := turn_start h
  have hcoherent := hk.coherent.start startId
  unfold RealtimeClient.start at hcoherent ⊢
  split at hcoherent
  · rename_i hrunning
    rw [if_pos hrunning]
    refine ⟨hcoherent, hk.nested, ?_, drained_of_top (top_app hs)⟩
    intro hrejected
    cases hrejected
  · rename_i hrunning
    rw [if_neg hrunning]
    refine ⟨hcoherent, ?_, ?_, ?_⟩
    · change (Task.loop s.loops.length :: s.stack).IsChain Task.Calls
      rw [hs]
      exact List.isChain_cons_cons.mpr ⟨trivial, hs ▸ hk.nested⟩
    · intro hrejected
      cases hrejected
    · intro _ _ _ _ hstopped
      cases hstopped

theorem kept_stop (hk : Kept sub s) (h : turn sub s .stop = some t) : Kept sub t := by
  obtain ⟨⟨callback, rest, hs⟩, rfl⟩ := turn_stop h
  have hhalted := stop_halted s
  refine ⟨hhalted.coherent hk.coherent, ?_, ?_, drained_of_top ?_⟩
  · rcases hhalted.stack with hsame | hcall
    · rw [hsame]
      exact hk.nested
    · rw [hcall, hs]
      exact List.isChain_cons_cons.mpr ⟨trivial, hs ▸ hk.nested⟩
  · intro hrejected
    rw [hhalted.rejected] at hrejected
    cases hrejected
  · rcases hhalted.stack with hsame | hcall
    · exact top_app (hsame.trans hs)
    · exact top_app hcall

theorem kept_turn (hk : Kept sub s) (horderly : Orderly sub s a) (h : turn sub s a = some t) :
    Kept sub t := by
  cases a with
  | enter => exact kept_enter hk h
  | start startId => exact kept_start hk h
  | stop => exact kept_stop hk h
  | ret token => exact kept_back (returned_returns token) hk horderly h
  | throw => exact kept_back threw_returns hk horderly h
  | go => exact kept_go hk horderly h
  | fetchSettled i res => exact hk.settled (fetchSettled_unseen h)
  | readSettled i result => exact hk.settled (readSettled_unseen h)
  | timer i => exact hk.settled (timer_unseen h)
  | resume i => exact kept_resume hk horderly h

theorem kept_init (sub : Subscriptions) : Kept sub {} where
  coherent :=
    { distinct := .nil
      issued := by simp [tokens]
      halted := by simp [tokens]
      running := rfl
      served := by simp }
  nested := .nil
  rejected := by simp
  drained := drained_of_top rfl

theorem go_calls (hk : Kept sub s) (h : turn sub s .go = some t)
    (hcall : t.stack = .app .handler :: s.stack) : s.stopped = false := by
  obtain ⟨i, rest, l, hstack, hl, h⟩ := turn_go h
  obtain ⟨l', went⟩ := go_went hl h
  rcases went.stack with hsame | htail | ⟨callback, hcall', howes⟩
  · exact (List.cons_ne_self _ _ (hcall.symm.trans hsame)).elim
  · rw [htail, hstack, List.tail_cons] at hcall
    have := congrArg List.length hcall
    simp only [List.length_cons] at this
    omega
  · rw [hcall', List.cons.injEq, Task.app.injEq] at hcall
    by_contra hstopped
    rw [Bool.not_eq_false] at hstopped
    exact howes hcall.1 (hk.drained i (top_eq_some.mpr ⟨rest, hstack⟩) l hl hstopped)

theorem back_calls {f : Loop → Loop} (hf : Returns sub f) (h : s.back f = some t) :
    t.stack ≠ .app .handler :: s.stack := by
  intro hcall
  rcases back_unseen hf h with ⟨callback, i, l, l', -, ht, -⟩ | ⟨callback, hs, -⟩
  · rw [ht] at hcall
    cases hcall
  · rw [hs] at hcall
    have := congrArg List.length hcall
    simp only [List.length_cons] at this
    omega

/-- Only the code of a loop calls a handler. -/
theorem kept_calls (hk : Kept sub s) : CallsStarted sub s a := by
  intro t h hcall
  cases a with
  | enter =>
    obtain ⟨-, rfl⟩ := turn_enter h
    cases hcall
  | start startId =>
    obtain ⟨-, rfl⟩ := turn_start h
    unfold RealtimeClient.start at hcall
    split at hcall
    · exact (List.cons_ne_self _ _ hcall.symm).elim
    · cases hcall
  | stop =>
    obtain ⟨-, rfl⟩ := turn_stop h
    rcases (stop_halted s).stack with hsame | hstatus
    · exact (List.cons_ne_self _ _ (hcall.symm.trans hsame)).elim
    · cases hcall.symm.trans hstatus
  | ret token =>
    have hf : Returns sub (returned · token) := returned_returns token
    exact (back_calls hf h hcall).elim
  | throw =>
    have hf : Returns sub threw := threw_returns
    exact (back_calls hf h hcall).elim
  | go => exact go_calls hk h hcall
  | fetchSettled i res => cases hcall.symm.trans (fetchSettled_unseen h).2.1
  | readSettled i result => cases hcall.symm.trans (readSettled_unseen h).2.1
  | timer i => cases hcall.symm.trans (timer_unseen h).2.1
  | resume i => cases hcall.symm.trans (resume_unseen h).2.1

/-- Where the client's own loop ends, `start` begins no other: `running` stays set. -/
theorem not_ruled_of_finish (hk : Kept sub s) (htop : s.top = some i) (hl : s.loops[i]? = some l)
    (hpc : l.pc = .finish) (htoken : l.token = s.runToken) (h : turn sub s .go = some t) :
    ¬ Ruled t := by
  intro hruled
  obtain ⟨j, rest, m, hstack, hm, h⟩ := turn_go h
  obtain ⟨_, hstack'⟩ := top_eq_some.mp htop
  cases hstack.symm.trans hstack'
  cases hl.symm.trans hm
  simp only [go, hpc, if_pos htoken.symm, Option.some.injEq] at h
  subst h
  have hstopped : s.stopped = false := by
    by_contra hstopped
    rw [Bool.not_eq_false] at hstopped
    exact hk.coherent.halted hstopped
      (htoken ▸ List.mem_map_of_mem (List.mem_of_getElem? hl))
  have hrunning : s.running = true := by
    rw [hk.coherent.running, hstopped]
    rfl
  let t := (s.setLoop i { l with pc := .ended }).setStatus .closed
  have hdead : ∀ m ∈ t.loops, ¬ t.Live m := by
    intro m hm hlive
    rw [setStatus_loops] at hm
    obtain ⟨k, hk'⟩ := List.mem_iff_getElem?.mp hm
    rcases getElem?_set_cases hk' with ⟨-, rfl⟩ | ⟨hne, hm⟩
    · exact hlive.1 rfl
    · have hl' : s.Live l := ⟨by simp [hpc], by simp [live, hstopped, htoken]⟩
      have hm' : s.Live m := ⟨hlive.1, by simpa [t, live, setLoop] using hlive.2⟩
      exact hne (hk.coherent.single hm hl hm' hl')
  obtain ⟨new, -, hloops, -⟩ := hruled.starts hdead none
  simp [RealtimeClient.start, hrunning, setLoop] at hloops

/-- In an orderly run the client keeps its rules and calls handlers between a start and a stop
only. -/
theorem rules_of_orderly (sub : Subscriptions) (as : List ClientTurn)
    (h : Meets (turn sub) (Orderly sub) {} as) :
    Always (turn sub) Ruled {} as ∧ Meets (turn sub) (CallsStarted sub) {} as := by
  have hstep : ∀ s a t, Kept sub s → Orderly sub s a → turn sub s a = some t → Kept sub t :=
    fun _ _ _ hk horderly ht => kept_turn hk horderly ht
  constructor
  · exact (always_of_meets hstep (kept_init sub) h).mono fun _ hk => hk.ruled
  · exact meets_of_meets hstep (fun _ _ _ hk _ _ => kept_calls hk) (kept_init sub) h

/-- One handler an event. -/
def oneHandler : Subscriptions where
  parses _ := true
  handlers _ := 1

/-- A start, and the answer to its fetch. -/
def answered (res : Response) : List ClientTurn :=
  [.enter, .start none, .go, .ret none, .go, .ret (some [1]), .go, .ret none, .fetchSettled 0 res,
    .resume 0, .go, .ret none, .go]

/-- A stream of some frames, up to the first one's handler. -/
def handled (frames : List WireEvent) : List ClientTurn :=
  answered .ok ++
    [.readSettled 0 (.chunk (frames.flatMap (fun evt => (Wire.event evt).text))), .resume 0, .go,
      .go, .go]

def eventOf (id : Text) : WireEvent where
  id := id
  type := []
  json := [1]

/-- A handler starts the client again, while the first loop's last frame is handled. -/
def restarted : List ClientTurn :=
  handled [eventOf [1]] ++
    [.stop, .ret none, .start none, .go, .ret none, .go, .ret (some [1]), .go, .ret none, .go,
      .readSettled 0 .failed, .resume 0, .go, .go, .go, .go]

theorem restarted_ruled : (exec (turn oneHandler) {} restarted).isSome ∧
    Always (turn oneHandler) Ruled {} restarted ∧
      Meets (turn oneHandler) (CallsStarted oneHandler) {} restarted :=
  ⟨by decide, rules_of_orderly oneHandler restarted (by decide)⟩

/-- The first frame's handler stops the client. -/
def stoppedFirst : List ClientTurn :=
  handled [eventOf [1], eventOf [2]] ++ [.stop, .ret none, .ret none, .go]

/-- A rejected client says it is closed, and a stopped one calls the second frame's handler. -/
theorem rejected_closed :
    ¬ (∀ sub as, Always (turn sub) Ruled {} as ∧ Meets (turn sub) (CallsStarted sub) {} as) ∧
    ¬ Always (turn oneHandler) Ruled {} (answered .unauthorized) ∧
      ¬ Meets (turn oneHandler) (CallsStarted oneHandler) {} (stoppedFirst ++ [.go]) := by
  have hclosed : ¬ Always (turn oneHandler) Ruled {} (answered .unauthorized) := by
    intro h
    have hlast : ((exec (turn oneHandler) {} (answered .unauthorized)).map
        fun t => (t.rejected, t.status)) = some (true, .closed) := by decide
    obtain ⟨t, hrun, ht⟩ := Option.map_eq_some_iff.mp hlast
    obtain ⟨hrejected, hstatus⟩ := Prod.mk.inj ht
    cases hstatus.symm.trans ((h.last hrun).unauthorized hrejected)
  refine ⟨fun h => hclosed (h oneHandler _).1, hclosed, ?_⟩
  intro h
  have hlast : ((exec (turn oneHandler) {} stoppedFirst).map fun t => (t.stopped,
      (turn oneHandler t .go).any (fun u => u.stack = .app .handler :: t.stack))) =
        some (true, true) := by decide
  obtain ⟨t, hrun, ht⟩ := Option.map_eq_some_iff.mp hlast
  obtain ⟨hstopped, hcall⟩ := Prod.mk.inj ht
  obtain ⟨u, hu, hcall⟩ := (Option.any_eq_true _ _).mp hcall
  have hne : turn oneHandler t .go ≠ none := by
    rw [hu]
    exact Option.some_ne_none u
  cases hstopped.symm.trans (h.last hrun hne u hu (of_decide_eq_true hcall))

end WaOps.Realtime
