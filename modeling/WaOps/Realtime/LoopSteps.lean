import WaOps.Lib.Lists
import WaOps.Realtime.Loops

namespace WaOps.Realtime
open Lib.Lists RealtimeClient

variable {sub : Subscriptions} {s t : RealtimeClient} {i j : Nat} {l l' : Loop}
  {next : RealtimeStatus} {callback : Callback} {rest : List Task}

section
variable (s next)

@[simp] theorem setStatus_loops : (s.setStatus next).loops = s.loops := by
  unfold setStatus
  split <;> rfl

@[simp] theorem setStatus_running : (s.setStatus next).running = s.running := by
  unfold setStatus
  split <;> rfl

@[simp] theorem setStatus_stopped : (s.setStatus next).stopped = s.stopped := by
  unfold setStatus
  split <;> rfl

@[simp] theorem setStatus_runToken : (s.setStatus next).runToken = s.runToken := by
  unfold setStatus
  split <;> rfl

@[simp] theorem setStatus_aborted : (s.setStatus next).aborted = s.aborted := by
  unfold setStatus
  split <;> rfl

@[simp] theorem setStatus_recentIds : (s.setStatus next).recentIds = s.recentIds := by
  unfold setStatus
  split <;> rfl

@[simp] theorem setStatus_rejected : (s.setStatus next).rejected = s.rejected := by
  unfold setStatus
  split <;> rfl

@[simp] theorem setStatus_status : (s.setStatus next).status = next := by
  unfold setStatus
  split
  · assumption
  · rfl

theorem setStatus_reject : { s with rejected := true }.setStatus next =
    { s.setStatus next with rejected := true } := by
  unfold setStatus
  split <;> rfl

/-- Only a new status calls the application. -/
theorem setStatus_stack : (s.setStatus next).stack = s.stack ∨
    (s.setStatus next).stack = .app .onStatus :: s.stack := by
  unfold setStatus
  split
  · exact .inl rfl
  · exact .inr rfl

end

theorem setLoop_self (hl : s.loops[i]? = some l) : s.setLoop i l = s := by
  obtain ⟨hi, rfl⟩ := List.getElem?_eq_some_iff.mp hl
  simp [setLoop]

/-- How many handlers the frames of a chunk still call. -/
def owed (sub : Subscriptions) : List Text → List SseFrame → Nat
  | _, [] => 0
  | recentIds, frame :: rest =>
    let (duplicate, recentIds) := isDuplicate recentIds frame.id
    (if duplicate then 0 else sub.dispatchFrame frame) + owed sub recentIds rest

def Loop.owes (l : Loop) (sub : Subscriptions) (s : RealtimeClient) : Nat :=
  match l.pc with
  | .read (.chunk text) => owed sub s.recentIds (l.parser.push text).2
  | .frames rest n => n + owed sub s.recentIds rest
  | _ => 0

/-- A loop that is live, or superseded but on its way to a fetch that may succeed. -/
def Loop.maySet (l : Loop) (s : RealtimeClient) : Bool :=
  s.live l ||
    match l.pc with
    | .lookup | .looked | .send | .fetched .ok => true
    | .fetching => l.signal ∉ s.aborted
    | _ => false

/-- A loop that is not over and would go on. -/
def RealtimeClient.Live (s : RealtimeClient) (l : Loop) : Prop :=
  l.pc ≠ .ended ∧ s.live l = true

def tokens (s : RealtimeClient) : List Nat := s.loops.map Loop.token

theorem maySet_finish (hpc : l.pc = .finish) (htoken : l.token ≠ s.runToken) :
    l.maySet s = false := by
  simp [Loop.maySet, live, hpc, htoken.symm]

/-- A step moves one loop on. -/
structure Shifted (s t : RealtimeClient) (i : Nat) (l l' : Loop) : Prop where
  found : s.loops[i]? = some l
  loops : t.loops = s.loops.set i l'
  token : l'.token = l.token
  running : t.running = s.running
  stopped : t.stopped = s.stopped
  runToken : t.runToken = s.runToken
  aborted : t.aborted = s.aborted
  inert : l.maySet s = false → l'.maySet s = false

theorem Shifted.setLoop (hl : s.loops[i]? = some l) (l' : Loop) (htoken : l'.token = l.token)
    (hinert : l.maySet s = false → l'.maySet s = false) : Shifted s (s.setLoop i l') i l l' where
  found := hl
  loops := rfl
  token := htoken
  running := rfl
  stopped := rfl
  runToken := rfl
  aborted := rfl
  inert := hinert

theorem Shifted.getElem?_self (h : Shifted s t i l l') : t.loops[i]? = some l' := by
  obtain ⟨hi, -⟩ := List.getElem?_eq_some_iff.mp h.found
  rw [h.loops, List.getElem?_set_self hi]

theorem Shifted.maySet (h : Shifted s t i l l') (m : Loop) : m.maySet t = m.maySet s := by
  simp only [Loop.maySet, live, h.stopped, h.runToken, h.aborted]

theorem Shifted.tokens_eq (h : Shifted s t i l l') : tokens t = tokens s := by
  unfold tokens
  rw [h.loops]
  exact map_set_same Loop.token h.found h.token

/-- Whether a loop may set a status now. -/
def Loop.sets (l : Loop) (s : RealtimeClient) (next : RealtimeStatus) : Prop :=
  l.maySet s = true ∨ (l.pc = .finish ∧ l.token = s.runToken) ∨
    (l.pc = .fetched .unauthorized ∧ next = .unauthorized)

/-- What one step of a loop's code does. -/
structure Went (sub : Subscriptions) (s t : RealtimeClient) (i : Nat) (l l' : Loop) : Prop
    extends Shifted s t i l l' where
  ended : l'.pc = .ended → l.pc = .ended ∨ l.pc = .finish
  status : t.status = s.status ∨ l.sets s t.status
  turned : t.rejected = s.rejected ∨ l.pc = .fetched .unauthorized ∧ l'.pc = .finish ∧
    t.status = .unauthorized ∧ (t.stack = s.stack ∨ t.stack = .app .onStatus :: s.stack)
  owes : l'.owes sub t ≤ l.owes sub s
  stack : t.stack = s.stack ∨ t.stack = s.stack.tail ∨ ∃ callback,
    t.stack = .app callback :: s.stack ∧ (callback = .handler → l.owes sub s ≠ 0)

namespace Went

theorem setLoop (hl : s.loops[i]? = some l) (l' : Loop) (htoken : l'.token = l.token)
    (hended : l'.pc = .ended → l.pc = .ended ∨ l.pc = .finish)
    (hinert : l.maySet s = false → l'.maySet s = false) (howes : l'.owes sub s ≤ l.owes sub s) :
    Went sub s (s.setLoop i l') i l l' :=
  { Shifted.setLoop hl l' htoken hinert with
    ended := hended
    status := .inl rfl
    turned := .inl rfl
    owes := howes
    stack := .inl rfl }

variable (h : Went sub s t i l l') (hstack : t.stack = s.stack)
  (hturned : t.rejected = s.rejected)
include h hstack hturned

theorem call (hcallback : callback = .handler → l.owes sub s ≠ 0) :
    Went sub s (t.call callback) i l l' :=
  { h with
    turned := .inl hturned
    stack := .inr (.inr ⟨callback, congrArg _ hstack, hcallback⟩) }

theorem await : Went sub s t.await i l l' :=
  { h with
    turned := .inl hturned
    stack := .inr (.inl (congrArg List.tail hstack)) }

theorem setStatus (hsets : l.sets s next) :
    Went sub s (t.setStatus next) i l l' := by
  have hset : (t.setStatus next).stack = s.stack ∨
      (t.setStatus next).stack = .app .onStatus :: s.stack := by
    rw [← hstack]
    exact setStatus_stack t next
  refine
    { found := h.found, loops := ?_, token := h.token, running := ?_, stopped := ?_
      runToken := ?_, aborted := ?_, inert := h.inert, ended := h.ended, status := .inr ?_
      turned := .inl ?_, owes := ?_, stack := ?_ }
  · rw [setStatus_loops, h.loops]
  · rw [setStatus_running, h.running]
  · rw [setStatus_stopped, h.stopped]
  · rw [setStatus_runToken, h.runToken]
  · rw [setStatus_aborted, h.aborted]
  · rwa [setStatus_status]
  · rw [setStatus_rejected, hturned]
  · simpa [Loop.owes] using h.owes
  · rcases hset with hset | hset
    · exact .inl hset
    · exact .inr (.inr ⟨.onStatus, hset, by simp⟩)

end Went

theorem go_went (hl : s.loops[i]? = some l) (h : go sub s i l = some t) :
    ∃ l', Went sub s t i l l' := by
  unfold go at h
  split at h <;> rename_i hpc
  · split at h <;> rename_i hlive <;> cases h
    · have went : Went sub s _ i l _ := .setLoop hl { l with pc := .lookup } rfl (by simp)
        (by simp [Loop.maySet, hlive]) (by simp [Loop.owes])
      exact ⟨_, went.setStatus rfl rfl (.inl (by simp [Loop.maySet, hlive]))⟩
    · exact ⟨_, .setLoop hl { l with pc := .finish } rfl (by simp)
        (by simp [Loop.maySet, live, hpc]) (by simp [Loop.owes])⟩
  · cases h
    have went : Went sub s _ i l _ := .setLoop hl { l with pc := .looked } rfl (by simp)
      (by simp [Loop.maySet, hpc]) (by simp [Loop.owes])
    exact ⟨_, went.call rfl rfl (by simp)⟩
  · split at h <;> cases h
    · rename_i signal _
      have went : Went sub s _ i l _ := .setLoop hl { l with signal, pc := .fetching } rfl (by simp)
        (by simp [Loop.maySet, hpc]) (by simp [Loop.owes])
      exact ⟨_, went.await rfl rfl⟩
    · exact ⟨_, .setLoop hl { l with pc := .caught } rfl (by simp)
        (by simp [Loop.maySet, hpc]) (by simp [Loop.owes])⟩
  · cases h
    exact ⟨_, .setLoop hl { l with pc := .caught } rfl (by simp)
      (by simp [Loop.maySet, live, hpc]) (by simp [Loop.owes])⟩
  · cases h
    have went : Went sub s _ i l _ := .setLoop hl { l with pc := .finish } rfl (by simp)
      (by simp [Loop.maySet, live, hpc]) (by simp [Loop.owes])
    have hset : Went sub s ((s.setLoop i { l with pc := .finish }).setStatus .unauthorized) i l _ :=
      went.setStatus rfl rfl (.inr (.inr ⟨hpc, rfl⟩))
    rw [setStatus_reject]
    exact ⟨_, { hset with turned := .inr ⟨hpc, rfl, setStatus_status _ _, setStatus_stack _ _⟩ }⟩
  · cases h
    have went : Went sub s _ i l _ := .setLoop hl { l with pc := .backoff } rfl (by simp)
      (by simp [Loop.maySet, live, hpc]) (by simp [Loop.owes])
    exact ⟨_, went.call rfl rfl (by simp)⟩
  · cases h
    have went : Went sub s _ i l _ := .setLoop hl { l with attempt := 0, pc := .open } rfl (by simp)
      (by simp [Loop.maySet, hpc]) (by simp [Loop.owes])
    exact ⟨_, went.setStatus rfl rfl (.inl (by simp [Loop.maySet, hpc]))⟩
  · split at h <;> cases h
    · have went : Went sub s _ i l _ := .setLoop hl { l with pc := .backoff } rfl (by simp)
        (by simp [Loop.maySet, live, hpc]) (by simp [Loop.owes])
      exact ⟨_, went.call rfl rfl (by simp)⟩
    · exact ⟨_, .setLoop hl { l with pc := .finish } rfl (by simp)
        (by simp [Loop.maySet, live, hpc]) (by simp [Loop.owes])⟩
  · cases h
    have went : Went sub s _ i l _ :=
      .setLoop hl { l with attempt := l.attempt + 1, pc := .sleeping } rfl (by simp)
        (by simp [Loop.maySet, live, hpc]) (by simp [Loop.owes])
    exact ⟨_, { went with turned := .inl rfl, stack := .inr (.inl rfl) }⟩
  · cases h
    have went : Went sub s _ i l _ := .setLoop hl { l with parser := {}, pc := .reading } rfl
      (by simp) (by simp [Loop.maySet, live, hpc]) (by simp [Loop.owes])
    exact ⟨_, went.await rfl rfl⟩
  · rename_i text
    cases h
    let frames := (l.parser.push text).2
    exact ⟨_, .setLoop hl { l with parser := (l.parser.push text).1, pc := .frames frames 0 } rfl
      (by simp) (by simp [Loop.maySet, live, hpc]) (by simp [Loop.owes, hpc, frames])⟩
  · cases h
    exact ⟨_, .setLoop hl { l with pc := .closed false } rfl (by simp)
      (by simp [Loop.maySet, live, hpc]) (by simp [Loop.owes])⟩
  · cases h
    exact ⟨_, .setLoop hl { l with pc := .closed true } rfl (by simp)
      (by simp [Loop.maySet, live, hpc]) (by simp [Loop.owes])⟩
  · rename_i rest n
    cases h
    have went : Went sub s _ i l _ := .setLoop hl { l with pc := .frames rest n } rfl (by simp)
      (by simp [Loop.maySet, live, hpc]) (by simp [Loop.owes, hpc])
    exact ⟨_, went.call rfl rfl (by simp [Loop.owes, hpc])⟩
  · rename_i frame rest
    generalize hdup : isDuplicate s.recentIds frame.id = found at h
    obtain ⟨duplicate, recentIds⟩ := found
    cases h
    let cursor := if frame.id = [] then l.cursor else some frame.id
    let n := if duplicate then 0 else sub.dispatchFrame frame
    refine ⟨{ l with cursor, pc := .frames rest n }, ?_⟩
    have shifted : Shifted s (s.setLoop i { l with cursor, pc := .frames rest n }) i l _ :=
      .setLoop hl { l with cursor, pc := .frames rest n } rfl (by simp [Loop.maySet, live, hpc])
    exact
      { shifted with
        ended := by simp
        status := .inl rfl
        turned := .inl rfl
        owes := by simp [Loop.owes, owed, hpc, hdup, n]
        stack := .inl rfl }
  · cases h
    have went : Went sub s _ i l _ := .setLoop hl { l with pc := .reading } rfl (by simp)
      (by simp [Loop.maySet, live, hpc]) (by simp [Loop.owes])
    exact ⟨_, went.await rfl rfl⟩
  · split at h <;> cases h
    · have went : Went sub s _ i l _ := .setLoop hl { l with pc := .backoff } rfl (by simp)
        (by simp [Loop.maySet, live, hpc]) (by simp [Loop.owes])
      split
      · exact ⟨_, went.call rfl rfl (by simp)⟩
      · exact ⟨_, went⟩
    · exact ⟨_, .setLoop hl { l with pc := .finish } rfl (by simp)
        (by simp [Loop.maySet, live, hpc]) (by simp [Loop.owes])⟩
  · cases h
    have went : Went sub s _ i l _ := .setLoop hl { l with pc := .ended } rfl (by simp [hpc])
      (by simp [Loop.maySet, live, hpc]) (by simp [Loop.owes])
    split
    · rename_i htoken
      exact ⟨_, went.setStatus rfl rfl (.inr (.inl ⟨hpc, htoken.symm⟩))⟩
    · exact ⟨_, went⟩
  · cases h
    have went : Went sub s (s.setLoop i l) i l l := .setLoop hl l rfl (by simp [hpc]) id le_rfl
    rw [setLoop_self hl] at went
    exact ⟨l, went.await rfl rfl⟩
  all_goals cases h

/-- A step that shows nothing: between two awaits, or back from a call-back. -/
structure Unseen (sub : Subscriptions) (s t : RealtimeClient) (i : Nat) (l l' : Loop) : Prop
    extends Shifted s t i l l' where
  ended : l'.pc = .ended → l.pc = .ended
  status : t.status = s.status
  turned : t.rejected = s.rejected
  finish : l.pc = .finish → l'.pc = .finish

theorem Unseen.setLoop (hl : s.loops[i]? = some l) (l' : Loop) (htoken : l'.token = l.token)
    (hended : l'.pc = .ended → l.pc = .ended) (hfinish : l.pc = .finish → l'.pc = .finish)
    (hinert : l.maySet s = false → l'.maySet s = false) : Unseen sub s (s.setLoop i l') i l l' :=
  { Shifted.setLoop hl l' htoken hinert with
    ended := hended
    status := rfl
    turned := rfl
    finish := hfinish }

theorem fetchSettled_unseen {res : Response} (h : turn sub s (.fetchSettled i res) = some t) :
    s.stack = [] ∧ t.stack = [] ∧ ∃ l l', Unseen sub s t i l l' := by
  obtain ⟨l, hl, h⟩ := Option.bind_eq_some_iff.mp h
  split at h <;> cases h
  rename_i hready
  obtain ⟨hstack, hpc, hget⟩ := hready
  refine ⟨hstack, hstack, l, { l with pc := .fetched res }, ?_⟩
  refine .setLoop hl _ rfl (by simp) (by simp [hpc]) ?_
  intro hinert
  cases res <;> simp_all [Loop.maySet, Loop.mayGet, live]

theorem readSettled_unseen {result : Read} (h : turn sub s (.readSettled i result) = some t) :
    s.stack = [] ∧ t.stack = [] ∧ ∃ l l', Unseen sub s t i l l' := by
  obtain ⟨l, hl, h⟩ := Option.bind_eq_some_iff.mp h
  split at h <;> cases h
  rename_i hready
  obtain ⟨hstack, hpc, -⟩ := hready
  refine ⟨hstack, hstack, l, { l with pc := .read result }, ?_⟩
  exact .setLoop hl _ rfl (by simp) (by simp [hpc]) (by simp [Loop.maySet, live, hpc])

theorem timer_unseen (h : turn sub s (.timer i) = some t) :
    s.stack = [] ∧ t.stack = [] ∧ ∃ l l', Unseen sub s t i l l' := by
  obtain ⟨l, hl, h⟩ := Option.bind_eq_some_iff.mp h
  split at h <;> cases h
  rename_i hready
  obtain ⟨hstack, hpc⟩ := hready
  have unseen : Unseen sub s _ i l _ := .setLoop hl { l with pc := .woken } rfl (by simp)
    (by simp [hpc]) (by simp [Loop.maySet, live, hpc])
  exact ⟨hstack, hstack, l, _, { unseen with }⟩

theorem resume_unseen (h : turn sub s (.resume i) = some t) :
    s.stack = [] ∧ t.stack = [.loop i] ∧
      ∃ l l', Unseen sub s t i l l' ∧ l'.owes sub t ≤ l.owes sub s := by
  obtain ⟨l, hl, h⟩ := Option.bind_eq_some_iff.mp h
  split at h <;> try cases h
  rename_i hstack
  have unseen : Unseen sub s (s.setLoop i l) i l l := .setLoop hl l rfl id id id
  rw [setLoop_self hl] at unseen
  split at h <;> cases h
  · exact ⟨hstack, rfl, l, l, { unseen with }, le_rfl⟩
  · exact ⟨hstack, rfl, l, l, { unseen with }, le_rfl⟩
  · rename_i hpc
    have unseen : Unseen sub s _ i l _ := .setLoop hl { l with pc := .check } rfl (by simp)
      (by simp [hpc]) (by simp [Loop.maySet, live, hpc])
    exact ⟨hstack, rfl, l, _, { unseen with }, by simp [Loop.owes]⟩

/-- What a call-back's end may do to the loop that called it. -/
structure Returns (sub : Subscriptions) (f : Loop → Loop) : Prop where
  token : ∀ l, (f l).token = l.token
  ended : ∀ l, (f l).pc = .ended → l.pc = .ended
  finish : ∀ l, l.pc = .finish → (f l).pc = .finish
  inert : ∀ l s, l.maySet s = false → (f l).maySet s = false
  owes : ∀ l s, (f l).owes sub s ≤ l.owes sub s

theorem returned_returns (token : Option Text) : Returns sub (returned · token) := by
  constructor <;> intro l
  all_goals unfold returned; split <;> simp_all [Loop.maySet, Loop.owes, live]

theorem threw_returns : Returns sub threw := by
  constructor <;> intro l
  all_goals unfold threw; split <;> simp_all [Loop.maySet, Loop.owes, live]

namespace RealtimeClient

/-- The loop that is being executed. -/
def top (s : RealtimeClient) : Option Nat :=
  match s.stack with
  | .loop i :: _ => some i
  | _ => none

/-- The loop that called the application's code that is being executed. -/
def caller (s : RealtimeClient) : Option Nat :=
  match s.stack with
  | .app _ :: .loop i :: _ => some i
  | _ => none

end RealtimeClient

theorem top_eq_some : s.top = some i ↔ ∃ rest, s.stack = .loop i :: rest := by
  unfold top
  split <;> simp_all

theorem caller_eq_some :
    s.caller = some i ↔ ∃ callback rest, s.stack = .app callback :: .loop i :: rest := by
  unfold caller
  split <;> simp_all

theorem top_app (h : t.stack = .app callback :: rest) : t.top = none := by
  simp [top, h]

/-- A call-back ends in the loop that called it, or in other code of the application. -/
theorem back_unseen {f : Loop → Loop} (hf : Returns sub f) (h : s.back f = some t) :
    (∃ callback i l l', s.stack = .app callback :: .loop i :: t.stack.tail ∧
      t.stack = .loop i :: t.stack.tail ∧ Unseen sub s t i l l' ∧
      l'.owes sub t ≤ l.owes sub s) ∨
    ∃ callback, s.stack = .app callback :: t.stack ∧ s.caller = none ∧ t.top = none ∧
      t = { s with stack := t.stack } := by
  unfold back at h
  split at h
  · rename_i callback i rest hstack
    obtain ⟨l, hl, rfl⟩ := Option.map_eq_some_iff.mp h
    have unseen : Unseen sub s (s.setLoop i (f l)) i l (f l) :=
      .setLoop hl (f l) (hf.token l) (hf.ended l) (hf.finish l) (hf.inert l s)
    exact .inl ⟨callback, i, l, f l, hstack, rfl, { unseen with }, hf.owes l s⟩
  · rename_i callback rest hrest hstack
    cases h
    refine .inr ⟨callback, hstack, ?_, ?_, rfl⟩
    · unfold caller
      split
      · rename_i hcaller
        rw [hstack, List.cons.injEq] at hcaller
        exact (hrest _ _ hcaller.2).elim
      · rfl
    · unfold top
      split
      · rename_i htop
        exact (hrest _ _ htop).elim
      · rfl
  · cases h

theorem turn_go (h : turn sub s .go = some t) :
    ∃ i rest l, s.stack = .loop i :: rest ∧ s.loops[i]? = some l ∧ go sub s i l = some t := by
  simp only [turn] at h
  split at h
  · rename_i i rest hstack
    obtain ⟨l, hl, h⟩ := Option.bind_eq_some_iff.mp h
    exact ⟨i, rest, l, hstack, hl, h⟩
  · cases h

theorem turn_enter (h : turn sub s .enter = some t) : s.stack = [] ∧ t = s.call .own := by
  simp only [turn] at h
  split at h <;> cases h
  rename_i hstack
  exact ⟨hstack, rfl⟩

theorem turn_start {startId : Option Text} (h : turn sub s (.start startId) = some t) :
    (∃ callback rest, s.stack = .app callback :: rest) ∧ t = s.start startId := by
  simp only [turn] at h
  split at h
  · rename_i callback rest hstack
    cases h
    exact ⟨⟨callback, rest, hstack⟩, rfl⟩
  · cases h

theorem turn_stop (h : turn sub s .stop = some t) :
    (∃ callback rest, s.stack = .app callback :: rest) ∧ t = s.stop := by
  simp only [turn] at h
  split at h
  · rename_i callback rest hstack
    cases h
    exact ⟨⟨callback, rest, hstack⟩, rfl⟩
  · cases h

theorem wakeUp_loops (s : RealtimeClient) (i : Nat) :
    ∃ loops, s.wakeUp i = { s with loops } ∧ loops.map Loop.token = tokens s := by
  unfold wakeUp
  split
  · rename_i l hl
    split
    · exact ⟨_, rfl, map_set_same Loop.token hl rfl⟩
    · exact ⟨_, rfl, rfl⟩
  · exact ⟨_, rfl, rfl⟩

/-- What `stop` does. -/
structure Halted (s t : RealtimeClient) : Prop where
  tokens : tokens t = tokens s
  running : t.running = false
  stopped : t.stopped = true
  runToken : t.runToken = s.runToken + 1
  rejected : t.rejected = false
  stack : t.stack = s.stack ∨ t.stack = .app .onStatus :: s.stack

theorem stop_halted (s : RealtimeClient) : Halted s s.stop := by
  unfold stop
  simp only
  split
  · rename_i i _
    obtain ⟨loops, heq, htokens⟩ := wakeUp_loops
      { s with
        stopped := true
        runToken := s.runToken + 1
        aborted := s.controller.toList ++ s.aborted
        controller := none
        running := false
        wake := none
        rejected := false } i
    rw [heq]
    constructor
    case stack => exact setStatus_stack _ _
    case tokens => simpa [Realtime.tokens] using htokens
    all_goals simp
  · constructor
    case stack => exact setStatus_stack _ _
    all_goals simp [Realtime.tokens]

end WaOps.Realtime
