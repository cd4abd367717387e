import WaOps.Lib.Lists
import WaOps.Outbox.State

namespace WaOps.Outbox
open Lib.Lists

def Phase.row : Phase → List Claimed
  | .publishing row => [row]
  | _ => []

/-- The rows of a tick that the publisher has not accepted from it. -/
def Tick.unaccepted (t : Tick) : List Claimed :=
  t.phase.row ++ t.rest ++ t.failed

/-- The rows a tick works on or owes a verdict. -/
def Tick.holds (t : Tick) : List Claimed :=
  t.unaccepted ++ t.sent

def Tick.ids (t : Tick) : List String :=
  t.holds.map Claimed.id

/-- The rows a tick lets go of without having written a verdict. -/
def State.dropped (s : State) : Action → List Claimed
  | .crash i | .markSent i _ .aborted | .markFailed i .aborted => (s.ticks[i]?.map Tick.holds).getD []
  | .markSent i _ .unanswered => (s.ticks[i]?.map Tick.unaccepted).getD []
  | _ => []

inductive Effect (cfg : Config) (s : State) : Action → State → Prop
  | append (fresh : ∀ r ∈ s.rows, r.id ≠ rowId) :
    Effect cfg s (.append rowId eventId tenantId payloadJson now)
      { s with rows := s.rows ++ [{ id := rowId, eventId, tenantId, payloadJson,
                                    availableAt := now, createdAt := now }] }
  | claim : Effect cfg s (.claim now locked) (s.claim cfg now locked)
  | hand (ht : s.ticks[i]? = some t) (hr : t.rest[j]? = some row) (hp : t.phase = .ready) :
    Effect cfg s (.hand i j)
      { s.setTick i (t.hand j row) with handed := s.handed ++ [row.id] }
  | accept (ht : s.ticks[i]? = some t) (hp : t.phase = .publishing row) :
    Effect cfg s (.outcome i true)
      { s.setTick i (t.settle cfg row true) with published := s.published ++ [row.id] }
  | refuse (ht : s.ticks[i]? = some t) (hp : t.phase = .publishing row) :
    Effect cfg s (.outcome i false) (s.setTick i (t.settle cfg row false))
  | die (ht : s.ticks[i]? = some t) (hd : s.dropped a = t.holds) :
    Effect cfg s a (s.setTick i .dead)
  | sent (ht : s.ticks[i]? = some t) (hp : t.phase = .ready) (hr : t.rest = [])
    (ht' : t' = { t with sent := [] } ∨
      t' = .dead ∧ s.dropped (.markSent i now outcome) = t.unaccepted) :
    Effect cfg s (.markSent i now outcome) ((s.mark t.sent .sent (some now)).setTick i t')
  | failed (ht : s.ticks[i]? = some t) (hp : t.phase = .ready) (hr : t.rest = [])
    (hs : t.sent = []) :
    Effect cfg s (.markFailed i outcome) ((s.mark t.failed .failed none).setTick i .dead)

theorem step_effect {cfg : Config} {s t : State} {a : Action} (h : step cfg s a = some t) :
    Effect cfg s a t := by
  cases a with
  | append id eventId tenantId payloadJson now =>
    simp only [step] at h
    split at h
    · contradiction
    · rename_i hfresh
      cases h
      refine .append ?_
      intro r hr he
      exact hfresh (List.any_eq_true.mpr ⟨r, hr, by simp [he]⟩)
  | claim now locked =>
    cases h
    exact .claim
  | hand i j =>
    simp only [step, Option.bind_eq_bind, Option.bind_eq_some_iff] at h
    obtain ⟨u, hu, row, hrow, h⟩ := h
    split at h
    · rename_i hp
      cases h
      exact .hand hu hrow hp
    · contradiction
  | outcome i ok =>
    simp only [step, Option.bind_eq_bind, Option.bind_eq_some_iff] at h
    obtain ⟨u, hu, h⟩ := h
    split at h
    · rename_i row hp
      cases ok with
      | true =>
        cases h
        exact .accept hu hp
      | false =>
        cases h
        exact .refuse hu hp
    · contradiction
  | markSent i now outcome =>
    simp only [step, Option.bind_eq_bind, Option.bind_eq_some_iff] at h
    obtain ⟨u, hu, h⟩ := h
    split at h
    · rename_i hp
      cases outcome with
      | committed =>
        cases h
        exact .sent hu hp.1 hp.2.1 (.inl rfl)
      | aborted =>
        cases h
        exact .die hu (by simp [State.dropped, hu])
      | unanswered =>
        cases h
        exact .sent hu hp.1 hp.2.1 (.inr ⟨rfl, by simp [State.dropped, hu]⟩)
    · contradiction
  | markFailed i outcome =>
    simp only [step, Option.bind_eq_bind, Option.bind_eq_some_iff] at h
    obtain ⟨u, hu, h⟩ := h
    split at h
    · rename_i hp
      cases outcome with
      | aborted =>
        cases h
        exact .die hu (by simp [State.dropped, hu])
      | committed | unanswered =>
        cases h
        exact .failed hu hp.1 hp.2.1 hp.2.2.1
    · contradiction
  | crash i =>
    simp only [step, Option.bind_eq_bind, Option.bind_eq_some_iff] at h
    obtain ⟨u, hu, h⟩ := h
    cases h
    exact .die hu (by simp [State.dropped, hu])

section
variable {cfg : Config} {t : Tick} {row : Claimed} {j : Nat}

/-- Handing a row over moves it within the tick. -/
theorem hand_unaccepted (hr : t.rest[j]? = some row) (hp : t.phase = .ready) :
    (t.hand j row).unaccepted.Perm t.unaccepted := by
  simp only [Tick.unaccepted, Tick.hand, Phase.row, hp, List.nil_append]
  exact (eraseIdx_perm hr).append_right _

theorem hand_holds (hr : t.rest[j]? = some row) (hp : t.phase = .ready) :
    (t.hand j row).holds.Perm t.holds :=
  (hand_unaccepted hr hp).append_right _

theorem accept_holds (hp : t.phase = .publishing row) :
    (t.settle cfg row true).holds.Perm t.holds := by
  simp only [Tick.holds, Tick.unaccepted, Tick.settle, Phase.row, hp, if_true, List.nil_append,
    List.append_assoc, List.singleton_append]
  rw [← List.append_assoc, ← List.append_assoc, ← List.append_assoc]
  exact List.perm_append_singleton _ _

theorem accept_unaccepted (hp : t.phase = .publishing row) :
    t.unaccepted = row :: (t.settle cfg row true).unaccepted := by
  simp [Tick.unaccepted, Tick.settle, Phase.row, hp]

/-- A row the publisher refused is given up or let go of. -/
theorem refuse_unaccepted (hp : t.phase = .publishing row) :
    (t.settle cfg row false).unaccepted.Subperm t.unaccepted := by
  simp only [Tick.settle, Bool.false_eq_true, if_false]
  split
  · apply List.Perm.subperm
    simp only [Tick.unaccepted, Phase.row, hp, List.nil_append, List.singleton_append]
    rw [← List.append_assoc]
    exact List.perm_append_singleton _ _
  · simp only [Tick.unaccepted, Phase.row, hp, List.nil_append, List.singleton_append]
    exact (List.sublist_cons_self _ _).subperm

theorem refuse_sent : (t.settle cfg row false).sent = t.sent := by
  simp only [Tick.settle, Bool.false_eq_true, if_false]
  split <;> rfl

/-- A row is given up only at its last attempt. -/
theorem refuse_failed (h : ∀ c ∈ t.failed, cfg.maxAttempts ≤ c.attempts) :
    ∀ c ∈ (t.settle cfg row false).failed, cfg.maxAttempts ≤ c.attempts := by
  intro c hc
  simp only [Tick.settle, Bool.false_eq_true, if_false] at hc
  split at hc
  · rename_i hlast
    rcases List.mem_append.mp hc with hc | hc
    · exact h c hc
    · rw [List.mem_singleton.mp hc]
      exact hlast
  · exact h c hc

theorem refuse_holds (hp : t.phase = .publishing row) :
    (t.settle cfg row false).holds.Subperm t.holds := by
  unfold Tick.holds
  rw [refuse_sent]
  exact (List.subperm_append_right _).mpr (refuse_unaccepted hp)

theorem clear_holds : ({ t with sent := [] } : Tick).holds.Subperm t.holds := by
  simp only [Tick.holds, Tick.unaccepted, List.append_nil]
  exact (List.sublist_append_left _ _).subperm

theorem dead_holds : Tick.dead.holds.Subperm t.holds := List.nil_subperm

end

/-- What the tick of a claim holds. -/
@[simp] theorem claimed_holds {picked : List OutboxEvent} :
    ({ rest := picked.map OutboxEvent.claimed } : Tick).holds =
      picked.map OutboxEvent.claimed := by
  simp [Tick.holds, Tick.unaccepted, Phase.row]

theorem claimed_ids {picked : List OutboxEvent} :
    ({ rest := picked.map OutboxEvent.claimed } : Tick).ids = picked.map OutboxEvent.id := by
  simp [Tick.ids, Function.comp_def, OutboxEvent.claimed]

theorem updateRows_id {ids : List String} {f : OutboxEvent → OutboxEvent}
    (hf : ∀ r, (f r).id = r.id) (rows : List OutboxEvent) :
    (updateRows ids f rows).map OutboxEvent.id = rows.map OutboxEvent.id := by
  unfold updateRows
  rw [List.map_map]
  apply List.map_congr_left
  intro r _
  simp only [Function.comp_apply]
  split
  · exact hf r
  · rfl

@[simp] theorem mark_ids {s : State} {rows : List Claimed} {v : Status} {sentAt : Option Int} :
    (s.mark rows v sentAt).rows.map OutboxEvent.id = s.rows.map OutboxEvent.id := by
  refine updateRows_id ?_ s.rows
  intro r
  rfl

@[simp] theorem claim_ids {s : State} {cfg : Config} {now : Int} {locked : List String} :
    (s.claim cfg now locked).rows.map OutboxEvent.id = s.rows.map OutboxEvent.id := by
  refine updateRows_id ?_ s.rows
  intro r
  rfl

theorem fresh_not_mem {rows : List OutboxEvent} {id : String} (h : ∀ r ∈ rows, r.id ≠ id) :
    id ∉ rows.map OutboxEvent.id := by
  intro hm
  obtain ⟨r, hr, he⟩ := List.mem_map.mp hm
  exact h r hr he

theorem append_nodup {rows : List OutboxEvent} {r : OutboxEvent}
    (hn : (rows.map OutboxEvent.id).Nodup) (h : r.id ∉ rows.map OutboxEvent.id) :
    ((rows ++ [r]).map OutboxEvent.id).Nodup := by
  rw [List.map_append, List.nodup_append]
  refine ⟨hn, List.nodup_singleton _, ?_⟩
  intro id hid id' hid' he
  rw [List.mem_singleton.mp hid'] at he
  exact h (he ▸ hid)

theorem mem_updateRows {ids : List String} {f : OutboxEvent → OutboxEvent}
    {rows : List OutboxEvent} {r' : OutboxEvent} (h : r' ∈ updateRows ids f rows) :
    ∃ r ∈ rows, r.id ∈ ids ∧ r' = f r ∨ r.id ∉ ids ∧ r' = r := by
  obtain ⟨r, hr, rfl⟩ := List.mem_map.mp h
  by_cases hid : r.id ∈ ids
  · exact ⟨r, hr, .inl ⟨hid, if_pos hid⟩⟩
  · exact ⟨r, hr, .inr ⟨hid, if_neg hid⟩⟩

/-- The claim picks pending rows. -/
theorem mem_picked {s : State} {cfg : Config} {now : Int} {locked : List String} {r : OutboxEvent}
    (h : r ∈ s.picked cfg now locked) : r ∈ s.rows ∧ r.status = .pending := by
  have hm := (List.mem_insertionSort _).mp (List.mem_of_mem_take h)
  obtain ⟨hr, ha⟩ := List.mem_filter.mp hm
  simp only [OutboxEvent.available, Bool.and_eq_true, decide_eq_true_eq] at ha
  exact ⟨hr, ha.1.1⟩

theorem picked_nodup {s : State} {cfg : Config} {now : Int} {locked : List String}
    (h : (s.rows.map OutboxEvent.id).Nodup) :
    ((s.picked cfg now locked).map OutboxEvent.id).Nodup := by
  apply nodup_map_of_subperm _ h
  have hsort := List.perm_insertionSort (fun a b : OutboxEvent => a.createdAt ≤ b.createdAt)
    (s.rows.filter (OutboxEvent.available now locked))
  exact (List.take_sublist _ _).subperm.trans (hsort.subperm.trans List.filter_sublist.subperm)

end WaOps.Outbox
