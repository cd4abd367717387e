import Mathlib.Data.List.Range
import WaOps.Api.Answers
import WaOps.Incidents.State

namespace WaOps.Api.Numbering
open Lib Lib.Runs Lib.Scoped Lib.Tables
open Incidents (Outcome)

/-- A creation is a transaction of two statements, the first of which locks the tenant's row of the
counter, or the place of a row that is not there yet, until the transaction ends. -/
inductive CreationPc where
  | begun
  /-- The counter's new value is the ticket's number. -/
  | bumped (number : Nat)
  | inserted (ticket : SupportTicket)
  | committed (ticket : SupportTicket)
  | aborted
  deriving DecidableEq, Repr

/-- A request that has passed its schema. -/
structure Creation where
  ctx : Caller
  input : CreateTicket
  pc : CreationPc := .begun

/-- What is committed, the tickets in the order of their commits, and the creations. -/
structure State where
  sequences : String → Option Nat := fun _ => none
  tickets : List SupportTicket := []
  creations : List Creation := []

inductive Action where
  | begin (ctx : Caller) (input : CreateTicket)
  | bump (i : Nat)
  | insert (i : Nat) (env : Env)
  | commit (i : Nat) (outcome : Outcome)
  /-- The statement in hand fails or the client goes away. -/
  | abort (i : Nat)

/-- The transaction has written the counter and has not ended. -/
def CreationPc.holds : CreationPc → Bool
  | .bumped _ | .inserted _ => true
  | _ => false

def CreationPc.running : CreationPc → Bool
  | .begun | .bumped _ | .inserted _ => true
  | _ => false

def State.setPc (s : State) (i : Nat) (pc : CreationPc) : State :=
  { s with creations := s.creations.modify i fun c => { c with pc } }

/-- A creation of the tenant has the lock on its counter. -/
def State.locked (s : State) (tenantId : String) : Bool :=
  s.creations.any fun c => c.ctx.tenantId = tenantId && c.pc.holds

def State.counter (s : State) (tenantId : String) : Nat :=
  (s.sequences tenantId).getD 0

/-- The unique indexes on the id and on tenant and number. -/
def conflicts (t u : SupportTicket) : Bool :=
  t.id = u.id || t.tenantId = u.tenantId && t.number = u.number

/-- Another transaction has inserted a row of the same key and has not ended. -/
def State.blocked (s : State) (ticket : SupportTicket) : Bool :=
  s.creations.any fun c =>
    match c.pc with
    | .inserted t => conflicts ticket t
    | _ => false

/-- The effect of a transaction that commits. -/
def State.apply (s : State) (ticket : SupportTicket) : State :=
  { s with
    sequences := fun t => if t = ticket.tenantId then some ticket.number else s.sequences t
    tickets := s.tickets ++ [ticket] }

def step (s : State) : Action → Option State
  | .begin ctx input => some { s with creations := s.creations ++ [{ ctx, input }] }
  | .bump i =>
    match s.creations[i]? with
    | some ⟨ctx, _, .begun⟩ =>
      -- INSERT .. ON CONFLICT DO UPDATE waits for the transaction that holds the row
      if s.locked ctx.tenantId then none
      else if s.counter ctx.tenantId ≥ 2147483647 then some (s.setPc i .aborted)
      else some (s.setPc i (.bumped (s.counter ctx.tenantId + 1)))
    | _ => none
  | .insert i env =>
    match s.creations[i]? with
    | some ⟨ctx, input, .bumped number⟩ =>
      match input.incidentId.mapM env.parseUuid with
      | none => some (s.setPc i .aborted)
      | some incidentId =>
        let ticket := newTicket env ctx input number incidentId
        if s.blocked ticket then none
        else if s.tickets.any (conflicts ticket) then some (s.setPc i .aborted)
        else some (s.setPc i (.inserted ticket))
    | _ => none
  | .commit i outcome =>
    match s.creations[i]? with
    | some ⟨_, _, .inserted ticket⟩ =>
      match outcome with
      | .aborted => some (s.setPc i .aborted)
      | _ => some ((s.apply ticket).setPc i (.committed ticket))
    | _ => none
  | .abort i =>
    match s.creations[i]? with
    | some c => if c.pc.running then some (s.setPc i .aborted) else none
    | none => none

/-- All a step can do. -/
inductive Effect (s : State) : Action → State → Prop
  | begin {ctx : Caller} {input : CreateTicket} :
    Effect s (.begin ctx input) { s with creations := s.creations ++ [{ ctx, input }] }
  | bump {i : Nat} {c : Creation} (hc : s.creations[i]? = some c) (hpc : c.pc = .begun)
    (hfree : s.locked c.ctx.tenantId = false) :
    Effect s (.bump i) (s.setPc i (.bumped (s.counter c.ctx.tenantId + 1)))
  | insert {i number : Nat} {env : Env} {c : Creation} {ticket : SupportTicket}
    (hc : s.creations[i]? = some c) (hpc : c.pc = .bumped number)
    (htenant : ticket.tenantId = c.ctx.tenantId) (hnumber : ticket.number = number) :
    Effect s (.insert i env) (s.setPc i (.inserted ticket))
  | commit {i : Nat} {outcome : Outcome} {c : Creation} {ticket : SupportTicket}
    (hc : s.creations[i]? = some c) (hpc : c.pc = .inserted ticket) :
    Effect s (.commit i outcome) ((s.apply ticket).setPc i (.committed ticket))
  | fail {a : Action} {i : Nat} {c : Creation} (hc : s.creations[i]? = some c)
    (hpc : c.pc.running = true) : Effect s a (s.setPc i .aborted)

theorem step_effect {s t : State} {a : Action} (h : step s a = some t) : Effect s a t := by
  cases a with
  | begin ctx input =>
    cases h
    exact .begin
  | bump i =>
    simp only [step] at h
    split at h
    · rename_i ctx input hc
      split at h
      · cases h
      · rename_i hfree
        split at h
        · cases h
          exact .fail hc rfl
        · cases h
          exact .bump hc rfl (by simpa using hfree)
    · cases h
  | insert i env =>
    simp only [step] at h
    split at h
    · rename_i ctx input number hc
      split at h
      · cases h
        exact .fail hc rfl
      · split at h
        · cases h
        · split at h
          · cases h
            exact .fail hc rfl
          · cases h
            exact .insert hc rfl rfl rfl
    · cases h
  | commit i outcome =>
    simp only [step] at h
    split at h
    · rename_i hc
      split at h
      · cases h
        exact .fail hc rfl
      · cases h
        exact .commit hc rfl
    · cases h
  | abort i =>
    simp only [step] at h
    split at h
    · rename_i c hc
      split at h
      · rename_i hrunning
        cases h
        exact .fail hc hrunning
      · cases h
    · cases h

section
variable {env : Env} {ctx : Caller} {body : Option Js.Json} {db db' : Store} {number : Nat}
  {ticket : SupportTicket} {α β : Type}

/-- The store's part in a creation. -/
def stored (db : Store) : State :=
  { sequences := fun tenantId =>
      ((db .supportSequences).rows.find? (fun r => r.tenantId = tenantId)).map (·.value)
    tickets := (db .supportTickets).rows }

/-- The values after the update of one tenant's row. -/
theorem value_counted (rows : List SupportSequence) (tenantId t : String) :
    ((rows.map fun q => if q.tenantId = tenantId then { q with value := q.value + 1 } else q).find?
        (fun q => q.tenantId = t)).map SupportSequence.value =
      (rows.find? (fun q => q.tenantId = t)).map fun q =>
        if t = tenantId then q.value + 1 else q.value := by
  induction rows with
  | nil => rfl
  | cons q rows ih =>
    have hkept : (if q.tenantId = tenantId then { q with value := q.value + 1 } else q).tenantId =
        q.tenantId := by split <;> rfl
    rw [List.map_cons, List.find?_cons, List.find?_cons, hkept]
    by_cases hq : q.tenantId = t
    · by_cases ht : t = tenantId
      · simp [hq, ht]
      · simp [hq, ht]
    · simp only [hq, decide_false]
      exact ih

theorem bumpSequence_stored (h : outcome (bumpSequence ctx) db = (.ok number, db')) :
    number = (stored db).counter ctx.tenantId + 1 ∧
    (stored db).counter ctx.tenantId < 2147483647 ∧
    stored db' = { stored db with
      sequences := fun t =>
        if t = ctx.tenantId then some number else (stored db).sequences t } := by
  obtain ⟨found, db₁, hfound, h⟩ := bind_ok h
  obtain ⟨hfound, rfl⟩ := findFirst_answers hfound
  cases found with
  | none =>
    obtain ⟨created, db₂, hcreate, h⟩ := bind_ok h
    obtain ⟨hnew, rfl, rfl⟩ := create_answers hcreate
    cases h
    have hcounter : (stored db₁).counter ctx.tenantId = 0 := by
      simp [State.counter, stored, hfound]
    refine ⟨by rw [hcounter], by rw [hcounter]; decide, ?_⟩
    simp only [stored, Function.update_self, Table.insert, List.find?_append]
    congr 1
    funext t
    by_cases ht : t = ctx.tenantId
    · simp [ht, hfound]
    · simp [ht, Ne.symm ht]
  | some r =>
    obtain ⟨_, db₂, hthrow, hrest⟩ := bind_ok h
    obtain ⟨hmax, rfl⟩ := throwIf_answers hthrow
    obtain ⟨bumped, db₃, hupdate, hanswer⟩ := bind_ok hrest
    obtain ⟨r', hr', rfl, rfl⟩ := update_answers hupdate
    cases hanswer
    have hsame : r' = r := Option.some.inj (hr'.symm.trans hfound)
    have hcounter : (stored db₂).counter ctx.tenantId = r.value := by
      simp [State.counter, stored, hfound]
    rw [hcounter, hsame]
    refine ⟨rfl, Nat.lt_of_not_le hmax, ?_⟩
    have hvalue := value_counted (db₂ .supportSequences).rows ctx.tenantId
    simp only [stored, Function.update_self]
    congr 1
    funext t
    refine (hvalue t).trans ?_
    by_cases ht : t = ctx.tenantId
    · simp [ht, hfound]
    · simp [ht]

theorem insert_stored {input : CreateTicket}
    (h : outcome (insertTicket env ctx input number) db = (.ok ticket, db')) :
    ∃ incidentId, input.incidentId.mapM env.parseUuid = some incidentId ∧
      ticket = newTicket env ctx input number incidentId ∧
      (stored db).tickets.any (conflicts ticket) = false ∧
      stored db' = { stored db with tickets := (stored db).tickets ++ [ticket] } := by
  obtain ⟨incidentId, hincident, rfl, hunique, hnew, rfl⟩ := insertTicket_answers h
  refine ⟨incidentId, hincident, rfl, ?_, rfl⟩
  rw [List.any_eq_false]
  intro u hu hconflict
  simp only [conflicts, Bool.or_eq_true, Bool.and_eq_true, decide_eq_true_eq] at hconflict
  rcases hconflict with hid | ⟨htenant, hnumber⟩
  · exact hnew (List.mem_map.mpr ⟨u, hu, hid.symm⟩)
  · exact hunique u hu htenant.symm hnumber.symm

theorem record_stored {action resourceType resourceId : String}
    {beforeData afterData : Option AuditData}
    (h : outcome (AuditService.record env ctx action resourceType resourceId beforeData afterData)
      db = (.ok (), db')) : stored db' = stored db := by
  obtain ⟨_, _, hcreate, hanswer⟩ := bind_ok h
  obtain ⟨_, _, rfl⟩ := create_answers hcreate
  cases hanswer
  rfl

/-- A request that is alone is the creation whose steps follow one another. -/
theorem create_alone (h : outcome (TicketsController.create env ctx body) db = (.ok ticket, db')) :
    ∃ input, CreateTicketSchema (orEmpty body) = .ok input ∧
      exec step (stored db) [.begin ctx input, .bump 0, .insert 0 env, .commit 0 .committed] =
        some { stored db' with creations := [⟨ctx, input, .committed ticket⟩] } := by
  obtain ⟨input, db₁, hparse, hrest⟩ := bind_ok h
  obtain ⟨created, db₂, hcreate, hrecord⟩ := bind_ok hrest
  obtain ⟨_, db₃, haudit, hanswer⟩ := bind_ok hrecord
  cases hanswer
  obtain ⟨number, db₄, hbump, hinsert⟩ := bind_ok (transaction_ok hcreate)
  obtain ⟨hnumber, hmax, hsequences⟩ := bumpSequence_stored hbump
  obtain ⟨incidentId, hincident, hticket, hfree, hinserted⟩ := insert_stored hinsert
  obtain ⟨hschema, rfl⟩ := parse_answers hparse
  refine ⟨input, hschema, ?_⟩
  have hbegin : step (stored db₁) (.begin ctx input) =
      some { stored db₁ with creations := [⟨ctx, input, .begun⟩] } := rfl
  have hbump : step { stored db₁ with creations := [⟨ctx, input, .begun⟩] } (.bump 0) =
      some { stored db₁ with creations := [⟨ctx, input, .bumped number⟩] } := by
    have hcounter : State.counter { stored db₁ with creations := [⟨ctx, input, .begun⟩] }
        ctx.tenantId = (stored db₁).counter ctx.tenantId := rfl
    simp [step, State.locked, CreationPc.holds, State.setPc, hcounter, hmax, hnumber]
  have hinsert : step { stored db₁ with creations := [⟨ctx, input, .bumped number⟩] }
      (.insert 0 env) =
      some { stored db₁ with creations := [⟨ctx, input, .inserted ticket⟩] } := by
    rw [hsequences] at hfree
    subst hticket
    simp [step, hincident, State.blocked, hfree, State.setPc]
  have hcommit : step { stored db₁ with creations := [⟨ctx, input, .inserted ticket⟩] }
      (.commit 0 .committed) =
      some { stored db' with creations := [⟨ctx, input, .committed ticket⟩] } := by
    rw [record_stored haudit, hinserted, hsequences]
    subst hticket
    simp [step, State.setPc, State.apply, newTicket]
  rw [exec_of_step hbegin, exec_of_step hbump, exec_of_step hinsert, exec_of_step hcommit]
  rfl

end

/-- The number the creation has got. -/
def CreationPc.number? : CreationPc → Option Nat
  | .bumped number => some number
  | .inserted t | .committed t => some t.number
  | _ => none

/-- The numbers of the tenant's tickets, in the order of their commits. -/
def numbersOf (tickets : List SupportTicket) (tenantId : String) : List Nat :=
  (tickets.filter (·.tenantId = tenantId)).map SupportTicket.number

/-- A tenant's counter has one holder at most. -/
def Exclusive (creations : List Creation) : Prop :=
  ∀ (i j : Nat) (c d : Creation), creations[i]? = some c → creations[j]? = some d →
    c.pc.holds → d.pc.holds → c.ctx.tenantId = d.ctx.tenantId → i = j

/-- What a creation has got fits what is committed. -/
def Fits (s : State) (c : Creation) : Prop :=
  match c.pc with
  | .begun | .aborted => True
  | .bumped number => number = s.counter c.ctx.tenantId + 1
  | .inserted t => t.tenantId = c.ctx.tenantId ∧ t.number = s.counter c.ctx.tenantId + 1
  | .committed t => t.tenantId = c.ctx.tenantId ∧ t ∈ s.tickets

structure Numbered (s : State) : Prop where
  numbers : ∀ tenantId, numbersOf s.tickets tenantId = List.range' 1 (s.counter tenantId)
  exclusive : Exclusive s.creations
  fits : ∀ c ∈ s.creations, Fits s c

section
variable {s t : State} {i j : Nat} {pc : CreationPc} {c d : Creation} {ticket : SupportTicket}

@[simp] theorem setPc_tickets : (s.setPc i pc).tickets = s.tickets := rfl

@[simp] theorem setPc_counter {tenantId : String} :
    (s.setPc i pc).counter tenantId = s.counter tenantId := rfl

@[simp] theorem apply_tickets : (s.apply ticket).tickets = s.tickets ++ [ticket] := rfl

theorem apply_counter {tenantId : String} : (s.apply ticket).counter tenantId =
    if tenantId = ticket.tenantId then ticket.number else s.counter tenantId := by
  simp only [State.counter, State.apply]
  split <;> rfl

/-- A creation after the update is the updated one or another that was there. -/
theorem setPc_get (hc : s.creations[i]? = some c) (h : (s.setPc i pc).creations[j]? = some d) :
    j = i ∧ d = { c with pc } ∨ j ≠ i ∧ s.creations[j]? = some d := by
  simp only [State.setPc, List.getElem?_modify] at h
  by_cases hij : i = j
  · subst hij
    simp only [hc, ite_true, Option.map_eq_map, Option.map_some, Option.some.injEq] at h
    exact .inl ⟨rfl, h.symm⟩
  · simp only [hij, ite_false, Option.map_eq_map, Option.map_id_fun', id_eq] at h
    exact .inr ⟨fun h => hij h.symm, h⟩

theorem append_get {x : Creation} (h : (s.creations ++ [x])[j]? = some d) :
    s.creations.length ≤ j ∧ d = x ∨ s.creations[j]? = some d := by
  rw [List.getElem?_append] at h
  split at h
  · exact .inr h
  · rename_i hlen
    exact .inl ⟨Nat.le_of_not_lt hlen, (List.mem_singleton.mp (List.mem_of_getElem? h))⟩

theorem not_locked (h : s.locked c.ctx.tenantId = false) (hd : d ∈ s.creations)
    (htenant : d.ctx.tenantId = c.ctx.tenantId) : d.pc.holds = false := by
  have hnone := (List.any_eq_false.mp h) d hd
  simpa [htenant] using hnone

/-- Only who holds the lock, or finds it free, goes on to hold it. -/
theorem Exclusive.setPc (h : Exclusive s.creations) (hc : s.creations[i]? = some c)
    (hpc : pc.holds → c.pc.holds ∨ s.locked c.ctx.tenantId = false) :
    Exclusive (s.setPc i pc).creations := by
  have hother : ∀ j d, s.creations[j]? = some d → j ≠ i → pc.holds → d.pc.holds →
      d.ctx.tenantId ≠ c.ctx.tenantId := by
    intro j d hd hne hheld hdheld heq
    rcases hpc hheld with hcheld | hfree
    · exact hne (h j i d c hd hc hdheld hcheld heq)
    · have := not_locked hfree (List.mem_of_getElem? hd) heq
      simp [this] at hdheld
  intro j k d e hd he hdheld heheld heq
  rcases setPc_get hc hd with ⟨rfl, rfl⟩ | ⟨hj, hdold⟩
  · rcases setPc_get hc he with ⟨rfl, rfl⟩ | ⟨hk, he⟩
    · rfl
    · exact absurd heq.symm (hother k e he hk hdheld heheld)
  · rcases setPc_get hc he with ⟨rfl, rfl⟩ | ⟨hk, he⟩
    · exact absurd heq (hother j d hdold hj heheld hdheld)
    · exact h j k d e hdold he hdheld heheld heq

/-- A step of one creation that commits nothing. -/
theorem Numbered.setPc (h : Numbered s) (hc : s.creations[i]? = some c)
    (hpc : pc.holds → c.pc.holds ∨ s.locked c.ctx.tenantId = false)
    (hfits : Fits s { c with pc }) : Numbered (s.setPc i pc) where
  numbers := h.numbers
  exclusive := h.exclusive.setPc hc hpc
  fits := by
    intro d hd
    obtain ⟨j, hd⟩ := List.mem_iff_getElem?.mp hd
    rcases setPc_get hc hd with ⟨-, rfl⟩ | ⟨-, hd⟩
    · exact hfits
    · exact h.fits d (List.mem_of_getElem? hd)

theorem numbersOf_append {tickets : List SupportTicket} {tenantId : String} :
    numbersOf (tickets ++ [ticket]) tenantId = numbersOf tickets tenantId ++
      if tenantId = ticket.tenantId then [ticket.number] else [] := by
  simp only [numbersOf, List.filter_append, List.map_append]
  by_cases h : ticket.tenantId = tenantId
  · simp [h]
  · simp [h, Ne.symm h]

/-- Who commits is the tenant's only holder, so that its counter is still the one it read. -/
theorem Numbered.commit (h : Numbered s) (hc : s.creations[i]? = some c)
    (hpc : c.pc = .inserted ticket) :
    Numbered ((s.apply ticket).setPc i (.committed ticket)) := by
  have hfits := h.fits c (List.mem_of_getElem? hc)
  simp only [Fits, hpc] at hfits
  obtain ⟨htenant, hnumber⟩ := hfits
  refine ⟨?_, ?_, ?_⟩
  · intro tenantId
    rw [setPc_tickets, setPc_counter, apply_tickets, apply_counter, numbersOf_append, h.numbers]
    split
    · rename_i heq
      rw [heq, htenant, hnumber, List.range'_1_concat, Nat.add_comm]
    · exact List.append_nil _
  · refine Exclusive.setPc (s := s.apply ticket) h.exclusive hc ?_
    intro hheld
    simp [CreationPc.holds] at hheld
  · intro d hd
    obtain ⟨j, hd⟩ := List.mem_iff_getElem?.mp hd
    rcases setPc_get (s := s.apply ticket) hc hd with ⟨-, rfl⟩ | ⟨hne, hd⟩
    · exact ⟨htenant, List.mem_append_right _ List.mem_cons_self⟩
    · have hold := h.fits d (List.mem_of_getElem? hd)
      have hquiet : d.pc.holds → d.ctx.tenantId ≠ ticket.tenantId := by
        intro hheld heq
        exact hne (h.exclusive j i d c hd hc hheld (by simp [hpc, CreationPc.holds])
          (heq.trans htenant))
      cases hd : d.pc with
      | begun => simp [Fits, hd]
      | aborted => simp [Fits, hd]
      | bumped number =>
        simp only [Fits, hd] at hold ⊢
        rw [setPc_counter, apply_counter, if_neg (hquiet (by simp [hd, CreationPc.holds]))]
        exact hold
      | inserted u =>
        simp only [Fits, hd] at hold ⊢
        rw [setPc_counter, apply_counter, if_neg (hquiet (by simp [hd, CreationPc.holds]))]
        exact hold
      | committed u =>
        simp only [Fits, hd] at hold ⊢
        exact ⟨hold.1, List.mem_append_left _ hold.2⟩

theorem step_numbered (s : State) (a : Action) (t : State) (h : Numbered s)
    (hs : step s a = some t) : Numbered t := by
  cases step_effect hs with
  | @begin ctx input =>
    refine ⟨h.numbers, ?_, ?_⟩
    · intro j k d e hd he hdheld heheld heq
      rcases append_get hd with ⟨-, rfl⟩ | hd
      · simp [CreationPc.holds] at hdheld
      · rcases append_get he with ⟨-, rfl⟩ | he
        · simp [CreationPc.holds] at heheld
        · exact h.exclusive j k d e hd he hdheld heheld heq
    · intro d hd
      rcases List.mem_append.mp hd with hd | hd
      · exact h.fits d hd
      · rw [List.mem_singleton.mp hd]
        trivial
  | bump hc _ hfree => exact h.setPc hc (fun _ => .inr hfree) rfl
  | insert hc hpc htenant hnumber =>
    have hfits := h.fits _ (List.mem_of_getElem? hc)
    simp only [Fits, hpc] at hfits
    exact h.setPc hc (fun _ => .inl (by simp [hpc, CreationPc.holds]))
      ⟨htenant, hnumber.trans hfits⟩
  | commit hc hpc => exact h.commit hc hpc
  | fail hc _ => exact h.setPc hc (fun hheld => by simp [CreationPc.holds] at hheld) trivial

theorem numbered_of_run {as : List Action} (h : exec step {} as = some s) : Numbered s := by
  refine exec_inv step_numbered ⟨?_, ?_, ?_⟩ h
  · intro tenantId
    rfl
  · intro i j c d hc
    simp at hc
  · intro c hc
    cases hc

/-- The tickets since then, among them those of the creations begun since. -/
def Since (before s : State) : Prop :=
  ∃ rest, s.tickets = before.tickets ++ rest ∧ ∀ (i : Nat) (c : Creation) (u : SupportTicket),
    before.creations.length ≤ i → s.creations[i]? = some c → c.pc = .committed u → u ∈ rest

theorem Since.rfl : Since s s := by
  refine ⟨[], (List.append_nil _).symm, ?_⟩
  intro i c u hlen hc
  rw [List.getElem?_eq_none hlen] at hc
  cases hc

theorem Since.setPc {before : State} (h : Since before s) (hc : s.creations[i]? = some c)
    (hpc : ∀ u, pc ≠ .committed u) : Since before (s.setPc i pc) := by
  obtain ⟨rest, htickets, hlater⟩ := h
  refine ⟨rest, htickets, ?_⟩
  intro j d u hlen hd hu
  rcases setPc_get hc hd with ⟨-, rfl⟩ | ⟨-, hd⟩
  · exact absurd hu (hpc u)
  · exact hlater j d u hlen hd hu

theorem step_since {before : State} (s : State) (a : Action) (t : State) (h : Since before s)
    (hs : step s a = some t) : Since before t := by
  cases step_effect hs with
  | begin =>
    obtain ⟨rest, htickets, hlater⟩ := h
    refine ⟨rest, htickets, ?_⟩
    intro j d u hlen hd hu
    rcases append_get hd with ⟨-, rfl⟩ | hd
    · cases hu
    · exact hlater j d u hlen hd hu
  | bump hc _ _ => exact h.setPc hc (fun u hu => by cases hu)
  | insert hc _ _ _ => exact h.setPc hc (fun u hu => by cases hu)
  | fail hc _ => exact h.setPc hc (fun u hu => by cases hu)
  | @commit i _ c ticket hc hpc =>
    obtain ⟨rest, htickets, hlater⟩ := h
    refine ⟨rest ++ [ticket], by simp [htickets], ?_⟩
    intro j d u hlen hd hu
    rcases setPc_get (s := s.apply ticket) hc hd with ⟨-, rfl⟩ | ⟨-, hd⟩
    · cases hu
      exact List.mem_append_right _ List.mem_cons_self
    · exact List.mem_append_left _ (hlater j d u hlen hd hu)

theorem mem_numbersOf {tickets : List SupportTicket} (h : ticket ∈ tickets) :
    ticket.number ∈ numbersOf tickets ticket.tenantId :=
  List.mem_map_of_mem (List.mem_filter.mpr ⟨h, by simp⟩)

/-- The numbers of a tenant ascend in the order of the commits. -/
theorem Numbered.ascends (h : Numbered s) (tenantId : String) :
    (numbersOf s.tickets tenantId).Pairwise (· < ·) := by
  rw [h.numbers]
  exact List.pairwise_lt_range'

/-- The number of a ticket is not above the tenant's counter. -/
theorem Numbered.number_le (h : Numbered s) (ht : ticket ∈ s.tickets) :
    ticket.number ≤ s.counter ticket.tenantId := by
  have hmem := mem_numbersOf ht
  rw [h.numbers, List.mem_range'_1] at hmem
  omega

theorem later_number {before : State} (h : Numbered s) (hsince : Since before s)
    (hlen : before.creations.length ≤ i) (hc : s.creations[i]? = some c) {number : Nat}
    (hnumber : c.pc.number? = some number) {u : SupportTicket} (hu : u ∈ before.tickets)
    (htenant : u.tenantId = c.ctx.tenantId) : u.number < number := by
  obtain ⟨rest, htickets, hlater⟩ := hsince
  have hmem : u ∈ s.tickets := htickets ▸ List.mem_append_left _ hu
  have hle := h.number_le hmem
  have hfits := h.fits c (List.mem_of_getElem? hc)
  rw [htenant] at hle
  cases hpc : c.pc with
  | begun => simp [hpc, CreationPc.number?] at hnumber
  | aborted => simp [hpc, CreationPc.number?] at hnumber
  | bumped n =>
    simp only [Fits, hpc, CreationPc.number?, Option.some.injEq] at hfits hnumber
    omega
  | inserted v =>
    simp only [Fits, hpc, CreationPc.number?, Option.some.injEq] at hfits hnumber
    omega
  | committed v =>
    simp only [Fits, hpc, CreationPc.number?, Option.some.injEq] at hfits hnumber
    have hascends := h.ascends c.ctx.tenantId
    rw [htickets, numbersOf, List.filter_append, List.map_append, List.pairwise_append] at hascends
    rw [← hnumber]
    refine hascends.2.2 u.number ?_ v.number ?_
    · exact htenant ▸ mem_numbersOf hu
    · exact hfits.1 ▸ mem_numbersOf (hlater i c v hlen hc hpc)

end

/-- In every interleaving the numbers of a tenant's committed tickets are 1, 2, .. in the order
of the commits, and a creation begun after a commit of its tenant gets a larger number. -/
theorem numbers_gapless {as bs : List Action} {s t : State} (hs : exec step {} as = some s)
    (ht : exec step s bs = some t) :
    (∀ tenantId, numbersOf s.tickets tenantId =
      List.range' 1 (numbersOf s.tickets tenantId).length) ∧
    ∀ (i j number : Nat) (c d : Creation) (u : SupportTicket), s.creations[j]? = some d →
      d.pc = .committed u → s.creations.length ≤ i → t.creations[i]? = some c →
      c.ctx.tenantId = d.ctx.tenantId → c.pc.number? = some number → u.number < number := by
  have hnumbered := numbered_of_run hs
  refine ⟨?_, ?_⟩
  · intro tenantId
    rw [hnumbered.numbers, List.length_range']
  · intro i j number c d u hd hu hlen hc htenant hnumber
    have hfits := hnumbered.fits d (List.mem_of_getElem? hd)
    simp only [Fits, hu] at hfits
    exact later_number (exec_inv step_numbered hnumbered ht) (exec_inv step_since .rfl ht) hlen hc
      hnumber hfits.2 (hfits.1.trans htenant.symm)

def clerk : Caller :=
  { userId := "user", tenantId := "t", organizationScope := none, sub := none, requestId := none }

def clerkEnv (id : String) : Env :=
  { now := 1000
    newId := fun _ => id
    randomHex := "00"
    sha256 := fun text => text
    parseUuid := some
    ofText := fun _ => .nan
    rollupAvailable := true }

def fullDisk : CreateTicket :=
  { title := "Disk", description := "Full", priority := none, labels := none, incidentId := none }

/-- Two creations overlap, and the one that has got the first number aborts. -/
def overlapping : List Action :=
  [.begin clerk fullDisk, .begin clerk fullDisk, .bump 0, .insert 0 (clerkEnv "1"), .abort 0,
    .bump 1, .insert 1 (clerkEnv "2"), .commit 1 .committed]

def afterwards : List Action :=
  [.begin clerk fullDisk, .bump 2, .insert 2 (clerkEnv "3"), .commit 2 .committed]

def overlapped : State := (exec step {} overlapping).getD {}

def later : State := (exec step overlapped afterwards).getD {}

/-- The aborted creation's number is the other's, and the next one is the later creation's. -/
theorem aborted_number_given_again :
    numbersOf overlapped.tickets "t" = List.range' 1 1 ∧
      (newTicket (clerkEnv "2") clerk fullDisk 1 none).number <
        (newTicket (clerkEnv "3") clerk fullDisk 2 none).number := by
  obtain ⟨hnumbers, hlater⟩ := @numbers_gapless overlapping afterwards overlapped later
    rfl rfl
  exact ⟨hnumbers "t", hlater 2 1 2 _ _ _ rfl rfl (by decide) rfl rfl rfl⟩

end WaOps.Api.Numbering
