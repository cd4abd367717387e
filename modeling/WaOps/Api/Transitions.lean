import WaOps.Api.Reads
import WaOps.Lib.Runs

namespace WaOps.Api
open Lib Lib.Scoped Lib.Tables Lib.Runs Lib.Programs
open Incidents (Outcome)

section
variable (env : Env) (ctx : Caller)

/-- The handler up to its transaction. -/
def TicketsController.checkTransition (id : String) (body : Option Js.Json) :
    Handler (SupportTicket × Transition) := do
  let input ← parse (TransitionSchema (orEmpty body))
  let ticket ← findOrNotFound env .supportTickets "Ticket" id (fun id r =>
    r.id = id ∧ r.tenantId = ctx.tenantId)
  throwIf (input.status ∉ transitions ticket.status) (.api (.conflict
    ("illegal transition " ++ ticket.status.text ++ " → " ++ input.status.text)))
  return (ticket, input)

def TicketsController.commitTransition (ticket : SupportTicket) (input : Transition) :
    Handler SupportTicket :=
  transaction do
    let u ← Prisma.update .supportTickets ticket.id (SupportTicket.transitioned env input.status)
    let _ ← Prisma.create .supportTicketComments
      (newComment env ctx ticket.id (transitionNote input))
    return u

/-- The handler is its check, its transaction and the audit record. -/
theorem transition_parts (id : String) (body : Option Js.Json) :
    TicketsController.transition env ctx id body = (do
      let (ticket, input) ← TicketsController.checkTransition env ctx id body
      let updated ← TicketsController.commitTransition env ctx ticket input
      AuditService.record env ctx "ticket.transition" "support_ticket" ticket.id
        (ticketStatusData ticket.status) (ticketStatusData input.status)
      return updated) := by
  simp only [TicketsController.transition, TicketsController.checkTransition, bind_assoc,
    pure_bind]
  rfl

end

inductive TicketRequest where
  | create (body : Option Js.Json)
  | patch (id : String) (body : Option Js.Json)
  | comment (id : String) (body : Option Js.Json)
  | assign (id : String) (body : Option Js.Json)

def TicketRequest.handle (env : Env) (ctx : Caller) : TicketRequest → Handler Unit
  | .create body => do
    let _ ← TicketsController.create env ctx body
  | .patch id body => do
    let _ ← TicketsController.patch env ctx id body
  | .comment id body => do
    let _ ← TicketsController.comment env ctx id body
  | .assign id body => do
    let _ ← TicketsController.assign env ctx id body

/-- A transition that has passed its check. -/
structure PendingTransition where
  ctx : Caller
  ticket : SupportTicket
  input : Transition

/-- Each transition reads its ticket and checks it in one step and commits in another. -/
structure TicketDesk where
  store : Store := fun _ => { rows := [], unique := List.nodup_nil }
  pending : List (Option PendingTransition) := []

inductive DeskAction where
  | request (env : Env) (ctx : Caller) (r : TicketRequest)
  | check (env : Env) (ctx : Caller) (id : String) (body : Option Js.Json)
  | commit (i : Nat) (env : Env) (outcome : Outcome)

def deskStep (s : TicketDesk) : DeskAction → Option TicketDesk
  | .request env ctx r => some { s with store := (outcome (r.handle env ctx) s.store).2 }
  | .check env ctx id body =>
    match outcome (TicketsController.checkTransition env ctx id body) s.store with
    | (.ok (ticket, input), store) =>
      some { store, pending := s.pending ++ [some { ctx, ticket, input }] }
    | (.error _, store) => some { s with store }
  | .commit i env result =>
    match s.pending[i]? with
    | some (some p) =>
      let pending := s.pending.set i none
      match result with
      | .aborted => some { s with pending }
      | _ => some { pending, store :=
          (outcome (TicketsController.commitTransition env p.ctx p.ticket p.input) s.store).2 }
    | _ => none

structure SupportTicket.Stamped (t : SupportTicket) : Prop where
  working : t.status = .open ∨ t.status = .inProgress → t.resolvedAt = none
  resolved : t.status = .resolved → t.resolvedAt ≠ none

def TicketsStamped (s : TicketDesk) : Prop :=
  Holds (S := schema) .supportTickets SupportTicket.Stamped s.store

/-- A committed transition goes from the status just before to one that TRANSITIONS allows. -/
def LegalTransition (s : TicketDesk) : DeskAction → Prop
  | .commit i env result => result ≠ .aborted → ∀ p, s.pending[i]? = some (some p) →
      ∀ u, (outcome (TicketsController.commitTransition env p.ctx p.ticket p.input) s.store).1 =
        .ok u → ∀ t ∈ (s.store .supportTickets).rows, t.id = p.ticket.id →
          u.status ∈ transitions t.status
  | _ => True

/-- Other requests have made the transition void: the ticket has the status already, was closed,
or was resolved where it should be in progress. -/
def Overtaken (status target : TicketStatus) : Prop :=
  status = target ∨ status = .closed ∧ target ≠ .open ∨
    status = .resolved ∧ target = .inProgress

/-- No transition that commits has been overtaken since its check. The one insert of the
transaction can fail, and then nothing is committed. -/
def NotOvertaken (s : TicketDesk) : DeskAction → Prop
  | .commit i env result => result ≠ .aborted → ∀ p, s.pending[i]? = some (some p) →
      env.newId .supportTicketComments ∉
        (s.store .supportTicketComments).rows.map SupportTicketComment.id →
      ∀ t ∈ (s.store .supportTickets).rows, t.id = p.ticket.id →
        ¬ Overtaken t.status p.input.status
  | _ => True

theorem not_overtaken_iff {status target : TicketStatus} :
    target ∈ transitions status ↔ ¬ Overtaken status target := by
  unfold Overtaken
  cases status <;> cases target <;> decide

section
variable {α : Type} {env : Env} {ctx : Caller} {id : String} {body : Option Js.Json}

abbrev KeepsTickets (P : SupportTicket → Prop) (m : Handler α) : Prop :=
  Keeps (Holds (S := schema) .supportTickets P) m

/-- What is true of a new ticket and stays true while its status and its times stay. -/
structure Settled (env : Env) (P : SupportTicket → Prop) : Prop where
  new : ∀ t, t.id = env.newId .supportTickets → t.status = .open → t.resolvedAt = none → P t
  same : ∀ t u, P t → u.id = t.id → u.status = t.status → u.resolvedAt = t.resolvedAt → P u

variable {P : SupportTicket → Prop}

theorem record_keeps {action resourceType resourceId : String}
    {beforeData afterData : Option AuditData} {a : α} :
    KeepsTickets P (do
      AuditService.record env ctx action resourceType resourceId beforeData afterData
      return a) :=
  Keeps.bind (Keeps.bind (create_keeps_other (by decide)) (fun _ => Keeps.pure))
    (fun _ => Keeps.pure)

theorem bumpSequence_keeps : KeepsTickets P (bumpSequence ctx) := by
  unfold bumpSequence
  refine Keeps.bind Keeps.query ?_
  intro found
  cases found with
  | some r =>
    refine Keeps.bind throwIf_reads.keeps ?_
    intro _
    refine Keeps.bind (update_keeps_other (by decide)) ?_
    intro bumped
    exact Keeps.pure
  | none =>
    refine Keeps.bind (create_keeps_other (by decide)) ?_
    intro created
    exact Keeps.pure

theorem createTicket_keeps (h : Settled env P) :
    KeepsTickets P (TicketsController.create env ctx body) := by
  unfold TicketsController.create
  refine Keeps.bind parse_reads.keeps ?_
  intro input
  refine Keeps.bind (Keeps.transaction ?_) ?_
  · refine Keeps.bind bumpSequence_keeps ?_
    intro number
    refine Keeps.bind optionUuid_reads.keeps ?_
    intro incidentId
    refine Keeps.bind Keeps.query ?_
    intro same
    refine Keeps.bind throwIf_reads.keeps ?_
    intro _
    apply create_keeps
    exact h.new _ rfl rfl rfl
  · intro created
    exact record_keeps

theorem patchTicket_keeps (h : Settled env P) :
    KeepsTickets P (TicketsController.patch env ctx id body) := by
  unfold TicketsController.patch
  refine Keeps.bind parse_reads.keeps ?_
  intro input
  refine Keeps.bind findOrNotFound_reads.keeps ?_
  intro ticket
  refine Keeps.bind (update_keeps (fun t ht => h.same t _ ht rfl rfl rfl)) ?_
  intro updated
  exact record_keeps

theorem commentTicket_keeps : KeepsTickets P (TicketsController.comment env ctx id body) := by
  unfold TicketsController.comment
  refine Keeps.bind parse_reads.keeps ?_
  intro text
  refine Keeps.bind findOrNotFound_reads.keeps ?_
  intro ticket
  refine Keeps.bind (create_keeps_other (by decide)) ?_
  intro created
  exact record_keeps

theorem assignTicket_keeps (h : Settled env P) :
    KeepsTickets P (TicketsController.assign env ctx id body) := by
  unfold TicketsController.assign
  refine Keeps.bind parse_reads.keeps ?_
  intro assigneeId
  refine Keeps.bind findOrNotFound_reads.keeps ?_
  intro ticket
  refine Keeps.bind assignee_reads.keeps ?_
  intro checked
  refine Keeps.bind (update_keeps (fun t ht => h.same t _ ht rfl rfl rfl)) ?_
  intro updated
  exact record_keeps

/-- Requests other than a transition keep what a ticket's status and times decide. -/
theorem ticketRequest_keeps (h : Settled env P) (r : TicketRequest) :
    KeepsTickets P (r.handle env ctx) := by
  cases r with
  | create body => exact Keeps.bind (createTicket_keeps h) (fun _ => Keeps.pure)
  | patch id body => exact Keeps.bind (patchTicket_keeps h) (fun _ => Keeps.pure)
  | comment id body => exact Keeps.bind commentTicket_keeps (fun _ => Keeps.pure)
  | assign id body => exact Keeps.bind (assignTicket_keeps h) (fun _ => Keeps.pure)

theorem stamped_settled (env : Env) : Settled env SupportTicket.Stamped where
  new t _ hstatus hnone := ⟨fun _ => hnone, by rw [hstatus]; nofun⟩
  same t u h _ hstatus hresolved := by
    constructor
    · rw [hstatus, hresolved]
      exact h.working
    · rw [hstatus, hresolved]
      exact h.resolved

theorem checkTransition_reads : Reads (TicketsController.checkTransition env ctx id body) := by
  refine Reads.bind parse_reads fun input => Reads.bind findOrNotFound_reads fun ticket => ?_
  exact Reads.bind throwIf_reads fun _ => pure_reads

variable {s : Store}

/-- What a transition has read that passes its check. -/
theorem checkTransition_answers {ticket : SupportTicket} {input : Transition} {s' : Store}
    (h : outcome (TicketsController.checkTransition env ctx id body) s =
      (.ok (ticket, input), s')) :
    s' = s ∧ ticket ∈ (s .supportTickets).rows ∧ input.status ∈ transitions ticket.status := by
  obtain ⟨input', s₁, hparse, hfind⟩ := bind_ok h
  obtain ⟨-, rfl⟩ := parse_answers hparse
  obtain ⟨ticket', s₂, hfind, hcheck⟩ := bind_ok hfind
  obtain ⟨rfl, hrow, -⟩ := findOrNotFound_answers hfind
  obtain ⟨_, s₃, hthrow, hanswer⟩ := bind_ok hcheck
  obtain ⟨hlegal, rfl⟩ := throwIf_answers hthrow
  cases hanswer
  exact ⟨rfl, hrow, not_not.mp hlegal⟩

/-- The rows of the tickets after a transition. -/
def movedRows (env : Env) (id : String) (status : TicketStatus) (rows : List SupportTicket) :
    List SupportTicket :=
  rows.map (fun t => if t.id = id then SupportTicket.transitioned env status t else t)

theorem moveTicket_found (env : Env) (status : TicketStatus) {id : String} {t : SupportTicket}
    (ht : t ∈ (s .supportTickets).rows) (hid : t.id = id) :
    ∃ s' : Store, outcome (Prisma.update .supportTickets id (SupportTicket.transitioned env status)) s =
        (.ok (SupportTicket.transitioned env status t), s') ∧
      (s' .supportTickets).rows = movedRows env id status (s .supportTickets).rows ∧
      s' .supportTicketComments = s .supportTicketComments :=
  ⟨_, update_found ht hid, rfl, rfl⟩

theorem moveTicket_missing {id : String} {status : TicketStatus}
    (h : ∀ t ∈ (s .supportTickets).rows, t.id ≠ id) :
    outcome (Prisma.update .supportTickets id (SupportTicket.transitioned env status)) s =
      (.error .internal, s) :=
  update_missing h

theorem addComment_new {c : SupportTicketComment}
    (h : c.id ∉ (s .supportTicketComments).rows.map SupportTicketComment.id) :
    ∃ s' : Store, outcome (Prisma.create .supportTicketComments c) s = (.ok c, s') ∧
      s' .supportTickets = s .supportTickets :=
  ⟨_, create_new h, rfl⟩

theorem addComment_taken {c : SupportTicketComment}
    (h : c.id ∈ (s .supportTicketComments).rows.map SupportTicketComment.id) :
    outcome (Prisma.create .supportTicketComments c) s = (.error .internal, s) :=
  create_taken h

/-- A transition moves its ticket, or nothing where the ticket is gone or the comment's id is
taken. -/
theorem commit_cases (env : Env) (ctx : Caller) (ticket : SupportTicket) (input : Transition)
    (s : Store) :
    (∃ t ∈ (s .supportTickets).rows, t.id = ticket.id ∧
      env.newId .supportTicketComments ∉
        (s .supportTicketComments).rows.map SupportTicketComment.id ∧
      (outcome (TicketsController.commitTransition env ctx ticket input) s).1 =
        .ok (SupportTicket.transitioned env input.status t) ∧
      ((outcome (TicketsController.commitTransition env ctx ticket input) s).2
        .supportTickets).rows = movedRows env ticket.id input.status (s .supportTickets).rows) ∨
    outcome (TicketsController.commitTransition env ctx ticket input) s = (.error .internal, s) ∧
      ((∀ t ∈ (s .supportTickets).rows, t.id ≠ ticket.id) ∨
        env.newId .supportTicketComments ∈
          (s .supportTicketComments).rows.map SupportTicketComment.id) := by
  unfold TicketsController.commitTransition
  rw [outcome_transaction, outcome_bind]
  by_cases hex : ∃ t ∈ (s .supportTickets).rows, t.id = ticket.id
  · obtain ⟨t, ht, hid⟩ := hex
    obtain ⟨s', hupdate, hrows, hcomments⟩ := moveTicket_found env input.status ht hid
    rw [hupdate]
    dsimp only
    rw [outcome_bind]
    by_cases hnew : env.newId .supportTicketComments ∈
        (s .supportTicketComments).rows.map SupportTicketComment.id
    · right
      refine ⟨?_, .inr hnew⟩
      rw [addComment_taken (hcomments ▸ hnew)]
    · left
      obtain ⟨s'', hcreate, htickets⟩ := addComment_new
        (c := newComment env ctx ticket.id (transitionNote input)) (hcomments ▸ hnew)
      rw [hcreate]
      refine ⟨t, ht, hid, hnew, rfl, ?_⟩
      rw [← hrows, ← htickets]
      rfl
  · have hnone : ∀ t ∈ (s .supportTickets).rows, t.id ≠ ticket.id :=
      fun t ht hid => hex ⟨t, ht, hid⟩
    right
    rw [moveTicket_missing hnone]
    exact ⟨rfl, .inl hnone⟩

theorem moved_stamped {status : TicketStatus} {t : SupportTicket} (h : t.Stamped)
    (hlegal : status ∈ transitions t.status) : (SupportTicket.transitioned env status t).Stamped := by
  cases status with
  | inProgress =>
    have hopen : t.status = .open := by
      generalize t.status = status at hlegal ⊢
      cases status with
      | «open» => rfl
      | inProgress | resolved | closed => exact absurd hlegal (by decide)
    exact ⟨fun _ => h.working (.inl hopen), nofun⟩
  | «open» => exact ⟨fun _ => rfl, nofun⟩
  | resolved => exact ⟨by simp [SupportTicket.transitioned], by simp [SupportTicket.transitioned]⟩
  | closed => exact ⟨by simp [SupportTicket.transitioned], by simp [SupportTicket.transitioned]⟩

end

theorem commit_legal_iff {s : TicketDesk} {i : Nat} {env : Env} {result : Outcome}
    {p : PendingTransition} (h : TicketsStamped s) (hp : s.pending[i]? = some (some p))
    (hr : result ≠ .aborted) :
    LegalTransition s (.commit i env result) ∧
      Holds (S := schema) .supportTickets SupportTicket.Stamped
        (outcome (TicketsController.commitTransition env p.ctx p.ticket p.input) s.store).2 ↔
      NotOvertaken s (.commit i env result) := by
  have hone : ∀ q, s.pending[i]? = some (some q) → q = p := by
    intro q hq
    rw [hp] at hq
    cases hq
    rfl
  rcases commit_cases env p.ctx p.ticket p.input s.store with
    ⟨t, ht, hid, hnew, hok, hrows⟩ | ⟨hfail, hwhy⟩
  · constructor
    · rintro ⟨hlegal, -⟩ - q hq - t' ht' hid'
      cases hone q hq
      exact not_overtaken_iff.mp (hlegal hr p hp _ hok t' ht' hid')
    · intro hfree
      have hlegal : ∀ t' ∈ (s.store .supportTickets).rows, t'.id = p.ticket.id →
          p.input.status ∈ transitions t'.status :=
        fun t' ht' hid' => not_overtaken_iff.mpr (hfree hr p hp hnew t' ht' hid')
      refine ⟨?_, ?_⟩
      · rintro - q hq u hu
        cases hone q hq
        rw [hok] at hu
        cases hu
        exact hlegal
      · intro t' ht'
        rw [hrows] at ht'
        obtain ⟨t₀, ht₀, rfl⟩ := List.mem_map.mp ht'
        split
        · rename_i hid₀
          exact moved_stamped (h t₀ ht₀) (hlegal t₀ ht₀ hid₀)
        · exact h t₀ ht₀
  · constructor
    · rintro - - q hq hnew t ht hid
      cases hone q hq
      rcases hwhy with hgone | htaken
      · exact absurd hid (hgone t ht)
      · exact absurd htaken hnew
    · intro _
      refine ⟨?_, ?_⟩
      · rintro - q hq u hu
        cases hone q hq
        rw [hfail] at hu
        cases hu
      · rw [hfail]
        exact h

theorem deskStep_legal_iff (s : TicketDesk) (a : DeskAction) (t : TicketDesk)
    (h : TicketsStamped s) (hs : deskStep s a = some t) :
    LegalTransition s a ∧ TicketsStamped t ↔ NotOvertaken s a := by
  cases a with
  | request env ctx r =>
    cases hs
    have hkeeps : KeepsTickets SupportTicket.Stamped (r.handle env ctx) :=
      ticketRequest_keeps (stamped_settled env) r
    have hkept := hkeeps s.store h
    exact ⟨fun _ => trivial, fun _ => ⟨trivial, hkept⟩⟩
  | check env ctx id body =>
    have hkeeps : KeepsTickets SupportTicket.Stamped
        (TicketsController.checkTransition env ctx id body) := checkTransition_reads.keeps
    have hkept := hkeeps s.store h
    simp only [deskStep] at hs
    split at hs
    · rename_i ticket input store hout
      cases hs
      rw [hout] at hkept
      exact ⟨fun _ => trivial, fun _ => ⟨trivial, hkept⟩⟩
    · rename_i e store hout
      cases hs
      rw [hout] at hkept
      exact ⟨fun _ => trivial, fun _ => ⟨trivial, hkept⟩⟩
  | commit i env result =>
    simp only [deskStep] at hs
    split at hs
    · rename_i p hp
      split at hs
      · cases hs
        exact ⟨fun _ hr => absurd rfl hr, fun _ => ⟨fun hr => absurd rfl hr, h⟩⟩
      · rename_i hr
        cases hs
        exact commit_legal_iff h hp hr
    · contradiction

/-- All transitions of a run are legal and all its tickets well stamped exactly when none that
commits has been overtaken. -/
theorem legal_iff_not_overtaken (as : List DeskAction) :
    Meets deskStep LegalTransition {} as ∧ Always deskStep TicketsStamped {} as ↔
      Meets deskStep NotOvertaken {} as := by
  apply meets_always_iff_meets deskStep_legal_iff
  intro t ht
  cases ht

/-- No other transition of the ticket commits, and new tickets get other ids. -/
def Quiet (id : String) (s : TicketDesk) : DeskAction → Prop
  | .request env _ _ => env.newId .supportTickets ≠ id
  | .check .. => True
  | .commit i _ result => result ≠ .aborted → ∀ p, s.pending[i]? = some (some p) →
      p.ticket.id ≠ id

/-- The ticket has the status it was read with, and a transition's place is its own. -/
structure Current (n : Nat) (p : PendingTransition) (s : TicketDesk) : Prop where
  place : n < s.pending.length
  own : ∀ q, s.pending[n]? = some (some q) → q = p
  status : Holds (S := schema) .supportTickets
    (fun t => t.id = p.ticket.id → t.status = p.ticket.status) s.store

section
variable {s t u : TicketDesk} {n : Nat} {p : PendingTransition} {a : DeskAction}
  {as : List DeskAction} {env : Env} {ctx : Caller} {id : String} {body : Option Js.Json}

theorem status_settled {status : TicketStatus} (h : env.newId .supportTickets ≠ id) :
    Settled env (fun t => t.id = id → t.status = status) where
  new _ hid _ _ heq := absurd (hid.symm.trans heq) h
  same _ _ ht hid hstatus _ heq := hstatus.trans (ht (hid.symm.trans heq))

/-- A transition that passes its check waits with the ticket as it is. -/
theorem check_current (hs : deskStep s (.check env ctx id body) = some u)
    (hp : u.pending[s.pending.length]? = some (some p)) :
    Current s.pending.length p u ∧ p.input.status ∈ transitions p.ticket.status := by
  simp only [deskStep] at hs
  split at hs
  · rename_i ticket input store hout
    obtain ⟨rfl, hrow, hlegal⟩ := checkTransition_answers hout
    cases hs
    have hplace : p = { ctx, ticket, input } := by simpa using hp.symm
    subst hplace
    refine ⟨⟨by simp, fun q hq => by simpa using hq.symm, ?_⟩, hlegal⟩
    intro t ht hid
    rw [List.inj_on_of_nodup_map (s.store .supportTickets).unique ht hrow hid]
  · cases hs
    simp at hp

theorem Current.step (h : Current n p s) (hq : Quiet p.ticket.id s a)
    (hs : deskStep s a = some t) : Current n p t := by
  cases a with
  | request env ctx r =>
    cases hs
    have hkeeps : KeepsTickets (fun t => t.id = p.ticket.id → t.status = p.ticket.status)
        (r.handle env ctx) := ticketRequest_keeps (status_settled hq) r
    have hkept := hkeeps s.store h.status
    exact ⟨h.place, h.own, hkept⟩
  | check env ctx id body =>
    have hreads : Reads (TicketsController.checkTransition env ctx id body) :=
      checkTransition_reads
    have hread := hreads s.store
    simp only [deskStep] at hs
    split at hs
    · rename_i ticket input store hout
      rw [hout] at hread
      cases hread
      cases hs
      refine ⟨?_, ?_, h.status⟩
      · rw [List.length_append]
        exact Nat.lt_add_right _ h.place
      · rw [List.getElem?_append_left h.place]
        exact h.own
    · rename_i e store hout
      rw [hout] at hread
      cases hread
      cases hs
      exact h
  | commit i env result =>
    simp only [deskStep] at hs
    split at hs
    · rename_i q hi
      have hplace : n < (s.pending.set i none).length := by
        rw [List.length_set]
        exact h.place
      have hown : ∀ q', (s.pending.set i none)[n]? = some (some q') → q' = p := by
        intro q' hq'
        rw [List.getElem?_set] at hq'
        split at hq'
        · simp at hq'
        · exact h.own q' hq'
      split at hs
      · cases hs
        exact ⟨hplace, hown, h.status⟩
      · rename_i hr
        cases hs
        refine ⟨hplace, hown, ?_⟩
        have hother := hq hr q hi
        rcases commit_cases env q.ctx q.ticket q.input s.store with
          ⟨-, -, -, -, -, hrows⟩ | ⟨hfail, -⟩
        · intro t ht hid
          rw [hrows] at ht
          obtain ⟨t₀, ht₀, rfl⟩ := List.mem_map.mp ht
          split at hid
          · rename_i hid₀
            exact absurd (hid₀.symm.trans hid) hother
          · rename_i hid₀
            rw [if_neg hid₀]
            exact h.status t₀ ht₀ hid
        · rw [hfail]
          exact h.status
    · contradiction

/-- A transition whose ticket no other one has changed since its check is not overtaken. -/
theorem not_overtaken_of_quiet (hcheck : deskStep s (.check env ctx id body) = some u)
    (hp : u.pending[s.pending.length]? = some (some p))
    (hquiet : Meets deskStep (Quiet p.ticket.id) u as) (hrun : exec deskStep u as = some t)
    (env' : Env) (result : Outcome) :
    NotOvertaken t (.commit s.pending.length env' result) := by
  obtain ⟨hcurrent, hlegal⟩ := check_current hcheck hp
  have hlast := (always_of_meets (fun s a t h hq hs => h.step hq hs) hcurrent hquiet).last hrun
  intro _ q hq _ t' ht' hid
  obtain rfl := hlast.own q hq
  rw [← not_overtaken_iff, hlast.status t' ht' hid]
  exact hlegal

end

/-- A request whose rows all get one id. -/
def deskEnv (id : String) : Env :=
  { now := 1000
    newId := fun _ => id
    randomHex := "00"
    sha256 := fun text => text
    parseUuid := some
    ofText := fun _ => .nan
    rollupAvailable := true }

def agentCaller : Caller :=
  { userId := "user", tenantId := "t", organizationScope := none, sub := none, requestId := none }

def statusBody (status : String) : Option Js.Json :=
  some (.object [("status", .string status)])

/-- Two transitions read an open ticket; the one to in_progress commits after the one to
resolved. -/
theorem resolved_set_in_progress : ¬ ∀ as : List DeskAction,
    Meets deskStep LegalTransition {} as ∧ Always deskStep TicketsStamped {} as := by
  intro h
  have hrun : ∃ s ∈ exec deskStep {}
      [.request (deskEnv "1") agentCaller
        (.create (some (.object [("title", .string "Disk"), ("description", .string "Full")]))),
      .check (deskEnv "2") agentCaller "1" (statusBody "in_progress"),
      .check (deskEnv "3") agentCaller "1" (statusBody "resolved"),
      .commit 1 (deskEnv "3") .committed, .commit 0 (deskEnv "2") .committed],
      ∃ t ∈ (s.store .supportTickets).rows, t.status = .inProgress ∧ t.resolvedAt = some 1000 := by
    decide
  obtain ⟨s, hs, t, ht, hstatus, hat⟩ := hrun
  have hnone := ((h _).2.last hs t ht).working (.inr hstatus)
  rw [hat] at hnone
  cases hnone

end WaOps.Api
