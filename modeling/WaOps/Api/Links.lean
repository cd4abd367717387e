import WaOps.Api.Audit

namespace WaOps.Api.Links
open Lib Lib.Scoped Lib.Programs Lib.Tables
open Audit (audited)

def HasTicket (id tenantId : String) (s : Store) : Prop :=
  ∃ t ∈ (s .supportTickets).rows, t.id = id ∧ t.tenantId = tenantId

def Linked (s : Store) : Prop :=
  ∀ c ∈ comments s, HasTicket c.ticketId c.tenantId s

/-- Comments stay linked and tickets stay with their tenants. -/
structure Grows {α : Type} (m : Handler α) : Prop where
  linked : Keeps Linked m
  tickets : ∀ id tenantId, Keeps (HasTicket id tenantId) m

section
variable {env : Env} {ctx : Caller} {α β : Type} {m : Handler α} {f : α → Handler β}
  {i : TableName} {r : i.Row} {id tenantId : String} {body : Option Js.Json}

theorem Grows.bind (hm : Grows m) (hf : ∀ a, Grows (f a)) : Grows (m >>= f) where
  linked := hm.linked.bind fun a => (hf a).linked
  tickets id tenantId := (hm.tickets id tenantId).bind fun a => (hf a).tickets id tenantId

theorem Grows.transaction (hm : Grows m) : Grows (transaction m) where
  linked := hm.linked.transaction
  tickets id tenantId := (hm.tickets id tenantId).transaction

theorem linked_only {u : String} {s : Store} (hs : Linked s) : Linked (only u s) := by
  intro c hc
  obtain ⟨hmem, howner⟩ := List.mem_filter.mp hc
  obtain ⟨t, ht, hid, htenant⟩ := hs c hmem
  refine ⟨t, List.mem_filter.mpr ⟨ht, ?_⟩, hid, htenant⟩
  have hcomment : c.tenantId = u := by simpa using howner
  simp [htenant, hcomment]

/-- The comments on a ticket are its tenant's. -/
theorem Linked.tidy {s : Store} (hs : Linked s) (r : Request) : Tidy ctx r s := by
  cases r with
  | listTickets =>
    intro t ht c hc hticket hother
    obtain ⟨t', ht', hid, htenant⟩ := hs c hc
    obtain ⟨hmem, howner⟩ := List.mem_filter.mp
      (Sorting.mem_orderDesc.mp (List.mem_of_mem_take ht))
    have hsame : t' = t :=
      List.inj_on_of_nodup_map (s .supportTickets).unique ht' hmem (hid.trans hticket)
    have hown : t.tenantId = ctx.tenantId := by simpa using howner
    exact absurd (htenant.symm.trans (hsame ▸ hown)) hother
  | _ => trivial

/-- A request of a tenant has one outcome in all stores that agree on the tenant's rows. -/
theorem sameOutcome_of_linked (env : Env) (ctx : Caller) {s s' : Store} (r : Request)
    (hv : own ctx.tenantId s = own ctx.tenantId s') (hs : Linked s) (hs' : Linked s')
    (hnew : NewIds env ctx s) (hnew' : NewIds env ctx s') : SameOutcome env ctx r s s' := by
  by_cases hr : r = .listTickets
  · subst hr
    apply (sameOutcome_list hv).mpr
    intro t ht
    have hcomments : comments (only ctx.tenantId s) = comments (only ctx.tenantId s') :=
      congrFun hv .supportTicketComments
    rw [tidy_iff.mp (hs.tidy _) t ht, tidy_iff.mp (hs'.tidy _) t (hv ▸ ht), hcomments]
  · obtain ⟨hresult, hown⟩ := (handle_confined hr).agree hv (others_of_new hnew)
      (others_of_new hnew') trivial
    exact ⟨congrArg (Except.mapError Failure.envelope) hresult, hown⟩

theorem keepsOthers_of_new (env : Env) (ctx : Caller) {s : Store} (r : Request)
    (hnew : NewIds env ctx s) : KeepsOthers env ctx r s := by
  by_cases hr : r = .listTickets
  · subst hr
    rw [KeepsOthers, respond_list]
  · exact (handle_confined hr).kept (others_of_new hnew) trivial

end

end WaOps.Api.Links
