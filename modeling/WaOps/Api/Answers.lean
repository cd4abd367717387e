import WaOps.Api.Tickets

namespace WaOps.Api
open Lib Lib.Scoped Lib.Tables

def newTicket (env : Env) (ctx : Caller) (input : CreateTicket) (number : Nat)
    (incidentId : Option String) : SupportTicket :=
  { id := env.newId .supportTickets
    tenantId := ctx.tenantId
    organizationId := ctx.organizationScope
    number
    title := input.title
    description := input.description
    priority := input.priority.getD .normal
    labels := input.labels.getD []
    incidentId
    requesterId := ctx.userId
    openSince := env.now
    createdAt := env.now
    updatedAt := env.now }

/-- The second statement of a new ticket's transaction. -/
def insertTicket (env : Env) (ctx : Caller) (input : CreateTicket) (number : Nat) :
    Handler SupportTicket := do
  let incidentId ← input.incidentId.mapM (uuidOf env)
  let same ← Prisma.findFirst .supportTickets (fun r =>
    r.tenantId = ctx.tenantId ∧ r.number = number)
  throwIf same.isSome .internal
  Prisma.create .supportTickets (newTicket env ctx input number incidentId)

section
variable {env : Env} {ctx : Caller} {db db' : Store} {number : Nat} {ticket : SupportTicket}
  {i : TableName} {α β : Type}

theorem parse_answers {parsed : Zod.Parsed α} {a : α}
    (h : outcome (parse parsed) db = (.ok a, db')) : parsed = .ok a ∧ db' = db := by
  cases parsed with
  | ok a' =>
    cases h
    exact ⟨rfl, rfl⟩
  | error issues => cases h

theorem throwIf_answers {bad : Prop} [Decidable bad] {failure : Failure}
    (h : outcome (throwIf bad failure) db = (.ok (), db')) : ¬ bad ∧ db' = db :=
  check_ok h

theorem findFirst_answers {p : i.Row → Bool} {found : Option i.Row}
    (h : outcome (Prisma.findFirst i p) db = (.ok found, db')) :
    (db i).rows.find? p = found ∧ db' = db :=
  findFirst_ok (S := schema) h

theorem create_answers {r a : i.Row}
    (h : outcome (Prisma.create i r) db = (.ok a, db')) :
    ∃ hnew : i.key r ∉ (db i).rows.map i.key, a = r ∧
      db' = Function.update db i ((db i).insert r hnew) :=
  create_ok (S := schema) h

theorem update_answers {k : i.Key} {f : i.Row → i.Row}
    {hf : ∀ r, i.key (f r) = i.key r} {a : i.Row}
    (h : outcome (Prisma.update i k f hf) db = (.ok a, db')) :
    ∃ r, (db i).rows.find? (fun r => i.key r = k) = some r ∧ a = f r ∧
      db' = Function.update db i ((db i).update k f hf) :=
  update_ok (S := schema) h

theorem uuidOf_answers {text id : String} (h : outcome (uuidOf env text) db = (.ok id, db')) :
    env.parseUuid text = some id ∧ db' = db := by
  unfold uuidOf at h
  cases hparse : env.parseUuid text with
  | none =>
    rw [hparse] at h
    cases h
  | some id' =>
    rw [hparse] at h
    cases h
    exact ⟨rfl, rfl⟩

/-- A row that is found by its id is one of the rows asked for. -/
theorem findOrNotFound_answers {name text : String} {p : String → i.Row → Bool} {r : i.Row}
    (h : outcome (findOrNotFound env i name text p) db = (.ok r, db')) :
    db' = db ∧ r ∈ (db i).rows ∧ ∃ id, p id r = true := by
  obtain ⟨id, db₁, hid, hfind⟩ := bind_ok h
  obtain ⟨-, rfl⟩ := uuidOf_answers hid
  obtain ⟨found, db₂, hfind, hanswer⟩ := bind_ok hfind
  obtain ⟨hfound, rfl⟩ := findFirst_answers hfind
  cases found with
  | none => cases hanswer
  | some r' =>
    cases hanswer
    exact ⟨rfl, List.mem_of_find?_eq_some hfound, id, List.find?_some hfound⟩

theorem uuids_answer {incidentId : Option String} {found : Option String}
    (h : outcome (incidentId.mapM (uuidOf env)) db = (.ok found, db')) :
    incidentId.mapM env.parseUuid = some found ∧ db' = db := by
  cases incidentId with
  | none =>
    cases h
    exact ⟨rfl, rfl⟩
  | some text =>
    have hsome : outcome (some <$> uuidOf env text) db = (.ok found, db') := h
    rw [map_eq_pure_bind] at hsome
    obtain ⟨id, db₁, hid, hanswer⟩ := bind_ok hsome
    obtain ⟨hparse, rfl⟩ := uuidOf_answers hid
    cases hanswer
    refine ⟨?_, rfl⟩
    change some <$> env.parseUuid text = _
    rw [hparse]
    rfl

theorem insertTicket_answers {input : CreateTicket}
    (h : outcome (insertTicket env ctx input number) db = (.ok ticket, db')) :
    ∃ incidentId, input.incidentId.mapM env.parseUuid = some incidentId ∧
      ticket = newTicket env ctx input number incidentId ∧
      (∀ u ∈ (db .supportTickets).rows, u.tenantId = ctx.tenantId → u.number ≠ number) ∧
      ∃ hnew : ticket.id ∉ (db .supportTickets).rows.map TableName.supportTickets.key,
        db' = Function.update db .supportTickets ((db .supportTickets).insert ticket hnew) := by
  obtain ⟨incidentId, db₁, huuid, hfind⟩ := bind_ok h
  obtain ⟨hincident, rfl⟩ := uuids_answer huuid
  obtain ⟨same, db₂, hsame, hthrow⟩ := bind_ok hfind
  obtain ⟨hsame, rfl⟩ := findFirst_answers hsame
  obtain ⟨_, db₃, hthrow, hcreate⟩ := bind_ok hthrow
  obtain ⟨hunique, rfl⟩ := throwIf_answers hthrow
  obtain ⟨hnew, rfl, rfl⟩ := create_answers hcreate
  refine ⟨incidentId, hincident, rfl, ?_, hnew, rfl⟩
  intro u hu htenant hnumber
  apply hunique
  rw [← hsame, List.find?_isSome]
  exact ⟨u, hu, by simp [htenant, hnumber]⟩

end

end WaOps.Api
