import WaOps.Api.Mutations

namespace WaOps.Api
open Lib Lib.Scoped Lib.Programs Lib.Tables
open Incidents (EntryType)

section
variable {env : Env} {ctx : Caller} {α : Type} {i : TableName} {id : String}
  {body : Option Js.Json}

abbrev GuardedByAudit (m : Operation α) : Prop := Guarded (.write .auditLogs) m

theorem findFirst_reads {p : i.Row → Bool} : Reads (Prisma.findFirst i p) := fun _ => rfl

theorem findMany_reads {p : i.Row → Bool} : Reads (Prisma.findMany i p) := fun _ => rfl

theorem pure_reads {a : α} : Reads (pure a : Handler α) := fun _ => rfl

theorem uuidOf_reads {text : String} : Reads (uuidOf env text) := by
  intro s
  unfold uuidOf
  split <;> rfl

theorem optionUuid_reads {text : Option String} : Reads (text.mapM (uuidOf env)) := by
  cases text with
  | none => exact pure_reads
  | some text => exact Reads.bind uuidOf_reads fun _ => pure_reads

theorem throwIf_reads {bad : Prop} [Decidable bad] {failure : Failure} :
    Reads (throwIf bad failure) := by
  intro s
  unfold throwIf
  split <;> rfl

theorem create_keepsOnError {r : i.Row} : KeepsOnError (Prisma.create i r) := by
  intro s e he
  unfold Prisma.create Tables.create at he ⊢
  rw [outcome_statement] at he ⊢
  split at he
  · cases he
  · rename_i h
    rw [dif_neg h]

theorem update_keepsOnError {k : i.Key} {f : i.Row → i.Row} {hf : ∀ r, i.key (f r) = i.key r} :
    KeepsOnError (Prisma.update i k f hf) := by
  intro s e he
  unfold Prisma.update Tables.update at he ⊢
  rw [outcome_statement] at he ⊢
  split at he
  · cases he
  · rfl

/-- An insert into a table with a unique index. -/
theorem createUnique_keepsOnError {p : i.Row → Bool} {r : i.Row} : KeepsOnError (do
    let same ← Prisma.findFirst i p
    throwIf same.isSome .internal
    Prisma.create i r) :=
  KeepsOnError.bind findFirst_reads fun _ =>
    KeepsOnError.bind throwIf_reads fun _ => create_keepsOnError

theorem parseSteps_readOnly {parsed : Zod.Parsed α} : ReadOnly (parseSteps parsed) := by
  cases parsed with
  | ok a => exact ReadOnly.pure
  | error issues => exact ReadOnly.throw

theorem throwStepIf_readOnly {bad : Prop} [Decidable bad] {failure : Failure} :
    ReadOnly (throwStepIf bad failure) := by
  unfold throwStepIf
  split
  · exact ReadOnly.throw
  · exact ReadOnly.pure

theorem findOrNotFoundSteps_readOnly {what text : String} {p : String → i.Row → Bool} :
    ReadOnly (findOrNotFoundSteps env i what text p) := by
  unfold findOrNotFoundSteps
  refine ReadOnly.bind (ReadOnly.statement ?_) ?_
  · exact Reads.bind uuidOf_reads (fun _ => findFirst_reads)
  · intro found
    cases found with
    | none => exact ReadOnly.throw
    | some r => exact ReadOnly.pure

theorem checkAssigneeSteps_readOnly {assigneeId : String} :
    ReadOnly (checkAssigneeSteps env ctx assigneeId) := by
  unfold checkAssigneeSteps
  refine ReadOnly.bind (ReadOnly.statement ?_) ?_
  · exact Reads.bind uuidOf_reads fun _ => Reads.bind findFirst_reads fun _ => pure_reads
  · rintro ⟨userId, member⟩
    exact ReadOnly.bind throwStepIf_readOnly (fun _ => ReadOnly.pure)

theorem assigneeSteps_readOnly {assigneeId : Option String} :
    ReadOnly (assigneeId.mapM (checkAssigneeSteps env ctx)) := by
  cases assigneeId with
  | none => exact ReadOnly.pure
  | some assigneeId => exact ReadOnly.bind checkAssigneeSteps_readOnly (fun _ => ReadOnly.pure)

/-- Neither a statement nor a commit of it is the insert of the audit record. -/
abbrev OffTrail (m : Operation α) : Prop := m.Sites (· ≠ .write .auditLogs)

theorem parseSteps_offTrail {parsed : Zod.Parsed α} : OffTrail (parseSteps parsed) := by
  cases parsed <;> exact trivial

theorem throwStepIf_offTrail {bad : Prop} [Decidable bad] {failure : Failure} :
    OffTrail (throwStepIf bad failure) := by
  unfold throwStepIf
  split <;> exact trivial

theorem findOrNotFoundSteps_offTrail {what text : String} {p : String → i.Row → Bool} :
    OffTrail (findOrNotFoundSteps env i what text p) := by
  refine ⟨nofun, fun found => ?_⟩
  cases found <;> exact trivial

theorem assigneeSteps_offTrail {assigneeId : Option String} :
    OffTrail (assigneeId.mapM (checkAssigneeSteps env ctx)) := by
  cases assigneeId with
  | none => exact trivial
  | some assigneeId =>
    refine ⟨⟨nofun, ?_⟩, fun _ => trivial⟩
    rintro ⟨userId, member⟩
    exact ⟨throwStepIf_offTrail, fun _ => trivial⟩

/-- What a store would be without the audit rows added since another. -/
def unrecorded (s t : Store) : Store := Function.update t .auditLogs (s .auditLogs)

/-- Where the insert of the audit record fails, everything else is written as it would be. -/
def LeavesWrite (m : Operation α) : Prop :=
  ∀ faults n s, (m.run faults n s).failed = some (.write .auditLogs) →
    (m.run faults n s).state .auditLogs = s .auditLogs ∧
      (outcome m.eval s = (.error .internal, (m.run faults n s).state) ∨
        ∃ a t, outcome m.eval s = (.ok a, t) ∧ (m.run faults n s).state = unrecorded s t)

/-- Checks, one write, and the audit record of it. -/
structure AuditedLast (m : Operation α) : Prop where
  sites : m.Sites fun _ => True
  guarded : GuardedByAudit m
  leaves : LeavesWrite m

/-- What follows the write: the audit record, an event and the answer. -/
structure Finishes (m : Operation α) : Prop where
  sites : m.Sites fun _ => True
  failsOnly : FailsOnlyAt (.write .auditLogs) m
  leaves : LeavesWrite m

/-- What follows the audit record. -/
structure Answering (m : Operation α) : Prop where
  offTrail : OffTrail m
  failsOnly : FailsOnlyAt (.write .auditLogs) m
  answers : ∀ s, ∃ a, outcome m.eval s = (.ok a, s)

section
variable {β : Type} {m : Operation α} {k : α → Operation β}

theorem OffTrail.failed (h : OffTrail m) {faults : Faults Failure} {n : Nat} {s : Store} :
    (m.run faults n s).failed ≠ some (.write .auditLogs) := by
  intro hf
  exact failed_site (p := (· ≠ Site.write .auditLogs)) h hf rfl

theorem OffTrail.sites (h : OffTrail m) : m.Sites fun _ => True :=
  sites_mono (fun _ _ => trivial) h

theorem LeavesWrite.after (hm : OffTrail m)
    (hkept : ∀ rows, Keeps (fun t => t .auditLogs = rows) m.eval) (hk : ∀ a, LeavesWrite (k a)) :
    LeavesWrite (m >>= k) := by
  intro faults n s hf
  rw [run_bind] at hf ⊢
  cases hr : (m.run faults n s).result with
  | error e =>
    rw [andThen_error hr] at hf
    exact absurd hf hm.failed
  | ok a =>
    rw [andThen_ok hr] at hf ⊢
    have hrun : outcome m.eval s = (.ok a, (m.run faults n s).state) := run_ok hm hr
    have hrows := hkept (s .auditLogs) s rfl
    rw [hrun] at hrows
    dsimp only at hrows
    obtain ⟨htrail, hend⟩ := hk a faults _ _ hf
    refine ⟨htrail.trans hrows, ?_⟩
    rw [eval_bind, outcome_bind, hrun]
    refine hend.imp id ?_
    rintro ⟨b, t, hb, hstate⟩
    refine ⟨b, t, hb, hstate.trans ?_⟩
    rw [unrecorded, unrecorded, hrows]

theorem AuditedLast.check (hm : ReadOnly m) (hoff : OffTrail m) (hk : ∀ a, AuditedLast (k a)) :
    AuditedLast (m >>= k) where
  sites := ⟨hoff.sites, fun a => (hk a).sites⟩
  guarded := Guarded.check hm fun a => (hk a).guarded
  leaves := LeavesWrite.after hoff (fun _ => hm.reads.keeps) fun a => (hk a).leaves

theorem AuditedLast.write (hm : AllOrNothing m) (hoff : OffTrail m)
    (hkept : ∀ rows, Keeps (fun t => t .auditLogs = rows) m.eval) (hk : ∀ a, Finishes (k a)) :
    AuditedLast (m >>= k) where
  sites := ⟨hoff.sites, fun a => (hk a).sites⟩
  guarded := Guarded.write hm fun a => (hk a).failsOnly
  leaves := LeavesWrite.after hoff hkept fun a => (hk a).leaves

theorem AuditedLast.map {f : α → β} (hm : AuditedLast m) : AuditedLast (f <$> m) where
  sites := sites_map.mpr hm.sites
  guarded := hm.guarded.map
  leaves := by
    intro faults n s hf
    have hrun : (f <$> m).run faults n s =
        (m.run faults n s).andThen fun a => (pure (f a) : Operation β).run faults := rfl
    rw [hrun] at hf ⊢
    cases hr : (m.run faults n s).result with
    | ok a =>
      rw [andThen_ok hr] at hf
      cases hf
    | error e =>
      rw [andThen_error hr] at hf ⊢
      obtain ⟨htrail, hend⟩ := hm.leaves faults n s hf
      refine ⟨htrail, ?_⟩
      rw [eval_map, map_eq_pure_bind, outcome_bind]
      rcases hend with hend | ⟨b, t, hb, hstate⟩
      · rw [hend]
        exact .inl rfl
      · rw [hb]
        exact .inr ⟨f b, t, rfl, hstate⟩

theorem Answering.pure {a : α} : Answering (pure a : Operation α) where
  offTrail := trivial
  failsOnly := FailsOnlyAt.pure
  answers _ := ⟨a, rfl⟩

theorem publish_readOnly : ReadOnly (.statement .publish (pure ()) : Operation Unit) :=
  ReadOnly.statement pure_reads

theorem Answering.publish (hm : Answering m) : Answering (do
    publishSteps
    m) where
  offTrail := ⟨publish_readOnly, fun _ => hm.offTrail⟩
  failsOnly := FailsOnlyAt.bind FailsOnlyAt.attempt fun _ => hm.failsOnly
  answers := hm.answers

theorem Finishes.publish (hm : Finishes m) : Finishes (do
    publishSteps
    m) where
  sites := ⟨publish_readOnly, fun _ => hm.sites⟩
  failsOnly := FailsOnlyAt.bind FailsOnlyAt.attempt fun _ => hm.failsOnly
  leaves := LeavesWrite.after publish_readOnly (fun _ => Keeps.pure) fun _ => hm.leaves

/-- The record is inserted, or the insert leaves the store as it was. -/
theorem record_ends (env : Env) (ctx : Caller) (action resourceType resourceId : String)
    (beforeData afterData : Option AuditData) (s : Store) :
    (∃ t, outcome (AuditService.record env ctx action resourceType resourceId beforeData afterData)
        s = (.ok (), t) ∧ unrecorded s t = s) ∨
      outcome (AuditService.record env ctx action resourceType resourceId beforeData afterData) s =
        (.error .internal, s) := by
  by_cases hnew : env.newId .auditLogs ∈ (s .auditLogs).rows.map TableName.auditLogs.key
  · right
    rw [AuditService.record, Prisma.create, outcome_bind, create_taken (S := schema) hnew]
  · left
    rw [AuditService.record, Prisma.create, outcome_bind, create_new (S := schema) hnew]
    refine ⟨_, rfl, ?_⟩
    rw [unrecorded, Function.update_idem, Function.update_eq_self]

/-- Nothing but the audit record is written any more. -/
theorem Finishes.record {action resourceType resourceId : String}
    {beforeData afterData : Option AuditData} (hm : Answering m) : Finishes (do
      AuditService.recordSteps env ctx action resourceType resourceId beforeData afterData
      m) where
  sites := ⟨trivial, fun _ => hm.offTrail.sites⟩
  failsOnly := FailsOnlyAt.bind FailsOnlyAt.statement fun _ => hm.failsOnly
  leaves := by
    intro faults n s hf
    have hrun : (AuditService.recordSteps env ctx action resourceType resourceId beforeData
        afterData).run faults n s = execute (.write .auditLogs) (AuditService.record env ctx action
          resourceType resourceId beforeData afterData) (faults n) n s := rfl
    have hrecord := record_ends env ctx action resourceType resourceId beforeData afterData s
    rw [run_bind, hrun] at hf ⊢
    rw [eval_bind, recordSteps_eval, outcome_bind]
    generalize AuditService.record env ctx action resourceType resourceId beforeData afterData =
      record at *
    cases hfault : faults n with
    | some e =>
      refine ⟨rfl, ?_⟩
      rcases hrecord with ⟨t, ht, hsame⟩ | herror
      · obtain ⟨a, ha⟩ := hm.answers t
        rw [ht]
        exact .inr ⟨a, t, ha, hsame.symm⟩
      · rw [herror]
        exact .inl rfl
    | none =>
      rw [hfault] at hf
      rcases hrecord with ⟨t, ht, -⟩ | herror
      · have hok : (execute (Site.write .auditLogs) record none n s).result = .ok () := by
          rw [execute, ht]
        rw [andThen_ok hok] at hf
        exact absurd hf hm.offTrail.failed
      · have hnone : execute (Site.write .auditLogs) record none n s =
            { result := .error .internal, state := s, failed := some (.write .auditLogs),
              begun := n + 1 } := by
          simp only [execute, herror, failedAt]
        rw [herror, hnone]
        exact ⟨rfl, .inl rfl⟩

end

theorem recordOperation_elsewhere {incident : Incident} {f : Incident → Incident}
    {hf : ∀ r, (f r).id = r.id} {entryType : EntryType} {payloadJson : Option Js.Json}
    {rows : Table schema .auditLogs} : Keeps (fun t => t .auditLogs = rows)
      (recordOperation env ctx incident f hf entryType payloadJson) := by
  refine Keeps.transaction (Keeps.bind (update_elsewhere (by decide)) fun u => ?_)
  exact Keeps.bind (create_elsewhere (by decide)) fun _ => Keeps.pure

/-- The counter is in a table of its own. -/
theorem bumpSequence_elsewhere {j : TableName} {rows : Table schema j}
    (hj : j ≠ .supportSequences) : Keeps (fun t => t j = rows) (bumpSequence ctx) := by
  refine Keeps.bind Keeps.query fun found => ?_
  cases found with
  | none => exact Keeps.bind (create_elsewhere hj.symm) fun _ => Keeps.pure
  | some r =>
    refine Keeps.bind throwIf_reads.keeps fun _ => ?_
    exact Keeps.bind (update_elsewhere hj.symm) fun _ => Keeps.pure

/-- An insert into a table with a unique index writes to it only. -/
theorem createUnique_elsewhere {p : i.Row → Bool} {r : i.Row} {rows : Table schema .auditLogs}
    (hi : i ≠ .auditLogs) : Keeps (fun t => t .auditLogs = rows) (do
      let same ← Prisma.findFirst i p
      throwIf same.isSome .internal
      Prisma.create i r) :=
  Keeps.bind Keeps.query fun _ => Keeps.bind throwIf_reads.keeps fun _ => create_elsewhere hi

theorem createHostSteps_audited : AuditedLast (HostsController.createSteps env ctx body) := by
  unfold HostsController.createSteps
  apply AuditedLast.check parseSteps_readOnly parseSteps_offTrail
  intro input
  refine AuditedLast.write (AllOrNothing.statement createUnique_keepsOnError) (by simp)
    (fun _ => createUnique_elsewhere (by decide)) fun created => ?_
  exact Finishes.record Answering.pure

/-- The transaction of an operation on an incident. -/
theorem recordOperationSteps_offTrail {incident : Incident} {f : Incident → Incident}
    {hf : ∀ r, (f r).id = r.id} {entryType : EntryType} {payloadJson : Option Js.Json} :
    OffTrail (recordOperationSteps env ctx incident f hf entryType payloadJson) := by
  simp [OffTrail, recordOperationSteps]

theorem acknowledgeSteps_audited :
    AuditedLast (IncidentsController.acknowledgeSteps env ctx id body) := by
  unfold IncidentsController.acknowledgeSteps
  apply AuditedLast.check parseSteps_readOnly parseSteps_offTrail
  intro note
  apply AuditedLast.check findOrNotFoundSteps_readOnly findOrNotFoundSteps_offTrail
  intro incident
  apply AuditedLast.check throwStepIf_readOnly throwStepIf_offTrail
  intro _
  refine AuditedLast.write AllOrNothing.transaction recordOperationSteps_offTrail
    (fun _ => recordOperation_elsewhere) fun updated => ?_
  exact Finishes.record Answering.pure

theorem resolveSteps_audited :
    AuditedLast (IncidentsController.resolveSteps env ctx id body) := by
  unfold IncidentsController.resolveSteps
  apply AuditedLast.check parseSteps_readOnly parseSteps_offTrail
  intro note
  apply AuditedLast.check findOrNotFoundSteps_readOnly findOrNotFoundSteps_offTrail
  intro incident
  apply AuditedLast.check throwStepIf_readOnly throwStepIf_offTrail
  intro _
  refine AuditedLast.write AllOrNothing.transaction recordOperationSteps_offTrail
    (fun _ => recordOperation_elsewhere) fun updated => ?_
  exact Finishes.record Answering.pure

theorem reopenSteps_audited : AuditedLast (IncidentsController.reopenSteps env ctx id) := by
  unfold IncidentsController.reopenSteps
  apply AuditedLast.check findOrNotFoundSteps_readOnly findOrNotFoundSteps_offTrail
  intro incident
  refine AuditedLast.write AllOrNothing.transaction recordOperationSteps_offTrail
    (fun _ => recordOperation_elsewhere) fun updated => ?_
  exact Finishes.record Answering.pure

theorem createTokenSteps_audited :
    AuditedLast (AgentsController.createTokenSteps env ctx body) := by
  unfold AgentsController.createTokenSteps
  apply AuditedLast.check parseSteps_readOnly parseSteps_offTrail
  intro input
  refine AuditedLast.check (ReadOnly.statement findMany_reads) (by simp) fun pending => ?_
  apply AuditedLast.check throwStepIf_readOnly throwStepIf_offTrail
  intro _
  refine AuditedLast.write (AllOrNothing.statement createUnique_keepsOnError) (by simp)
    (fun _ => createUnique_elsewhere (by decide)) fun created => ?_
  exact Finishes.record Answering.pure

theorem revokeSteps_audited : AuditedLast (AgentsController.revokeSteps env ctx id) := by
  unfold AgentsController.revokeSteps
  apply AuditedLast.check findOrNotFoundSteps_readOnly findOrNotFoundSteps_offTrail
  intro agent
  refine AuditedLast.write (AllOrNothing.statement update_keepsOnError) (by simp)
    (fun _ => update_elsewhere (by decide)) fun updated => ?_
  exact Finishes.publish (Finishes.record Answering.pure)

theorem createTicketSteps_audited :
    AuditedLast (TicketsController.createSteps env ctx body) := by
  unfold TicketsController.createSteps
  apply AuditedLast.check parseSteps_readOnly parseSteps_offTrail
  intro input
  refine AuditedLast.write AllOrNothing.transaction (by simp) (fun rows => ?_) fun created => ?_
  · refine Keeps.transaction (Keeps.bind (bumpSequence_elsewhere (by decide)) fun number => ?_)
    exact Keeps.bind optionUuid_reads.keeps fun _ => createUnique_elsewhere (by decide)
  · exact Finishes.record (Answering.publish Answering.pure)

theorem patchSteps_audited : AuditedLast (TicketsController.patchSteps env ctx id body) := by
  unfold TicketsController.patchSteps
  apply AuditedLast.check parseSteps_readOnly parseSteps_offTrail
  intro input
  apply AuditedLast.check findOrNotFoundSteps_readOnly findOrNotFoundSteps_offTrail
  intro ticket
  refine AuditedLast.write (AllOrNothing.statement update_keepsOnError) (by simp)
    (fun _ => update_elsewhere (by decide)) fun updated => ?_
  exact Finishes.record Answering.pure

theorem commentSteps_audited :
    AuditedLast (TicketsController.commentSteps env ctx id body) := by
  unfold TicketsController.commentSteps
  apply AuditedLast.check parseSteps_readOnly parseSteps_offTrail
  intro text
  apply AuditedLast.check findOrNotFoundSteps_readOnly findOrNotFoundSteps_offTrail
  intro ticket
  refine AuditedLast.write (AllOrNothing.statement create_keepsOnError) (by simp)
    (fun _ => create_elsewhere (by decide)) fun created => ?_
  exact Finishes.record Answering.pure

theorem assignSteps_audited : AuditedLast (TicketsController.assignSteps env ctx id body) := by
  unfold TicketsController.assignSteps
  apply AuditedLast.check parseSteps_readOnly parseSteps_offTrail
  intro assigneeId
  apply AuditedLast.check findOrNotFoundSteps_readOnly findOrNotFoundSteps_offTrail
  intro ticket
  apply AuditedLast.check assigneeSteps_readOnly assigneeSteps_offTrail
  intro checked
  refine AuditedLast.write (AllOrNothing.statement update_keepsOnError) (by simp)
    (fun _ => update_elsewhere (by decide)) fun updated => ?_
  exact Finishes.record Answering.pure

theorem transitionSteps_audited :
    AuditedLast (TicketsController.transitionSteps env ctx id body) := by
  unfold TicketsController.transitionSteps
  apply AuditedLast.check parseSteps_readOnly parseSteps_offTrail
  intro input
  apply AuditedLast.check findOrNotFoundSteps_readOnly findOrNotFoundSteps_offTrail
  intro ticket
  apply AuditedLast.check throwStepIf_readOnly throwStepIf_offTrail
  intro _
  refine AuditedLast.write AllOrNothing.transaction (by simp) (fun rows => ?_) fun updated => ?_
  · refine Keeps.transaction (Keeps.bind (update_elsewhere (by decide)) fun u => ?_)
    exact Keeps.bind (create_elsewhere (by decide)) fun _ => Keeps.pure
  · exact Finishes.record (Answering.publish Answering.pure)

theorem steps_audited (m : Mutation) : AuditedLast (m.steps env ctx) := by
  cases m with
  | createHost body => exact createHostSteps_audited.map
  | acknowledgeIncident id body => exact acknowledgeSteps_audited.map
  | resolveIncident id body => exact resolveSteps_audited.map
  | reopenIncident id => exact reopenSteps_audited.map
  | createToken body => exact createTokenSteps_audited.map
  | revokeAgent id => exact revokeSteps_audited.map
  | createTicket body => exact createTicketSteps_audited.map
  | patchTicket id body => exact patchSteps_audited.map
  | commentTicket id body => exact commentSteps_audited.map
  | assignTicket id body => exact assignSteps_audited.map
  | transitionTicket id body => exact transitionSteps_audited.map

end

/-- Whatever statements fail, a request that ends in an error has changed nothing, unless it is
the insert of the audit record that failed. -/
theorem unchanged_unless_audit_fails (env : Env) (ctx : Caller) (m : Mutation)
    (faults : Faults Failure) (s : Store)
    (herror : ((m.steps env ctx).run faults 0 s).IsError)
    (haudit : ((m.steps env ctx).run faults 0 s).failed ≠ some (.write .auditLogs)) :
    ((m.steps env ctx).run faults 0 s).state = s :=
  (steps_audited m).guarded faults 0 s herror haudit

def emptyStore : Store := fun i => { rows := [], unique := noRows_unique i }

def requestEnv : Env :=
  { now := 1000
    newId := fun _ => "1"
    randomHex := "00"
    sha256 := fun text => text
    parseUuid := some
    ofText := fun _ => .nan
    rollupAvailable := true }

def userCaller : Caller :=
  { userId := "user", tenantId := "t", organizationScope := none, sub := none, requestId := none }

def namedHost : Option Js.Json := some (.object [("name", .string "web-1")])

def ticketBody : Option Js.Json :=
  some (.object [("title", .string "Disk"), ("description", .string "Full")])

/-- Where only the n-th statement fails. -/
def failAt (n : Nat) : Faults Failure := fun k => if k = n then some .internal else none

/-- The commit of a new ticket fails: the sequence is as it was. -/
theorem uncommitted_ticket_unchanged :
    (((Mutation.createTicket ticketBody).steps requestEnv userCaller).run (failAt 2) 0
      emptyStore).state = emptyStore :=
  unchanged_unless_audit_fails requestEnv userCaller (.createTicket ticketBody) (failAt 2)
    emptyStore ⟨.internal, rfl⟩ (by decide)

/-- A new host stays where the insert of its audit record fails and the client sees an error. -/
theorem host_stays_after_error : ¬ ∀ (env : Env) (ctx : Caller) (m : Mutation)
    (faults : Faults Failure) (s : Store), ((m.steps env ctx).run faults 0 s).IsError →
      (((m.steps env ctx).run faults 0 s).state .hosts).rows = (s .hosts).rows := by
  intro h
  have hrows := h requestEnv userCaller (.createHost namedHost) (failAt 1) emptyStore
    ⟨.internal, rfl⟩
  have hlength := congrArg List.length hrows
  exact absurd hlength (by decide)

end WaOps.Api
