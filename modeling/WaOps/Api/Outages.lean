import WaOps.Api.Errors
import WaOps.Api.Links

namespace WaOps.Api
open Lib Lib.Scoped Lib.Programs Lib.Tables
open Audit (NewAuditId audited entriesOf trail)
open Links (Linked HasTicket)

/-- What fails of a request's statements: one before anything is written, the write or its commit;
or the insert of the audit record. -/
inductive Outage where
  | statement
  | audit
  deriving DecidableEq, Repr

/-- What every error that is no ApiError is answered. -/
def internalError : ApiError := Failure.internal.envelope

/-- The response and the store after it where a statement may fail. -/
def respondIn (env : Env) (ctx : Caller) (outage : Option Outage) (r : Request) (s : Store) :
    Except ApiError Answer × Store :=
  match outage, respond env ctx r s with
  | none, ended => ended
  | some .statement, _ => (.error internalError, s)
  | some .audit, (.error e, t) => (.error e, t)
  | some .audit, (.ok answer, t) =>
    if (audited r).isSome then (.error internalError, unrecorded s t) else (.ok answer, t)

section
variable {env : Env} {ctx : Caller} {outage : Option Outage} {r : Request} {s s' t t' : Store}

/-- Nothing fails, nothing is done, or all but the audit record. -/
theorem respondIn_cases (env : Env) (ctx : Caller) (outage : Option Outage) (r : Request)
    (s : Store) : respondIn env ctx outage r s = respond env ctx r s ∨
      outage = some .statement ∧ respondIn env ctx outage r s = (.error internalError, s) ∨
      outage = some .audit ∧ ∃ answer t, respond env ctx r s = (.ok answer, t) ∧
        respondIn env ctx outage r s = (.error internalError, unrecorded s t) := by
  unfold respondIn
  cases outage with
  | none => exact .inl rfl
  | some outage =>
    cases outage with
    | statement => exact .inr (.inl ⟨rfl, rfl⟩)
    | audit =>
      rcases hrespond : respond env ctx r s with ⟨e | answer, t⟩
      · exact .inl rfl
      · dsimp only
        split
        · exact .inr (.inr ⟨rfl, answer, t, rfl, rfl⟩)
        · exact .inl rfl

theorem audited_mutation (m : Mutation) : (audited m.request).isSome = true := by
  cases m <;> rfl

/-- However the statements of a request fail, it ends as in one of the outages. -/
theorem run_respondIn (m : Mutation) {faults : Faults Failure}
    (hinternal : ∀ n e, faults n = some e → e = .internal) (s : Store) : ∃ outage,
      (((m.steps env ctx).run faults 0 s).result.mapError Failure.envelope,
        ((m.steps env ctx).run faults 0 s).state) = respondIn env ctx outage m.request s := by
  have haudited : AuditedLast (m.steps env ctx) := steps_audited m
  have hrespond : ∀ {result t}, outcome (m.steps env ctx).eval s = (result, t) →
      respond env ctx m.request s = (result.mapError Failure.envelope, t) := by
    intro result t h
    rw [steps_eval] at h
    rw [respond, h]
  rcases run_ends haudited.sites faults 0 s with hrun | ⟨n, e, he, herror⟩
  · exact ⟨none, (hrespond hrun.symm).symm⟩
  · obtain rfl := hinternal n e he
    rw [herror]
    by_cases hfailed : ((m.steps env ctx).run faults 0 s).failed = some (.write .auditLogs)
    · obtain ⟨-, hend | ⟨answer, t, hanswer, hstate⟩⟩ := haudited.leaves faults 0 s hfailed
      · exact ⟨none, (hrespond hend).symm⟩
      · refine ⟨some .audit, ?_⟩
        have hunrecorded : respondIn env ctx (some .audit) m.request s =
            (.error internalError, unrecorded s t) := by
          simp only [respondIn, hrespond hanswer, Except.mapError, audited_mutation, if_true]
        rw [hunrecorded, hstate]
        rfl
    · refine ⟨some .statement, ?_⟩
      rw [haudited.guarded faults 0 s ⟨_, herror⟩ hfailed]
      rfl

theorem trail_unrecorded : trail (unrecorded s t) = trail s := by
  rw [trail, unrecorded, Function.update_self]
  rfl

/-- A response adds its entries, and only where the insert of the record itself fails does a
store change without any. -/
theorem respondIn_records (env : Env) (ctx : Caller) (outage : Option Outage) (r : Request)
    (hs : NewAuditId env s) :
    trail (respondIn env ctx outage r s).2 =
        trail s ++ entriesOf env.now ctx r (respondIn env ctx outage r s).1 ∧
      ((respondIn env ctx outage r s).2 ≠ s → outage = some .audit ∨
        entriesOf env.now ctx r (respondIn env ctx outage r s).1 ≠ []) := by
  obtain hsame | ⟨-, hnone⟩ | ⟨haudit, answer, t, -, hunrecorded⟩ :=
    respondIn_cases env ctx outage r s
  · rw [hsame]
    obtain ⟨htrail, hchanged⟩ := Audit.respond_records env ctx r hs
    exact ⟨htrail, fun h => .inr (hchanged h)⟩
  · rw [hnone]
    exact ⟨(List.append_nil _).symm, fun h => absurd rfl h⟩
  · rw [hunrecorded]
    exact ⟨trail_unrecorded.trans (List.append_nil _).symm, fun _ => .inl haudit⟩

theorem own_unrecorded {u : String} :
    own u (unrecorded s t) = Function.update (own u t) .auditLogs (own u s .auditLogs) := by
  funext i
  by_cases hi : i = .auditLogs
  · subst hi
    simp only [own, unrecorded, Function.update_self]
  · simp only [own, unrecorded, Function.update_of_ne hi]

theorem rest_unrecorded {u : String} (h : rest u t = rest u s) :
    rest u (unrecorded s t) = rest u s := by
  funext i
  by_cases hi : i = .auditLogs
  · subst hi
    simp only [rest, unrecorded, Function.update_self]
  · have hrows := congrFun h i
    simp only [rest, unrecorded, Function.update_of_ne hi] at hrows ⊢
    exact hrows

theorem respondIn_keepsOthers (env : Env) (ctx : Caller) (outage : Option Outage) (r : Request)
    (hnew : NewIds env ctx s) :
    rest ctx.tenantId (respondIn env ctx outage r s).2 = rest ctx.tenantId s := by
  have hkept : rest ctx.tenantId (respond env ctx r s).2 = rest ctx.tenantId s :=
    Links.keepsOthers_of_new env ctx r hnew
  obtain hsame | ⟨-, hnone⟩ | ⟨-, answer, t, hanswer, hunrecorded⟩ :=
    respondIn_cases env ctx outage r s
  · rw [hsame]
    exact hkept
  · rw [hnone]
  · rw [hanswer] at hkept
    rw [hunrecorded]
    exact rest_unrecorded hkept

/-- In one outage a request has one outcome in all stores that agree on the tenant's rows. -/
theorem respondIn_same (env : Env) (ctx : Caller) (outage : Option Outage) (r : Request)
    (hv : own ctx.tenantId s = own ctx.tenantId s') (hs : Linked s) (hs' : Linked s')
    (hnew : NewIds env ctx s) (hnew' : NewIds env ctx s') :
    (respondIn env ctx outage r s).1 = (respondIn env ctx outage r s').1 ∧
      own ctx.tenantId (respondIn env ctx outage r s).2 =
        own ctx.tenantId (respondIn env ctx outage r s').2 := by
  have hsame := Links.sameOutcome_of_linked env ctx r hv hs hs' hnew hnew'
  rcases hrespond : respond env ctx r s with ⟨result, t⟩
  rcases hrespond' : respond env ctx r s' with ⟨result', t'⟩
  rw [SameOutcome, hrespond, hrespond'] at hsame
  obtain ⟨rfl, hrows⟩ := hsame
  unfold respondIn
  rw [hrespond, hrespond']
  cases outage with
  | none => exact ⟨rfl, hrows⟩
  | some outage =>
    cases outage with
    | statement => exact ⟨rfl, hv⟩
    | audit =>
      cases result with
      | error e => exact ⟨rfl, hrows⟩
      | ok answer =>
        dsimp only
        split
        · refine ⟨rfl, ?_⟩
          rw [own_unrecorded, own_unrecorded, hv]
          exact congrArg (Function.update · .auditLogs _) hrows
        · exact ⟨rfl, hrows⟩

theorem respondIn_shown {e : ApiError} (h : (respondIn env ctx outage r s).1 = .error e) :
    isShown e.status := by
  have hinternal : isShown internalError.status := internal_shown
  obtain hsame | ⟨-, hnone⟩ | ⟨-, answer, t, -, hunrecorded⟩ :=
    respondIn_cases env ctx outage r s
  · rw [hsame] at h
    exact respond_shown h
  · rw [hnone] at h
    cases h
    exact hinternal
  · rw [hunrecorded] at h
    cases h
    exact hinternal

end

/-- A new host whose audit record is not inserted. -/
example : ((respondIn requestEnv userCaller (some .audit) (.createHost namedHost)
    emptyStore).2 .hosts).rows.length = 1 := rfl

end WaOps.Api
