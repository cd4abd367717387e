import WaOps.Contracts.EventEnvelope
import WaOps.Gateway.State
import WaOps.Lib.Remote

namespace WaOps.Gateway.Events
open Lib Lib.Scoped Lib.Remote Contracts

/-- What the handler gets from outside the request. -/
structure Env where
  /-- The random id of the n-th event of the request. -/
  randomUuid : ℕ → String
  /-- `new Date().toISOString()` for the n-th event. -/
  receivedAt : ℕ → String
  sha256Hex : String → String
  /-- What `join` makes of a value that is not a text; none where it throws. -/
  toText : Js.Json → Option String

structure Job where
  name : String
  data : EventEnvelope
  jobId : String

/-- The fates of the queue's operations in one request. -/
structure Fates where
  add : ℕ → Fate Unit := fun _ => .answered
  close : Fate Unit := .answered

inductive Reply where
  | accepted (n : ℕ)
  | error (status : ℕ) (code : Option String)
  deriving DecidableEq, Repr

abbrev Queue : Type := List Job

/-- `body?.events ?? []` as it is iterated; none where it cannot be. -/
def eventsOf (body : Option Js.Json) : Option (List Js.Json) :=
  match Js.nullish (body.bind (·.field "events")) (.array []) with
  | .array events => some events
  | .string text => some (text.toList.map fun c => .string (String.singleton c))
  | _ => none

variable (env : Env) (identity : AgentIdentity)

/-- A part of a fingerprint, left out where it is falsy. -/
def segment (part : Option Js.Json) : Option (List String) :=
  if Js.falsy part then some []
  else
    match part with
    | some (.string text) => some [text]
    | some value => (env.toText value).map ([·])
    | none => some []

def composeFingerprint (rule : String) (hostId containerId : Option Js.Json) : Option String := do
  let host ← segment env hostId
  let container ← segment env containerId
  some ("sha256:" ++ env.sha256Hex
    ("|".intercalate ([rule, identity.tenantId] ++ host ++ container)))

/-- A field that is left out where its value is undefined. -/
def given (key : String) (value : Option Js.Json) : List (String × Js.Json) :=
  (value.map fun v => (key, v)).toList

/-- The input of `EventEnvelopeV1.parse`, for an event with the fields. -/
def envelopeInput (n : ℕ) (evt : Js.Json) (observedAt fingerprint : String) : Js.Json :=
  .object (
    [("event_id", .string ("evt_" ++ env.randomUuid n)),
      ("schema_version", .number (.finite 1)),
      ("tenant_id", .string identity.tenantId),
      ("source", .string "waagent"),
      ("source_type", .string "agent"),
      ("resource_id", Js.nullish (evt.field "resource_id") .null)] ++
    given "event_type" (evt.field "event_type") ++
    [("severity", .string
        (match evt.field "event_type" with
        | some (.string "container.oom") => "critical"
        | _ => "high")),
      ("fingerprint", .string fingerprint),
      ("observed_at", .string observedAt),
      ("received_at", .string (env.receivedAt n)),
      ("attributes", Js.nullish (evt.field "attributes") (.object [])),
      ("correlation_id", .null),
      ("trace_id", .null)])

/-- The n-th event as an envelope; none where the handler throws over it. -/
def buildEventEnvelope (n : ℕ) (evt : Js.Json) : Option EventEnvelope :=
  match evt with
  | .null => none
  | evt => do
    let fingerprint ← composeFingerprint env identity "tenant_host_container"
      (evt.field "host_id") (evt.field "resource_id")
    -- only a text has no need of toISOString, which no other JSON value has
    match evt.field "observed_at" with
    | some (.string observedAt) =>
      EventEnvelopeV1 (envelopeInput env identity n evt observedAt fingerprint)
    | _ => none

def jobOf (envelope : EventEnvelope) : Job :=
  { name := envelope.eventType, data := envelope, jobId := envelope.eventId }

/-- The loop, from the n-th event on: how many envelopes there are at its end. -/
def enqueue (add : ℕ → Fate Unit) : ℕ → List Js.Json → Comp Queue Unit ℕ
  | n, [] => pure n
  | n, evt :: events => do
    match buildEventEnvelope env identity n evt with
    | none => throw ()
    | some envelope =>
      call (add n) (· ++ [jobOf envelope])
      enqueue add (n + 1) events

def acceptEvents (fates : Fates) (body : Option Js.Json) : Comp Queue Unit ℕ := do
  match eventsOf body with
  | none => throw ()
  | some events =>
    let n ← enqueue env identity fates.add 0 events
    call fates.close id
    pure n

/-- The handler, for a caller or none; what is thrown is answered with 500. -/
def postAgentEvents (fates : Fates) (caller : Option AgentIdentity) (body : Option Js.Json)
    (queue : Queue) : Reply × Queue :=
  match caller with
  | none => (.error 401 (some "authentication_required"), queue)
  | some identity =>
    match outcome (acceptEvents env identity fates body) queue with
    | (.ok n, queue') => (.accepted n, queue')
    | (.error _, queue') => (.error 500 none, queue')

variable {env : Env} {identity : AgentIdentity} {fates : Fates} {add : ℕ → Fate Unit} {n : ℕ}
  {evt : Js.Json} {events : List Js.Json} {envelope : EventEnvelope} {queue queue' : Queue}
  {body : Option Js.Json} {v : Js.Json}

/-- The job holds a valid envelope of the event, for the caller's tenant. -/
structure Carries (identity : AgentIdentity) (evt : Js.Json) (job : Job) : Prop where
  valid : ∃ input, EventEnvelopeV1 input = some job.data
  jobId : job.jobId = job.data.eventId
  name : job.name = job.data.eventType
  tenantId : job.data.tenantId = identity.tenantId
  eventType : evt.field "event_type" = some (.string job.data.eventType)
  observedAt : evt.field "observed_at" = some (.string job.data.observedAt)
  resourceId : Js.nullish (evt.field "resource_id") .null =
    job.data.resourceId.join.elim .null .string
  attributes : Js.nullish (evt.field "attributes") (.object []) = .object job.data.attributes

/-- The fields of an accepted envelope that an event decides. -/
theorem envelope_fields (h : EventEnvelopeV1 v = some envelope) :
    nonEmpty (v.field "tenant_id") = some envelope.tenantId ∧
      orAbsent textOrNull (v.field "resource_id") = some envelope.resourceId ∧
      nonEmpty (v.field "event_type") = some envelope.eventType ∧
      accept Zod.datetime v "observed_at" = some envelope.observedAt ∧
      record (v.field "attributes") = some envelope.attributes := by
  cases v with
  | object fields =>
    unfold EventEnvelopeV1 at h
    obtain ⟨_, -, h⟩ := Option.bind_eq_some_iff.mp h
    obtain ⟨_, -, h⟩ := Option.bind_eq_some_iff.mp h
    obtain ⟨_, -, h⟩ := Option.bind_eq_some_iff.mp h
    obtain ⟨tenantId, htenant, h⟩ := Option.bind_eq_some_iff.mp h
    obtain ⟨_, -, h⟩ := Option.bind_eq_some_iff.mp h
    obtain ⟨_, -, h⟩ := Option.bind_eq_some_iff.mp h
    obtain ⟨resourceId, hresource, h⟩ := Option.bind_eq_some_iff.mp h
    obtain ⟨eventType, htype, h⟩ := Option.bind_eq_some_iff.mp h
    obtain ⟨_, -, h⟩ := Option.bind_eq_some_iff.mp h
    obtain ⟨_, -, h⟩ := Option.bind_eq_some_iff.mp h
    obtain ⟨observedAt, hobserved, h⟩ := Option.bind_eq_some_iff.mp h
    obtain ⟨_, -, h⟩ := Option.bind_eq_some_iff.mp h
    obtain ⟨attributes, hattributes, h⟩ := Option.bind_eq_some_iff.mp h
    obtain ⟨_, -, h⟩ := Option.bind_eq_some_iff.mp h
    obtain ⟨_, -, h⟩ := Option.bind_eq_some_iff.mp h
    cases h
    exact ⟨htenant, hresource, htype, hobserved, hattributes⟩
  | _ => cases h

theorem nonEmpty_text {o : Option Js.Json} {text : String} (h : nonEmpty o = some text) :
    o = some (.string text) := by
  unfold nonEmpty at h
  split at h
  · split at h
    · cases h
    · cases h
      rfl
  · cases h

theorem record_object {value : Js.Json} {fields : List (String × Js.Json)}
    (h : record (some value) = some fields) : value = .object fields := by
  cases value <;> cases h
  rfl

theorem datetime_text {text observedAt : String}
    (hfield : v.field "observed_at" = some (.string text))
    (h : accept Zod.datetime v "observed_at" = some observedAt) : observedAt = text := by
  rw [accept, Zod.field, hfield, Zod.datetime, Zod.settle] at h
  split at h <;> cases h
  rfl

theorem textOrNull_value {value : Js.Json} {text : Option (Option String)}
    (h : orAbsent textOrNull (some value) = some text) : value = text.join.elim .null .string := by
  cases value <;> cases h <;> rfl

/-- What is built was built from an event with a text as its time. -/
theorem build_some (h : buildEventEnvelope env identity n evt = some envelope) :
    ∃ observedAt fingerprint, evt.field "observed_at" = some (.string observedAt) ∧
      EventEnvelopeV1 (envelopeInput env identity n evt observedAt fingerprint) =
        some envelope := by
  unfold buildEventEnvelope at h
  split at h
  · cases h
  · obtain ⟨fingerprint, -, h⟩ := Option.bind_eq_some_iff.mp h
    split at h
    · rename_i observedAt hobserved
      exact ⟨observedAt, fingerprint, hobserved, h⟩
    · cases h

theorem input_fields (env : Env) (identity : AgentIdentity) (n : ℕ) (evt : Js.Json)
    (observedAt fingerprint : String) :
    let v := envelopeInput env identity n evt observedAt fingerprint
    v.field "tenant_id" = some (.string identity.tenantId) ∧
      v.field "resource_id" = some (Js.nullish (evt.field "resource_id") .null) ∧
      v.field "event_type" = evt.field "event_type" ∧
      v.field "observed_at" = some (.string observedAt) ∧
      v.field "attributes" = some (Js.nullish (evt.field "attributes") (.object [])) := by
  unfold envelopeInput
  generalize evt.field "event_type" = eventType
  cases eventType <;> exact ⟨rfl, rfl, rfl, rfl, rfl⟩

/-- What becomes of an event is a valid envelope of it. -/
theorem build_carries (h : buildEventEnvelope env identity n evt = some envelope) :
    Carries identity evt (jobOf envelope) := by
  obtain ⟨observedAt, fingerprint, hobserved, h⟩ := build_some h
  obtain ⟨htenant, hresource, htype, htime, hattributes⟩ := envelope_fields h
  obtain ⟨htenantField, hresourceField, htypeField, htimeField, hattributesField⟩ :=
    input_fields env identity n evt observedAt fingerprint
  rw [htenantField] at htenant
  rw [hresourceField] at hresource
  rw [htypeField] at htype
  rw [hattributesField] at hattributes
  obtain rfl : observedAt = envelope.observedAt := (datetime_text htimeField htime).symm
  exact
    { valid := ⟨_, h⟩
      jobId := rfl
      name := rfl
      tenantId := (Js.Json.string.inj (Option.some.inj (nonEmpty_text htenant))).symm
      eventType := nonEmpty_text htype
      observedAt := hobserved
      resourceId := textOrNull_value hresource
      attributes := record_object hattributes }

/-- Every event from the n-th on is well formed and its addition answered. -/
def AllAdded (env : Env) (identity : AgentIdentity) (add : ℕ → Fate Unit) : ℕ → List Js.Json → Prop
  | _, [] => True
  | n, evt :: events =>
    (buildEventEnvelope env identity n evt).isSome ∧ add n = .answered ∧
      AllAdded env identity add (n + 1) events

/-- One turn of the loop. -/
theorem enqueue_cons (queue : Queue) :
    outcome (enqueue env identity add n (evt :: events)) queue =
      match buildEventEnvelope env identity n evt with
      | none => (.error (), queue)
      | some envelope =>
        match add n with
        | .answered => outcome (enqueue env identity add (n + 1) events) (queue ++ [jobOf envelope])
        | .refused e => (.error e, queue)
        | .lost e => (.error e, queue ++ [jobOf envelope]) := by
  rw [enqueue]
  cases buildEventEnvelope env identity n evt with
  | none => rfl
  | some envelope =>
    dsimp only
    rw [outcome_bind]
    cases add n <;> rfl

/-- The loop over events all of which are added. -/
theorem enqueue_all (queue : Queue) (h : AllAdded env identity add n events) :
    ∃ jobs, outcome (enqueue env identity add n events) queue =
        (.ok (n + events.length), queue ++ jobs) ∧
      List.Forall₂ (Carries identity) events jobs := by
  induction events generalizing n queue with
  | nil => exact ⟨[], by simp [enqueue], .nil⟩
  | cons evt events ih =>
    obtain ⟨hsome, hadd, hrest⟩ := h
    obtain ⟨envelope, henvelope⟩ := Option.isSome_iff_exists.mp hsome
    obtain ⟨jobs, hrun, hcarries⟩ := ih (queue ++ [jobOf envelope]) hrest
    refine ⟨jobOf envelope :: jobs, ?_, .cons (build_carries henvelope) hcarries⟩
    rw [enqueue_cons, henvelope, hadd]
    dsimp only
    rw [hrun, List.append_assoc, List.length_cons, Nat.add_assoc, Nat.add_comm 1]
    rfl

/-- The loop that comes to its end has added all of its events. -/
theorem enqueue_ok {m : ℕ}
    (h : outcome (enqueue env identity add n events) queue = (.ok m, queue')) :
    AllAdded env identity add n events := by
  induction events generalizing n queue with
  | nil => trivial
  | cons evt events ih =>
    rw [enqueue_cons] at h
    cases henvelope : buildEventEnvelope env identity n evt with
    | none =>
      rw [henvelope] at h
      cases h
    | some envelope =>
      rw [henvelope] at h
      cases hadd : add n with
      | answered =>
        rw [hadd] at h
        exact ⟨henvelope ▸ rfl, hadd, ih h⟩
      | refused e =>
        rw [hadd] at h
        cases h
      | lost e =>
        rw [hadd] at h
        cases h

/-- The loop takes nothing from the queue. -/
theorem enqueue_extends (queue : Queue) :
    ∃ jobs, (outcome (enqueue env identity add n events) queue).2 = queue ++ jobs := by
  induction events generalizing n queue with
  | nil => exact ⟨[], by simp [enqueue]⟩
  | cons evt events ih =>
    rw [enqueue_cons]
    split
    · exact ⟨[], (List.append_nil _).symm⟩
    · rename_i envelope _
      split
      · obtain ⟨jobs, hjobs⟩ := ih (n := n + 1) (queue ++ [jobOf envelope])
        exact ⟨jobOf envelope :: jobs, by rw [hjobs, List.append_assoc]; rfl⟩
      · exact ⟨[], (List.append_nil _).symm⟩
      · exact ⟨[jobOf envelope], rfl⟩

/-- Once an event is added the queue is no longer what it was. -/
theorem enqueue_changes (henvelope : buildEventEnvelope env identity n evt = some envelope)
    (hadd : (add n).effective = true) :
    (outcome (enqueue env identity add n (evt :: events)) queue).2 ≠ queue := by
  have hlonger : ∀ jobs : Queue, queue ++ [jobOf envelope] ++ jobs ≠ queue := by
    intro jobs h
    have hlen := congrArg List.length h
    simp at hlen
  rw [enqueue_cons, henvelope]
  cases hfate : add n with
  | answered =>
    obtain ⟨jobs, hjobs⟩ : ∃ jobs, (outcome (enqueue env identity add (n + 1) events)
        (queue ++ [jobOf envelope])).2 = queue ++ [jobOf envelope] ++ jobs := enqueue_extends _
    dsimp only
    rw [hjobs]
    exact hlonger jobs
  | refused e =>
    rw [hfate] at hadd
    cases hadd
  | lost e =>
    have hone := hlonger []
    rwa [List.append_nil] at hone

/-- An event that is malformed, or whose addition does nothing, ends the loop before it has added
anything. -/
theorem enqueue_none
    (h : ¬((buildEventEnvelope env identity n evt).isSome ∧ (add n).effective = true)) :
    outcome (enqueue env identity add n (evt :: events)) queue = (.error (), queue) := by
  rw [enqueue_cons]
  cases henvelope : buildEventEnvelope env identity n evt with
  | none => rfl
  | some envelope =>
    rw [henvelope] at h
    cases hadd : add n with
    | refused e => rfl
    | answered => simp [hadd, Fate.effective] at h
    | lost e => simp [hadd, Fate.effective] at h

/-- Either every event is queued as one valid envelope and the answer counts them, or the answer
is an error and nothing is queued. -/
def AllOrNone (env : Env) (identity : AgentIdentity) (fates : Fates) (body : Option Js.Json)
    (queue : Queue) : Prop :=
  (∃ events jobs, eventsOf body = some events ∧
      postAgentEvents env fates (some identity) body queue =
        (.accepted events.length, queue ++ jobs) ∧
      List.Forall₂ (Carries identity) events jobs) ∨
    ∃ status code, postAgentEvents env fates (some identity) body queue =
      (.error status code, queue)

theorem post_uniterable (h : eventsOf body = none) :
    postAgentEvents env fates (some identity) body queue = (.error 500 none, queue) := by
  rw [postAgentEvents, acceptEvents, h]
  rfl

/-- The request is answered as the loop ends, unless closing the queue fails. -/
theorem post_events (h : eventsOf body = some events) :
    postAgentEvents env fates (some identity) body queue =
      match outcome (enqueue env identity fates.add 0 events) queue with
      | (.ok n, queue') =>
        (if fates.close = .answered then .accepted n else .error 500 none, queue')
      | (.error _, queue') => (.error 500 none, queue') := by
  rw [postAgentEvents, acceptEvents, h]
  dsimp only
  rw [outcome_bind]
  rcases outcome (enqueue env identity fates.add 0 events) queue with ⟨e | n, queue'⟩
  · rfl
  · dsimp only
    rw [outcome_bind, outcome_call]
    cases hclose : fates.close <;> simp [Fate.answer, Fate.effective]

/-- A request is all or none unless its first event gets on the queue and it fails later. -/
theorem post_all_or_none_iff (env : Env) (identity : AgentIdentity) (fates : Fates)
    (body : Option Js.Json) (queue : Queue) :
    AllOrNone env identity fates body queue ↔
      ∀ first rest, eventsOf body = some (first :: rest) →
        (buildEventEnvelope env identity 0 first).isSome → (fates.add 0).effective = true →
          AllAdded env identity fates.add 0 (first :: rest) ∧ fates.close = .answered := by
  constructor
  · rintro (⟨events, jobs, hevents, hpost, -⟩ | ⟨status, code, hpost⟩) first rest hbody hbuilt hadd
    · rw [post_events hbody] at hpost
      obtain rfl : events = first :: rest := Option.some.inj (hevents.symm.trans hbody)
      rcases hrun : outcome (enqueue env identity fates.add 0 (first :: rest)) queue
        with ⟨e | m, queue'⟩
      · rw [hrun] at hpost
        cases hpost
      · rw [hrun] at hpost
        dsimp only at hpost
        split at hpost
        · rename_i hclose
          exact ⟨enqueue_ok hrun, hclose⟩
        · cases hpost
    · obtain ⟨envelope, henvelope⟩ := Option.isSome_iff_exists.mp hbuilt
      have hchanged :
          (outcome (enqueue env identity fates.add 0 (first :: rest)) queue).2 ≠ queue :=
        enqueue_changes henvelope hadd
      rw [post_events hbody] at hpost
      rcases hrun : outcome (enqueue env identity fates.add 0 (first :: rest)) queue
        with ⟨e | m, queue'⟩ <;> rw [hrun] at hpost hchanged
      · exact absurd (congrArg Prod.snd hpost) hchanged
      · exact absurd (congrArg Prod.snd hpost) hchanged
  · intro h
    cases hbody : eventsOf body with
    | none => exact .inr ⟨500, none, post_uniterable hbody⟩
    | some events =>
      cases events with
      | nil =>
        by_cases hclose : fates.close = .answered
        · refine .inl ⟨[], [], hbody, ?_, .nil⟩
          rw [post_events hbody, enqueue, outcome_pure]
          dsimp only
          rw [if_pos hclose, List.append_nil]
          rfl
        · refine .inr ⟨500, none, ?_⟩
          rw [post_events hbody, enqueue, outcome_pure]
          dsimp only
          rw [if_neg hclose]
      | cons first rest =>
        by_cases hfirst : (buildEventEnvelope env identity 0 first).isSome ∧
            (fates.add 0).effective = true
        · obtain ⟨hall, hclose⟩ := h first rest hbody hfirst.1 hfirst.2
          obtain ⟨jobs, hrun, hcarries⟩ := enqueue_all queue hall
          refine .inl ⟨first :: rest, jobs, hbody, ?_, hcarries⟩
          rw [post_events hbody, hrun]
          dsimp only
          rw [if_pos hclose, Nat.zero_add]
        · refine .inr ⟨500, none, ?_⟩
          rw [post_events hbody, enqueue_none hfirst]

/-- A well-formed event and one without a time. -/
def mixedBody : Js.Json :=
  .object [("events", .array [
    .object [("event_type", .string "container.oom"), ("resource_id", .string "c1"),
      ("observed_at", .string "2026-09-25T12:00:00Z")],
    .object [("event_type", .string "container.restart"), ("resource_id", .string "c1")]])]

def sampleEnv : Env :=
  { randomUuid := fun _ => "0c5f2f8e-6f0a-4c55-9b1d-3a1f7f6f2b10"
    receivedAt := fun _ => "2026-09-25T12:00:01.000Z"
    -- of `tenant_host_container|ten_1|c1`
    sha256Hex := fun _ => "5d75f85944ecfeb7482e02669e9bc230c0f91355d3b4b5a2980caff188a98e1c"
    toText := fun _ => none }

def sampleAgent : AgentIdentity := { agentId := "agt_1", tenantId := "ten_1" }

/-- The answer is an error and the first event is on the queue. -/
theorem mixed_batch_half_queued :
    ¬AllOrNone sampleEnv sampleAgent {} (some mixedBody) [] := by
  have hreply : (postAgentEvents sampleEnv {} (some sampleAgent) (some mixedBody) []).1 =
      .error 500 none := by
    decide +kernel
  have hqueued : (postAgentEvents sampleEnv {} (some sampleAgent) (some mixedBody) []).2.length =
      1 := by
    decide +kernel
  rintro (⟨events, jobs, -, hpost, -⟩ | ⟨status, code, hpost⟩)
  · rw [hpost] at hreply
    cases hreply
  · rw [hpost] at hqueued
    cases hqueued

end WaOps.Gateway.Events
