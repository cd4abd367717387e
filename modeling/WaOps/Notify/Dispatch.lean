import WaOps.Incidents.Notifications
import WaOps.Lib.Remote
import WaOps.Notify.Webhook

namespace WaOps.Notify
open Lib Lib.Scoped Lib.Remote Incidents

/-- What is thrown: an Error or anything else. -/
inductive Thrown where
  | error (message : String)
  | other
  deriving DecidableEq, Repr

/-- `err instanceof Error ? err.message : 'unknown error'` -/
def Thrown.message : Thrown → String
  | .error message => message
  | .other => "unknown error"

structure Email where
  sender : String
  recipient : Option Js.Json
  subject : String
  text : String

structure WebhookRequest where
  url : Option Js.Json
  headers : WebhookHeaders
  body : String

inductive Message where
  | email (mail : Email)
  | webhook (request : WebhookRequest)

/-- What becomes of a mail: accepted and answered, or an error and whether it was accepted. -/
inductive MailReply where
  | sent (messageId : Option String)
  | failed (accepted : Bool) (e : Thrown)
  deriving DecidableEq, Repr

inductive FetchReply where
  | response (status : Nat)
  | failed (accepted : Bool) (e : Thrown)
  deriving DecidableEq, Repr

def MailReply.accepted : MailReply → Bool
  | .sent _ => true
  | .failed accepted _ => accepted

def MailReply.reported : MailReply → Bool
  | .sent _ => true
  | .failed _ _ => false

/-- `res.ok` -/
def isOk (status : Nat) : Bool :=
  200 ≤ status && status ≤ 299

def FetchReply.accepted : FetchReply → Bool
  | .response status => isOk status
  | .failed accepted _ => accepted

def FetchReply.reported : FetchReply → Bool
  | .response status => isOk status
  | .failed _ _ => false

/-- What a dispatch gets from outside. -/
structure Env where
  newId : String
  dateNow : ℤ
  smtpFrom : Option String := none
  hmac : String → String → Digest
  /-- `observed_at` as it was received. -/
  observedAt : EventEnvelope → String
  /-- `JSON.stringify(attributes, null, 2)` -/
  attributes : EventEnvelope → String
  /-- `JSON.stringify({ incident_id, event })` -/
  payload : Option String → EventEnvelope → String
  /-- How Node names a value of another type than it asks for, as `an instance of Object`. -/
  described : Js.Json → String
  mail : MailReply
  fetch : FetchReply

/-- The fates of the statements on the database. -/
structure Fates where
  find : Fate Thrown := .answered
  create : Fate Thrown := .answered
  /-- The update after the provider's answer, or for an unknown provider. -/
  record : Fate Thrown := .answered
  /-- The update in the catch block. -/
  fail : Fate Thrown := .answered
  deriving DecidableEq, Repr

/-- A message handed to a provider, whether it accepted it, and whether it said so. -/
structure Call where
  message : Message
  accepted : Bool
  reported : Bool

structure World where
  channels : List NotificationChannel
  deliveries : List NotificationDelivery := []
  calls : List Call := []

abbrev Step (α : Type) := Comp World Thrown α

/-- `config.key`, which throws on null. -/
def readConfig (config : Js.Json) (key : String) : Step (Option Js.Json) :=
  match config with
  | .null => throw (.error ("Cannot read properties of null (reading '" ++ key ++ "')"))
  | config => pure (config.field key)

/-- The secret that `createHmac` gets, which throws on what is not a text. -/
def secretOf (described : Js.Json → String) (secret : Option Js.Json) : Step (Option String) :=
  if Js.falsy secret then pure none
  else
    match secret with
    | some (.string text) => pure (some text)
    | some value =>
      throw (.error ("The \"key\" argument must be of type string or an instance of ArrayBuffer, " ++
        "Buffer, TypedArray, DataView, KeyObject, or CryptoKey. Received " ++ described value))
    | none => pure none

def handOver (message : Message) (accepted reported : Bool) : Step Unit :=
  statement fun w => (.ok (), { w with calls := w.calls ++ [{ message, accepted, reported }] })

def updateDelivery (fate : Fate Thrown) (id : String)
    (f : NotificationDelivery → NotificationDelivery) : Step Unit :=
  call fate fun w => { w with deliveries := w.deliveries.map fun d => if d.id = id then f d else d }

/-- `prisma.notificationDelivery.create`, which throws where the id is taken. -/
def createDelivery (fate : Fate Thrown) (delivery : NotificationDelivery) : Step Unit := do
  let taken ← query fun w : World => w.deliveries.any (·.id = delivery.id)
  if taken then throw (.error "Unique constraint failed on the fields: (id)")
  else call fate fun w => { w with deliveries := w.deliveries ++ [delivery] }

variable (env : Env)

def emailText (e : EventEnvelope) : String :=
  "\n".intercalate
    ["Event: " ++ e.eventType,
      "Severity: " ++ e.severity,
      "Tenant: " ++ e.tenantId,
      "Resource: " ++ e.resourceId.getD "n/a",
      "Event ID: " ++ e.eventId,
      "Observed at: " ++ env.observedAt e,
      env.attributes e]

/-- The mail is handed over; the reference of its message comes back. -/
def sendMail (channel : NotificationChannel) (e : EventEnvelope) : Step (Option String) := do
  let recipient ← readConfig channel.configJson "to"
  handOver (.email
    { sender := env.smtpFrom.getD "waops@localhost"
      recipient
      subject := "[WaOPS " ++ e.severity ++ "] " ++ e.eventType
      text := emailText env e }) env.mail.accepted env.mail.reported
  match env.mail with
  | .sent messageId => pure messageId
  | .failed _ thrown => throw thrown

def postWebhook (channel : NotificationChannel) (deliveryId : String)
    (incidentId : Option String) (e : EventEnvelope) : Step Unit := do
  let payload := env.payload incidentId e
  let secret ← readConfig channel.configJson "secret"
  let secret ← secretOf env.described secret
  let url ← readConfig channel.configJson "url"
  handOver (.webhook
    { url
      headers := webhookHeaders env.hmac secret env.dateNow deliveryId payload
      body := payload }) env.fetch.accepted env.fetch.reported
  match env.fetch with
  | .response status =>
    if isOk status then pure () else throw (.error ("webhook responded " ++ toString status))
  | .failed _ thrown => throw thrown

def markDelivered (ref : Option String) (d : NotificationDelivery) : NotificationDelivery :=
  { d with
    status := .delivered
    providerMessageRef := ref.or d.providerMessageRef
    attemptCount := d.attemptCount + 1 }

def markFailed (message : String) (d : NotificationDelivery) : NotificationDelivery :=
  { d with status := .failed, lastError := some message, attemptCount := d.attemptCount + 1 }

/-- The try block. -/
def deliver (fates : Fates) (channel : NotificationChannel) (incidentId : Option String)
    (e : EventEnvelope) : Step DispatchResult := do
  if channel.provider = "email" then
    let ref ← sendMail env channel e
    updateDelivery fates.record env.newId (markDelivered ref)
    pure .delivered
  else if channel.provider = "webhook" then
    postWebhook env channel env.newId incidentId e
    updateDelivery fates.record env.newId (markDelivered none)
    pure .delivered
  else
    updateDelivery fates.record env.newId (markFailed "unknown provider")
    pure (.failed "unknown provider")

/-- The catch block. -/
def giveUp (fates : Fates) (err : Thrown) : Step DispatchResult := do
  updateDelivery fates.fail env.newId (markFailed err.message)
  pure (.failed err.message)

def dispatchToChannel (fates : Fates) (channelId : String) (incidentId : Option String)
    (e : EventEnvelope) : Step DispatchResult := do
  call fates.find id
  let channel ← query fun w : World => w.channels.find? (·.id = channelId)
  match channel with
  | none => pure .skipped
  | some channel =>
    if !channel.enabled then pure .skipped
    else
      createDelivery fates.create
        { id := env.newId
          tenantId := e.tenantId
          channelId
          incidentId := incidentId.or e.resourceId }
      handle (deliver env fates channel incidentId e) (giveUp env fates)

variable {env : Env} {fates : Fates} {w w' : World} {channel : NotificationChannel}
  {channelId : String} {incidentId : Option String} {e : EventEnvelope} {row : NotificationDelivery}
  {rows : List NotificationDelivery} {r : DispatchResult}

/-- At most one message is handed over, and the step succeeds exactly if it was and its provider
said that it accepted it. -/
structure Asked (calls : List Call) (succeeds : Prop) : Prop where
  once : calls.length ≤ 1
  accepted : ∀ c ∈ calls, c.reported = true → c.accepted = true
  reported : succeeds ↔ ∃ c ∈ calls, c.reported = true

def AsksOnce {α : Type} (m : Step α) : Prop :=
  ∀ w, ∃ calls, (outcome m w).2 = { w with calls := w.calls ++ calls } ∧
    Asked calls (∃ a, (outcome m w).1 = .ok a)

theorem AsksOnce.after {α β : Type} {m : Step α} {k : α → Step β}
    (hm : ∀ w, (outcome m w).2 = w) (hk : ∀ a, AsksOnce (k a)) : AsksOnce (m >>= k) := by
  intro w
  have hkept := hm w
  rw [outcome_bind]
  rcases hres : outcome m w with ⟨thrown | a, t⟩ <;> rw [hres] at hkept
  · refine ⟨[], by simpa using hkept, by simp, by simp, ?_⟩
    simp
  · obtain rfl : t = w := hkept
    exact hk a t

/-- The end of a step: the message goes out and the reply decides. -/
theorem AsksOnce.handOver {α : Type} {message : Message} {accepted reported : Bool} {k : Step α}
    (haccepted : reported = true → accepted = true)
    (hk : ∀ w, (outcome k w).2 = w ∧ ((∃ a, (outcome k w).1 = .ok a) ↔ reported = true)) :
    AsksOnce (Notify.handOver message accepted reported >>= fun _ => k) := by
  intro w
  obtain ⟨hkept, hreported⟩ :=
    hk { w with calls := w.calls ++ [{ message, accepted, reported }] }
  refine ⟨[{ message, accepted, reported }], hkept, le_refl _, by simpa using haccepted, ?_⟩
  exact hreported.trans (by simp)

theorem readConfig_keeps (config : Js.Json) (key : String) (w : World) :
    (outcome (readConfig config key) w).2 = w := by
  unfold readConfig
  split <;> rfl

theorem secretOf_keeps (described : Js.Json → String) (secret : Option Js.Json) (w : World) :
    (outcome (secretOf described secret) w).2 = w := by
  unfold secretOf
  split
  · rfl
  · split <;> rfl

theorem sendMail_asksOnce : AsksOnce (sendMail env channel e) := by
  refine AsksOnce.after (readConfig_keeps _ _) fun recipient => AsksOnce.handOver ?_ ?_
  · cases env.mail <;> simp [MailReply.accepted, MailReply.reported]
  · intro w
    cases env.mail <;> simp [MailReply.reported]

theorem postWebhook_asksOnce {id : String} :
    AsksOnce (postWebhook env channel id incidentId e) := by
  refine AsksOnce.after (readConfig_keeps _ _) fun config => ?_
  refine AsksOnce.after (secretOf_keeps _ _) fun secret => ?_
  refine AsksOnce.after (readConfig_keeps _ _) fun url => AsksOnce.handOver ?_ ?_
  · cases env.fetch <;> simp [FetchReply.accepted, FetchReply.reported]
  · intro w
    cases env.fetch with
    | failed accepted thrown => simp [FetchReply.reported]
    | response status =>
      cases hok : isOk status <;> simp [FetchReply.reported, hok]

/-- What the try block has done to the row when it ends, by how it ends. -/
inductive Tried (fates : Fates) (row : NotificationDelivery) :
    Except Thrown DispatchResult → NotificationDelivery → List Call → Prop
  | delivered {ref : Option String} {calls : List Call} (h : ∃ c ∈ calls, c.reported = true) :
    Tried fates row (.ok .delivered) (markDelivered ref row) calls
  | unknown {message : String} :
    Tried fates row (.ok (.failed message)) (markFailed message row) []
  | unsent {err : Thrown} {calls : List Call} (h : ¬∃ c ∈ calls, c.reported = true) :
    Tried fates row (.error err) row calls
  | unrecorded {err : Thrown} {calls : List Call} (h : fates.record = .refused err) :
    Tried fates row (.error err) row calls
  | unanswered {err : Thrown} {after : NotificationDelivery} {calls : List Call}
    (h : fates.record = .lost err) (hid : after.id = row.id)
    (hcount : after.attemptCount = row.attemptCount + 1) :
    Tried fates row (.error err) after calls

/-- An update changes the one row with the id. -/
theorem update_last {id : String} {f : NotificationDelivery → NotificationDelivery}
    (hfresh : ∀ d ∈ rows, d.id ≠ id) (hid : row.id = id) :
    (rows ++ [row]).map (fun d => if d.id = id then f d else d) = rows ++ [f row] := by
  have hrows : rows.map (fun d => if d.id = id then f d else d) = rows.map fun d => d :=
    List.map_congr_left fun d hd => if_neg (hfresh d hd)
  rw [List.map_append, hrows, List.map_id', List.map_singleton, if_pos hid]

theorem updateDelivery_last {fate : Fate Thrown} {id : String}
    {f : NotificationDelivery → NotificationDelivery} (hfresh : ∀ d ∈ rows, d.id ≠ id)
    (hid : row.id = id) (hw : w.deliveries = rows ++ [row]) :
    outcome (updateDelivery fate id f) w =
      (fate.answer,
        { w with deliveries := rows ++ [if fate.effective then f row else row] }) := by
  cases he : fate.effective
  · simp [updateDelivery, he, ← hw]
  · simp [updateDelivery, he, hw, update_last hfresh hid]

/-- The try block has been left with the row and the calls as they are told. -/
def Ends (fates : Fates) (rows : List NotificationDelivery) (row : NotificationDelivery)
    (w : World) (result : Except Thrown DispatchResult × World) : Prop :=
  ∃ after calls,
    result.2 = { w with deliveries := rows ++ [after], calls := w.calls ++ calls } ∧
      calls.length ≤ 1 ∧ (∀ c ∈ calls, c.reported = true → c.accepted = true) ∧
      Tried fates row result.1 after calls

/-- The provider is asked and what it answers is recorded. -/
theorem asked_then_recorded {α : Type} {m : Step α} {ref : α → Option String} (hm : AsksOnce m)
    (hfresh : ∀ d ∈ rows, d.id ≠ env.newId) (hid : row.id = env.newId)
    (hw : w.deliveries = rows ++ [row]) :
    Ends fates rows row w (outcome (do
      let a ← m
      updateDelivery fates.record env.newId (markDelivered (ref a))
      pure .delivered) w) := by
  obtain ⟨calls, hcalls, honce, haccepted, hreported⟩ := hm w
  rw [outcome_bind]
  rcases hres : outcome m w with ⟨thrown | a, t⟩ <;> rw [hres] at hcalls hreported
  · refine ⟨row, calls, ?_, honce, haccepted, .unsent ?_⟩
    · rw [← hw]
      exact hcalls
    · rw [← hreported]
      simp
  · obtain rfl : t = _ := hcalls
    have hsaid := hreported.mp ⟨a, rfl⟩
    dsimp only
    rw [outcome_bind, updateDelivery_last (w := { w with calls := w.calls ++ calls }) hfresh hid hw]
    cases hrecord : fates.record with
    | answered => exact ⟨_, calls, rfl, honce, haccepted, .delivered hsaid⟩
    | refused err => exact ⟨_, calls, rfl, honce, haccepted, .unrecorded hrecord⟩
    | lost err => exact ⟨_, calls, rfl, honce, haccepted, .unanswered hrecord rfl rfl⟩

theorem deliver_ends (hfresh : ∀ d ∈ rows, d.id ≠ env.newId) (hid : row.id = env.newId)
    (hw : w.deliveries = rows ++ [row]) :
    Ends fates rows row w (outcome (deliver env fates channel incidentId e) w) := by
  unfold deliver
  split
  · exact asked_then_recorded sendMail_asksOnce hfresh hid hw
  · split
    · exact asked_then_recorded postWebhook_asksOnce hfresh hid hw
    · rw [outcome_bind, updateDelivery_last hfresh hid hw]
      cases hrecord : fates.record with
      | answered => exact ⟨_, [], by simp [Fate.answer, Fate.effective], by simp, by simp, .unknown⟩
      | refused err =>
        exact ⟨_, [], by simp [Fate.answer, Fate.effective], by simp, by simp,
          .unrecorded hrecord⟩
      | lost err =>
        exact ⟨markFailed "unknown provider" row, [], by simp [Fate.answer, Fate.effective],
          by simp, by simp, .unanswered hrecord rfl rfl⟩

/-- The row a dispatch creates, before anything is known of it. -/
def pendingDelivery (env : Env) (channelId : String) (incidentId : Option String)
    (e : EventEnvelope) : NotificationDelivery :=
  { id := env.newId
    tenantId := e.tenantId
    channelId
    incidentId := incidentId.or e.resourceId }

def World.created (w : World) (delivery : NotificationDelivery) : World :=
  { w with deliveries := w.deliveries ++ [delivery] }

/-- A dispatch to an enabled channel that returns has created its row and left the try block or
the catch block. -/
theorem dispatch_returns (hfind : w.channels.find? (·.id = channelId) = some channel)
    (henabled : channel.enabled = true)
    (hrun : outcome (dispatchToChannel env fates channelId incidentId e) w = (.ok r, w')) :
    (∀ d ∈ w.deliveries, d.id ≠ env.newId) ∧
      outcome (handle (deliver env fates channel incidentId e) (giveUp env fates))
        (w.created (pendingDelivery env channelId incidentId e)) = (.ok r, w') := by
  obtain ⟨_, u, hread, hchecked⟩ := bind_ok hrun
  obtain ⟨-, rfl⟩ := call_ok hread
  rw [outcome_bind, outcome_query] at hchecked
  dsimp only [id] at hchecked
  rw [hfind] at hchecked
  simp only [henabled, Bool.not_true, Bool.false_eq_true, if_false] at hchecked
  obtain ⟨_, v, hcreate, htried⟩ := bind_ok hchecked
  rw [createDelivery, outcome_bind, outcome_query] at hcreate
  dsimp only at hcreate
  split at hcreate
  · cases hcreate
  · rename_i hfresh
    obtain ⟨-, rfl⟩ := call_ok hcreate
    refine ⟨?_, htried⟩
    intro d hd heq
    exact hfresh (List.any_eq_true.mpr ⟨d, hd, decide_eq_true heq⟩)

/-- The catch block that returns has marked the row as failed. -/
theorem giveUp_returns {err : Thrown} (hfresh : ∀ d ∈ rows, d.id ≠ env.newId)
    (hid : row.id = env.newId) (hw : w.deliveries = rows ++ [row])
    (hrun : outcome (giveUp env fates err) w = (.ok r, w')) :
    w' = { w with deliveries := rows ++ [markFailed err.message row] } ∧
      r = .failed err.message := by
  obtain ⟨_, u, hupdate, hrun⟩ := bind_ok hrun
  cases hrun
  have hfate := (call_ok hupdate).1
  rw [updateDelivery_last hfresh hid hw, hfate] at hupdate
  cases hupdate
  exact ⟨rfl, rfl⟩

/-- What a dispatch to an enabled channel that returns leaves behind. -/
theorem dispatch_leaves (env : Env) (fates : Fates) (w w' : World) (channel : NotificationChannel)
    (channelId : String) (incidentId : Option String) (e : EventEnvelope) (r : DispatchResult)
    (hfind : w.channels.find? (·.id = channelId) = some channel)
    (henabled : channel.enabled = true)
    (hrun : outcome (dispatchToChannel env fates channelId incidentId e) w = (.ok r, w')) :
    ∃ row calls, w'.deliveries = w.deliveries ++ [row] ∧ w'.calls = w.calls ++ calls ∧
      calls.length ≤ 1 ∧
      (row.status = .delivered ∧ r = .delivered ∧ (∃ c ∈ calls, c.accepted = true) ∨
        row.status = .failed ∧ ∃ message, row.lastError = some message ∧ r = .failed message) ∧
      ((∃ c ∈ calls, c.reported = true) → fates.record = .answered → row.status = .delivered) ∧
      (row.attemptCount = 1 ∨ row.attemptCount = 2 ∧ ∃ err, fates.record = .lost err) := by
  obtain ⟨hfresh, hrun⟩ := dispatch_returns hfind henabled hrun
  have hends : Ends fates w.deliveries (pendingDelivery env channelId incidentId e)
      (w.created (pendingDelivery env channelId incidentId e))
      (outcome (deliver env fates channel incidentId e)
        (w.created (pendingDelivery env channelId incidentId e))) :=
    deliver_ends hfresh rfl rfl
  obtain ⟨after, calls, hstate, honce, haccepted, htried⟩ := hends
  rw [outcome_handle] at hrun
  rcases htry : outcome (deliver env fates channel incidentId e)
    (w.created (pendingDelivery env channelId incidentId e)) with ⟨result, u⟩
  rw [htry] at hrun hstate htried
  dsimp only at hstate htried hrun
  subst hstate
  cases htried with
  | delivered hsaid =>
    cases hrun
    obtain ⟨c, hc, hreported⟩ := hsaid
    exact ⟨_, calls, rfl, rfl, honce, .inl ⟨rfl, rfl, c, hc, haccepted c hc hreported⟩,
      fun _ _ => rfl, .inl rfl⟩
  | unknown =>
    cases hrun
    exact ⟨_, [], rfl, rfl, honce, .inr ⟨rfl, _, rfl, rfl⟩, by simp, .inl rfl⟩
  | unsent hsaid =>
    obtain ⟨rfl, rfl⟩ := giveUp_returns hfresh rfl rfl hrun
    exact ⟨_, calls, rfl, rfl, honce, .inr ⟨rfl, _, rfl, rfl⟩, fun h => absurd h hsaid, .inl rfl⟩
  | unrecorded hrecord =>
    obtain ⟨rfl, rfl⟩ := giveUp_returns hfresh rfl rfl hrun
    refine ⟨_, calls, rfl, rfl, honce, .inr ⟨rfl, _, rfl, rfl⟩, ?_, .inl rfl⟩
    intro _ hanswered
    rw [hanswered] at hrecord
    cases hrecord
  | unanswered hrecord hid hcount =>
    obtain ⟨rfl, rfl⟩ := giveUp_returns hfresh hid rfl hrun
    refine ⟨_, calls, rfl, rfl, honce, .inr ⟨rfl, _, rfl, rfl⟩, ?_, .inr ⟨?_, _, hrecord⟩⟩
    · intro _ hanswered
      rw [hanswered] at hrecord
      cases hrecord
    · exact congrArg (· + 1) hcount

/-- What the provider makes of a message, as an answer or the text of an error. -/
def send (env : Env) (channel : NotificationChannel) (delivery : NotificationDelivery)
    (e : EventEnvelope) : Except String (Option String) :=
  let asked : Step (Option String) :=
    if channel.provider = "email" then sendMail env channel e
    else (fun _ => none) <$> postWebhook env channel delivery.id delivery.incidentId e
  (outcome asked { channels := [] }).1.mapError Thrown.message

/-- The answer depends on neither the world nor what is sent. -/
def SameAnswer {α : Type} (m m' : Step α) : Prop :=
  ∀ w v, (outcome m w).1 = (outcome m' v).1

theorem SameAnswer.bind {α β : Type} {m m' : Step α} {k k' : α → Step β} (hm : SameAnswer m m')
    (hk : ∀ a, SameAnswer (k a) (k' a)) : SameAnswer (m >>= k) (m' >>= k') := by
  intro w v
  have hanswer := hm w v
  rw [outcome_bind, outcome_bind]
  rcases hmw : outcome m w with ⟨result, w'⟩
  rcases hmv : outcome m' v with ⟨result', v'⟩
  rw [hmw, hmv] at hanswer
  obtain rfl : result = result' := hanswer
  cases result with
  | error thrown => rfl
  | ok a => exact hk a w' v'

theorem readConfig_answer {config : Js.Json} {key : String} :
    SameAnswer (readConfig config key) (readConfig config key) := by
  intro w v
  unfold readConfig
  split <;> rfl

theorem secretOf_answer {described : Js.Json → String} {secret : Option Js.Json} :
    SameAnswer (secretOf described secret) (secretOf described secret) := by
  intro w v
  unfold secretOf
  split
  · rfl
  · split <;> rfl

theorem sendMail_answer : SameAnswer (sendMail env channel e) (sendMail env channel e) := by
  refine .bind readConfig_answer fun recipient => .bind (fun _ _ => rfl) fun _ w v => ?_
  cases env.mail <;> rfl

theorem postWebhook_answer {id : String} {incidentId' : Option String} :
    SameAnswer (postWebhook env channel id incidentId e)
      (postWebhook env channel id incidentId' e) := by
  refine .bind readConfig_answer fun config => .bind secretOf_answer fun secret => ?_
  refine .bind readConfig_answer fun url => .bind (fun _ _ => rfl) fun _ w v => ?_
  cases env.fetch with
  | failed accepted thrown => rfl
  | response status => cases hok : isOk status <;> simp [hok]

theorem giveUp_answered {err : Thrown} (hfresh : ∀ d ∈ rows, d.id ≠ env.newId)
    (hid : row.id = env.newId) (hw : w.deliveries = rows ++ [row]) :
    outcome (giveUp env {} err) w =
      (.ok (.failed err.message),
        { w with deliveries := rows ++ [markFailed err.message row] }) := by
  rw [giveUp, outcome_bind, updateDelivery_last hfresh hid hw]
  rfl

/-- The row and the answer that go with what the provider made of the message. -/
def recorded (row : NotificationDelivery) : Except String (Option String) →
    DispatchResult × NotificationDelivery
  | .ok ref => (.delivered, markDelivered ref row)
  | .error message => (.failed message, markFailed message row)

/-- Where the updates are answered, the try block and the catch block record the answer. -/
theorem handled_answer {α : Type} {m : Step α} {ref : α → Option String} (hm : AsksOnce m)
    (hfresh : ∀ d ∈ rows, d.id ≠ env.newId) (hid : row.id = env.newId)
    (hw : w.deliveries = rows ++ [row]) :
    ∃ calls, outcome (handle (do
        let a ← m
        updateDelivery .answered env.newId (markDelivered (ref a))
        pure .delivered) (giveUp env {})) w =
      (.ok (recorded row (((outcome m w).1.map ref).mapError Thrown.message)).1,
        { w with
          deliveries := rows ++
            [(recorded row (((outcome m w).1.map ref).mapError Thrown.message)).2]
          calls := w.calls ++ calls }) := by
  obtain ⟨calls, hcalls, -⟩ := hm w
  refine ⟨calls, ?_⟩
  rw [outcome_handle, outcome_bind]
  rcases hres : outcome m w with ⟨thrown | a, t⟩ <;> rw [hres] at hcalls
  · obtain rfl : t = _ := hcalls
    exact giveUp_answered (w := { w with calls := w.calls ++ calls }) hfresh hid hw
  · obtain rfl : t = _ := hcalls
    dsimp only
    rw [outcome_bind, updateDelivery_last (w := { w with calls := w.calls ++ calls }) hfresh hid hw]
    rfl

theorem handled_unknown (hfresh : ∀ d ∈ rows, d.id ≠ env.newId) (hid : row.id = env.newId)
    (hw : w.deliveries = rows ++ [row]) (hemail : channel.provider ≠ "email")
    (hwebhook : channel.provider ≠ "webhook") :
    outcome (handle (deliver env {} channel incidentId e) (giveUp env {})) w =
      (.ok (recorded row (.error "unknown provider")).1,
        { w with deliveries := rows ++ [(recorded row (.error "unknown provider")).2] }) := by
  rw [outcome_handle, deliver, if_neg hemail, if_neg hwebhook, outcome_bind,
    updateDelivery_last hfresh hid hw]
  rfl

/-- What a dispatch does once it has found its channel. -/
theorem dispatch_found : outcome (dispatchToChannel env {} channelId incidentId e) w =
    match w.channels.find? (·.id = channelId) with
    | none => (.ok .skipped, w)
    | some channel =>
      if !channel.enabled then (.ok .skipped, w)
      else
        outcome (createDelivery .answered (pendingDelivery env channelId incidentId e) >>= fun _ =>
          handle (deliver env {} channel incidentId e) (giveUp env {})) w := by
  rw [dispatchToChannel, outcome_bind, outcome_answered]
  dsimp only [id]
  rw [outcome_bind, outcome_query]
  dsimp only
  split
  · rfl
  · split <;> rfl

theorem create_answered {delivery : NotificationDelivery}
    (hfresh : ∀ d ∈ w.deliveries, d.id ≠ delivery.id) :
    outcome (createDelivery .answered delivery) w = (.ok (), w.created delivery) := by
  have htaken : w.deliveries.any (·.id = delivery.id) = false := by
    simpa [List.any_eq_false] using hfresh
  rw [createDelivery, outcome_bind, outcome_query]
  dsimp only
  rw [htaken]
  rfl

/-- The row and the answer of the notifier's dispatch to an enabled channel. -/
theorem notifier_recorded {s : Notifier}
    (hfind : s.channels.find? (·.id = channelId) = some channel)
    (henabled : channel.enabled = true) :
    let row := pendingDelivery env channelId incidentId e
    let answer :=
      if channel.provider = "email" ∨ channel.provider = "webhook" then send env channel row e
      else .error "unknown provider"
    let answered := s.dispatchToChannel (send env) (fun _ => env.newId) channelId incidentId e
    answered.2 = (recorded row answer).1 ∧
      answered.1.deliveries = s.deliveries ++ [(recorded row answer).2] := by
  simp only [Notifier.dispatchToChannel, hfind, henabled, Bool.not_true, Bool.false_eq_true,
    if_false]
  split
  · rename_i ref href
    rw [pendingDelivery, href]
    simp [recorded, markDelivered]
  · rename_i message hmessage
    rw [pendingDelivery, hmessage]
    simp [recorded, markFailed]

/-- The try block and the catch block record what the provider made of the message. -/
theorem handled_recorded (hfresh : ∀ d ∈ rows, d.id ≠ env.newId) (hid : row.id = env.newId)
    (hw : w.deliveries = rows ++ [row]) :
    let answer :=
      if channel.provider = "email" ∨ channel.provider = "webhook" then send env channel row e
      else .error "unknown provider"
    ∃ calls, outcome (handle (deliver env {} channel incidentId e) (giveUp env {})) w =
      (.ok (recorded row answer).1,
        { w with deliveries := rows ++ [(recorded row answer).2], calls := w.calls ++ calls }) := by
  intro answer
  by_cases hemail : channel.provider = "email"
  · have hanswer : answer = ((outcome (sendMail env channel e) w).1.map id).mapError
        Thrown.message := by
      simp only [answer, hemail, true_or, if_true, send]
      rw [sendMail_answer w { channels := [] }]
      cases (outcome (sendMail env channel e) { channels := [] }).1 <;> rfl
    rw [hanswer, deliver, if_pos hemail]
    exact handled_answer sendMail_asksOnce hfresh hid hw
  · by_cases hwebhook : channel.provider = "webhook"
    · have hanswer : answer = ((outcome (postWebhook env channel env.newId incidentId e) w).1.map
          fun _ => none).mapError Thrown.message := by
        have hsend : answer = send env channel row e := if_pos (.inr hwebhook)
        rw [hsend, send, if_neg hemail, outcome_map, ← hid]
        rw [postWebhook_answer w { channels := [] }]
      rw [hanswer, deliver, if_neg hemail, if_pos hwebhook]
      exact handled_answer postWebhook_asksOnce hfresh hid hw
    · have hanswer : answer = .error "unknown provider" := by
        simp only [answer, hemail, hwebhook, or_self, if_false]
      refine ⟨[], ?_⟩
      rw [hanswer, handled_unknown hfresh hid hw hemail hwebhook, List.append_nil]

/-- Where every statement is answered a dispatch leaves the rows and gives the answer of
`Notifier.dispatchToChannel`. -/
theorem dispatch_answered (s : Notifier) (hchannels : w.channels = s.channels)
    (hdeliveries : w.deliveries = s.deliveries) (hfresh : ∀ d ∈ w.deliveries, d.id ≠ env.newId) :
    let answered := s.dispatchToChannel (send env) (fun _ => env.newId) channelId incidentId e
    (outcome (dispatchToChannel env {} channelId incidentId e) w).1 = .ok answered.2 ∧
      (outcome (dispatchToChannel env {} channelId incidentId e) w).2.deliveries =
        answered.1.deliveries := by
  intro answered
  rw [dispatch_found]
  cases hfind : w.channels.find? (·.id = channelId) with
  | none =>
    have hskipped : answered = (s, .skipped) := by
      simp only [answered, Notifier.dispatchToChannel, ← hchannels, hfind]
    rw [hskipped]
    exact ⟨rfl, hdeliveries⟩
  | some channel =>
    cases henabled : channel.enabled with
    | false =>
      have hskipped : answered = (s, .skipped) := by
        simp only [answered, Notifier.dispatchToChannel, ← hchannels, hfind, henabled,
          Bool.not_false, if_true]
      rw [hskipped]
      simp only [henabled, Bool.not_false, if_true]
      exact ⟨trivial, hdeliveries⟩
    | true =>
      obtain ⟨hresult, hrows⟩ : answered.2 = _ ∧ answered.1.deliveries = _ :=
        notifier_recorded (hchannels ▸ hfind) henabled
      obtain ⟨calls, hhandled⟩ : ∃ calls, outcome (handle (deliver env {} channel incidentId e)
          (giveUp env {})) (w.created (pendingDelivery env channelId incidentId e)) = (_, _) :=
        handled_recorded hfresh rfl rfl
      simp only [henabled, Bool.not_true, Bool.false_eq_true, if_false]
      rw [outcome_bind, create_answered hfresh]
      dsimp only
      rw [hhandled, hresult, hrows, hdeliveries]
      exact ⟨rfl, rfl⟩

/-- The row and the answer tell whether the message was accepted, and the row counts the calls. -/
def Truthful (row : NotificationDelivery) (calls : List Call) (r : DispatchResult) : Prop :=
  (row.status = .delivered ↔ ∃ c ∈ calls, c.accepted = true) ∧
    (row.status = .delivered ∨ row.status = .failed ∧ row.lastError ≠ none) ∧
    (row.status = .delivered ↔ r = .delivered) ∧
    row.attemptCount = calls.length

def sampleEnv : Env :=
  { newId := "dlv_1"
    dateNow := 1800000000000
    hmac := fun _ _ => sampleDigest
    observedAt := fun _ => "2026-09-25T12:00:00.000Z"
    attributes := fun e => e.attributes
    payload := fun _ e => e.attributes
    described := fun _ => "an instance of Object"
    mail := .sent (some "msg_1")
    fetch := .response 200 }

def oomEvent : EventEnvelope :=
  { eventId := "evt_1"
    tenantId := "ten_1"
    eventType := "container.oom"
    severity := "critical"
    fingerprint := none }

def sampleChannel (provider : String) : NotificationChannel :=
  { id := "chn_1"
    tenantId := "ten_1"
    provider
    configJson := .object [("to", .string "ops@localhost")] }

def sampleDispatch (provider : String) (fates : Fates) : Except Thrown DispatchResult × World :=
  outcome (dispatchToChannel sampleEnv fates "chn_1" none oomEvent)
    { channels := [sampleChannel provider] }

/-- An unknown provider counts as an attempt without a call, and a mail that was accepted leaves
a failed row when the update after it fails. -/
theorem dispatch_not_truthful :
    (∃ row, (sampleDispatch "sms" {}).2.deliveries = [row] ∧
        (sampleDispatch "sms" {}).1 = .ok (.failed "unknown provider") ∧
        ¬Truthful row (sampleDispatch "sms" {}).2.calls (.failed "unknown provider")) ∧
      ∃ row, (sampleDispatch "email" { record := .refused (.error "timeout") }).2.deliveries =
          [row] ∧
        (sampleDispatch "email" { record := .refused (.error "timeout") }).1 =
          .ok (.failed "timeout") ∧
        ¬Truthful row (sampleDispatch "email" { record := .refused (.error "timeout") }).2.calls
          (.failed "timeout") := by
  constructor
  · refine ⟨_, rfl, rfl, ?_⟩
    rintro ⟨-, -, -, hcount⟩
    exact absurd hcount (by decide)
  · refine ⟨_, rfl, rfl, ?_⟩
    rintro ⟨hiff, -⟩
    exact absurd (hiff.mpr ⟨_, List.mem_cons_self, rfl⟩) (by decide)

/-- A mail that is accepted, answered and recorded. -/
theorem mail_delivered :
    ∃ row calls, (sampleDispatch "email" {}).2.deliveries = [] ++ [row] ∧
      (sampleDispatch "email" {}).2.calls = [] ++ calls ∧ calls.length ≤ 1 ∧
      (row.status = .delivered ∧ DispatchResult.delivered = .delivered ∧
          (∃ c ∈ calls, c.accepted = true) ∨
        row.status = .failed ∧ ∃ message, row.lastError = some message ∧
          DispatchResult.delivered = .failed message) ∧
      ((∃ c ∈ calls, c.reported = true) → ({} : Fates).record = .answered →
        row.status = .delivered) ∧
      (row.attemptCount = 1 ∨ row.attemptCount = 2 ∧ ∃ err, ({} : Fates).record = .lost err) :=
  dispatch_leaves sampleEnv {} { channels := [sampleChannel "email"] } _ (sampleChannel "email")
    "chn_1" none oomEvent .delivered rfl rfl rfl

end WaOps.Notify
