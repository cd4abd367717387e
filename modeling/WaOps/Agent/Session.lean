import WaOps.Agent.Buffer
import WaOps.Lib.Runs

namespace WaOps.Agent

/-- The body of SendMetrics. The batches are the ones PeekBatch joined; only their samples,
concatenated, are sent. -/
structure Request (α : Type) where
  agentId : String
  sequence : Int
  batches : List (Item α)
  deriving DecidableEq, Repr

def Request.samples {α : Type} (r : Request α) : List α :=
  r.batches.flatMap Item.samples

/-- A job of ingest.metrics; its id reads metrics_<agentId>_<sequence>. -/
structure Job (α : Type) where
  agentId : String
  sequence : Int
  batches : List (Item α)
  deriving DecidableEq, Repr

def Job.samples {α : Type} (j : Job α) : List α :=
  j.batches.flatMap Item.samples

def Request.job {α : Type} (r : Request α) : Job α :=
  { agentId := r.agentId, sequence := r.sequence, batches := r.batches }

inductive Reply where
  | acked (sequence : Int)
  | error (status : Nat)
  deriving DecidableEq, Repr

/-- What the metrics handler finds outside the request it is given. -/
structure Gate where
  identity : Option String
  rateLimited : Bool := false
  parsed : Bool := true
  addFails : Bool := false
  /-- The job is added but the handler fails before it answers. -/
  closeFails : Bool := false
  deriving DecidableEq, Repr

variable {α : Type}

/-- queue.add: a job whose id is present is ignored. -/
def addJob (jobs : List (Job α)) (job : Job α) : List (Job α) :=
  if jobs.any (fun j => j.agentId = job.agentId ∧ j.sequence = job.sequence) then jobs
  else jobs ++ [job]

/-- POST /api/v1/agents/metrics. -/
def metrics (g : Gate) (r : Request α) (jobs : List (Job α)) : List (Job α) × Reply :=
  match g.identity with
  | none => (jobs, .error 401)
  | some agentId =>
    if g.rateLimited then (jobs, .error 429)
    else if !g.parsed then (jobs, .error 400)
    else if r.agentId ≠ agentId then (jobs, .error 403)
    else if g.addFails then (jobs, .error 500)
    else
      let jobs' := addJob jobs { agentId, sequence := r.sequence, batches := r.batches }
      if g.closeFails then (jobs', .error 500) else (jobs', .acked r.sequence)

inductive Thread where
  | scheduler | shutdown
  deriving DecidableEq, Repr

/-- Where a call of `flush` stands. -/
inductive Pc where
  | idle
  /-- At the head of the attempt loop. -/
  | ready (attempt : Nat)
  | waiting (attempt : Nat) (req : Nat)
  | acking (sequence : Int)
  /-- The batch is acknowledged; OnFlushed is due. -/
  | flushed
  /-- NextSequence was read; it is not compared with creds.Sequence yet. -/
  | comparing (nextSeq : Int)
  | assigning (nextSeq : Int)
  | saving
  deriving DecidableEq, Repr

/-- What of credentials.State matters here. -/
structure Creds where
  agentId : String := ""
  sequence : Int := 0
  deriving DecidableEq, Repr

/-- How a Save ends: it may fail before it opens the file, or after it emptied it. -/
inductive Write where
  | stored | untouched | truncated
  deriving DecidableEq, Repr

/-- What the next Load finds; a file that does not parse counts as an empty state. -/
def Write.file (w : Write) (old new : Creds) : Creds :=
  match w with
  | .stored => new
  | .untouched => old
  | .truncated => {}

/-- One agent process, the network and the gateway's ingest queue. The scheduler's flush and the
shutdown flush of `Run` may overlap; requests and responses may be lost or late. -/
structure Session (α : Type) where
  agentId : String
  buf : Limited α
  scheduler : Pc := .idle
  shutdown : Pc := .idle
  /-- creds.Sequence in memory. -/
  sequence : Int
  /-- agent-state.json. -/
  file : Creds
  inflight : List (Nat × Request α) := []
  replies : List (Nat × Reply) := []
  nextReq : Nat := 0
  jobs : List (Job α) := []
  /- History: the first sequence of this buffer and request of this process, what the buffer
  was given and what it dropped unacknowledged, and every request ever sent. -/
  start : Int
  firstReq : Nat := 0
  nextUid : Nat
  enqueued : List (Item α) := []
  overflowed : List (Item α) := []
  expired : List (Item α) := []
  sent : List (Request α) := []
  deriving DecidableEq, Repr

/-- A process that has loaded its credentials and built its buffer. -/
def boot (creds : Creds) (maxBytes : Int) (jobs : List (Job α)) (nextUid : Nat) : Session α :=
  let buf := newLimitedAt maxBytes (max creds.sequence 1)
  { agentId := creds.agentId, buf, sequence := creds.sequence, file := creds, jobs,
    start := buf.nextSeq, nextUid }

inductive Action (α : Type) where
  | enqueue (samples : List α) (now : Int)
  | dropExpired (ttl now : Int)
  /-- A flush is called. -/
  | begin (th : Thread)
  /-- ShouldThrottle skips the cycle, or the context ends it while it sleeps. -/
  | skip (th : Thread)
  | peek (th : Thread)
  /-- The gateway handles a request that has reached it. -/
  | handle (req : Nat) (g : Gate)
  | loseRequest (req : Nat)
  | loseReply (req : Nat)
  | receive (th : Thread)
  /-- SendMetrics fails without an answer: timeout, reset or cancelled context. -/
  | giveUp (th : Thread)
  | ack (th : Thread)
  | readNext (th : Thread)
  | compare (th : Thread)
  | assign (th : Thread)
  | save (th : Thread) (w : Write)
  deriving DecidableEq, Repr

def Session.pc (s : Session α) : Thread → Pc
  | .scheduler => s.scheduler
  | .shutdown => s.shutdown

def Session.setPc (s : Session α) (th : Thread) (pc : Pc) : Session α :=
  match th with
  | .scheduler => { s with scheduler := pc }
  | .shutdown => { s with shutdown := pc }

/-- The pending batches one request carries. -/
def maxItems : Nat := 100

def retry (attempt : Nat) : Pc :=
  if attempt + 1 < 5 then .ready (attempt + 1) else .idle

/-- The request a flush would send now. -/
def Session.nextRequest (s : Session α) : Request α :=
  { agentId := s.agentId, sequence := (s.buf.peekBatch maxItems).2,
    batches := s.buf.items.take maxItems }

def Session.send (s : Session α) (th : Thread) (attempt : Nat) : Session α :=
  { s.setPc th (.waiting attempt s.nextReq) with
    inflight := s.inflight ++ [(s.nextReq, s.nextRequest)]
    nextReq := s.nextReq + 1
    sent := s.sent ++ [s.nextRequest] }

def Session.peek (s : Session α) (th : Thread) (attempt : Nat) : Session α :=
  if (s.buf.peekBatch maxItems).1.length = 0 then s.setPc th .idle else s.send th attempt

def Session.enqueue (s : Session α) (samples : List α) (now : Int) : Session α :=
  let buf := s.buf.enqueue samples now s.nextUid
  let all := s.buf.items ++ [s.buf.newItem samples now s.nextUid]
  { s with
    buf
    nextUid := s.nextUid + 1
    enqueued := s.enqueued ++ [s.buf.newItem samples now s.nextUid]
    overflowed := s.overflowed ++ all.take (all.length - buf.items.length) }

def Session.dropExpired (s : Session α) (ttl now : Int) : Session α :=
  { s with
    buf := s.buf.dropExpired ttl now
    expired := s.expired ++ s.buf.items.filter (fun it => it.createdAt < now - ttl) }

def Session.handle (s : Session α) (req : Nat) (g : Gate) (r : Request α) : Session α :=
  let (jobs, reply) := metrics g r s.jobs
  { s with
    inflight := s.inflight.filter (fun p => p.1 ≠ req)
    jobs
    replies := s.replies ++ [(req, reply)] }

def step (s : Session α) : Action α → Option (Session α)
  | .enqueue samples now => some (s.enqueue samples now)
  | .dropExpired ttl now => some (s.dropExpired ttl now)
  | .begin th => if s.pc th = .idle then some (s.setPc th (.ready 0)) else none
  | .skip th =>
    match s.pc th with
    | .ready _ => some (s.setPc th .idle)
    | _ => none
  | .peek th =>
    match s.pc th with
    | .ready attempt => some (s.peek th attempt)
    | _ => none
  | .handle req g => (s.inflight.lookup req).map (s.handle req g)
  | .loseRequest req => some { s with inflight := s.inflight.filter (fun p => p.1 ≠ req) }
  | .loseReply req => some { s with replies := s.replies.filter (fun p => p.1 ≠ req) }
  | .receive th =>
    match s.pc th with
    | .waiting attempt req =>
      match s.replies.lookup req with
      | some (.acked sequence) => some (s.setPc th (.acking sequence))
      | some (.error _) => some (s.setPc th (retry attempt))
      | none => none
    | _ => none
  | .giveUp th =>
    match s.pc th with
    | .waiting attempt _ => some (s.setPc th (retry attempt))
    | _ => none
  | .ack th =>
    match s.pc th with
    | .acking sequence => some { s.setPc th .flushed with buf := s.buf.ack sequence }
    | _ => none
  | .readNext th =>
    -- after a flush that succeeded, and at shutdown after any flush
    match th, s.pc th with
    | _, .flushed | .shutdown, .idle => some (s.setPc th (.comparing s.buf.nextSeq))
    | _, _ => none
  | .compare th =>
    match s.pc th with
    | .comparing nextSeq =>
      some (s.setPc th (if nextSeq > s.sequence then .assigning nextSeq else .idle))
    | _ => none
  | .assign th =>
    match s.pc th with
    | .assigning nextSeq => some { s.setPc th .saving with sequence := nextSeq }
    | _ => none
  | .save th w =>
    match s.pc th with
    | .saving =>
      some { s.setPc th .idle with
        file := w.file s.file { agentId := s.agentId, sequence := s.sequence } }
    | _ => none

section
variable (s : Session α) (th : Thread) (p : Pc)

@[simp] theorem setPc_agentId : (s.setPc th p).agentId = s.agentId := by cases th <;> rfl
@[simp] theorem setPc_buf : (s.setPc th p).buf = s.buf := by cases th <;> rfl
@[simp] theorem setPc_sequence : (s.setPc th p).sequence = s.sequence := by cases th <;> rfl
@[simp] theorem setPc_file : (s.setPc th p).file = s.file := by cases th <;> rfl
@[simp] theorem setPc_inflight : (s.setPc th p).inflight = s.inflight := by cases th <;> rfl
@[simp] theorem setPc_replies : (s.setPc th p).replies = s.replies := by cases th <;> rfl
@[simp] theorem setPc_nextReq : (s.setPc th p).nextReq = s.nextReq := by cases th <;> rfl
@[simp] theorem setPc_jobs : (s.setPc th p).jobs = s.jobs := by cases th <;> rfl
@[simp] theorem setPc_start : (s.setPc th p).start = s.start := by cases th <;> rfl
@[simp] theorem setPc_firstReq : (s.setPc th p).firstReq = s.firstReq := by cases th <;> rfl
@[simp] theorem setPc_nextUid : (s.setPc th p).nextUid = s.nextUid := by cases th <;> rfl
@[simp] theorem setPc_enqueued : (s.setPc th p).enqueued = s.enqueued := by cases th <;> rfl
@[simp] theorem setPc_overflowed : (s.setPc th p).overflowed = s.overflowed := by
  cases th <;> rfl
@[simp] theorem setPc_expired : (s.setPc th p).expired = s.expired := by cases th <;> rfl
@[simp] theorem setPc_sent : (s.setPc th p).sent = s.sent := by cases th <;> rfl

theorem setPc_pc (th' : Thread) : (s.setPc th p).pc th' = if th' = th then p else s.pc th' := by
  cases th <;> cases th' <;> rfl

theorem send_pc (n : Nat) (th' : Thread) :
    (s.send th n).pc th' = if th' = th then .waiting n s.nextReq else s.pc th' := by
  cases th <;> cases th' <;> rfl

end

end WaOps.Agent
