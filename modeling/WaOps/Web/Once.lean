import WaOps.Lib.Lists
import WaOps.Web.Client

namespace WaOps.Web
open Lib Lib.Js Lib.Jwt Lib.Lists Lib.Runs
open Api (Answer)
open Auth (Claims)
open RateLimit (FailureMode)
open Server (Exchange Refusal)

/-- The request was answered as asked. -/
def Served.isOk (x : Served) : Bool := x.exchange.reply.result.isOk

def State.servedOf (s : State) (i : Nat) : List Served := s.served.filter (fun x => x.call = i)

def State.packetsOf (s : State) (i : Nat) : List Packet := s.packets.filter (fun p => p.call = i)

/-- The guard refused it for want of a user. -/
def Served.Barred (x : Served) : Prop :=
  x.exchange.reply.result = .error (.failed Server.authenticationRequired) ∧ x.exchange.auth = none

/-- The ids that the audit draws are new. -/
def Recorded (s : State) (a : Action) : Prop :=
  match a with
  | .serve _ _ _ env _ => Api.Audit.NewAuditId env s.server.store
  | _ => True

section
variable (wire : Wire)

def Served.Unauthorized (x : Served) : Prop := (respond wire x.exchange).status = 401

/-- The answer is that of the last request, and the one before it was a 401. -/
def Last (served : List Served) (r : Response) : Prop :=
  ∃ before x, served = before ++ [x] ∧ before.length ≤ 1 ∧
    (∀ y ∈ before, y.Unauthorized wire) ∧ r = respond wire x.exchange

/-- No call is served again but after a 401. -/
structure Spent (served : List Served) (packets : List Packet) : Prop where
  single : packets.length ≤ 1
  length : served.length + packets.length ≤ 2
  before : ∀ x ∈ served.dropLast, x.Unauthorized wire
  waiting : packets ≠ [] → ∀ x ∈ served, x.Unauthorized wire

def cut (whole : Bool) (r : Response) : Response :=
  if whole then r else { r with body := none }

/-- How far a call is, by what the server has served and what is on its way. -/
def Phase (served : List Served) (packets : List Packet) : Pc → Prop
  | .sent retry => packets.length = 1 ∧ served.length = (if retry then 0 else 1) ∧
      ∀ x ∈ served, x.Unauthorized wire
  | .answered retry r => packets = [] ∧ Last wire served r ∧ (retry = true → served.length = 1)
  | .refreshing r | .refreshed _ r =>
    packets = [] ∧ Last wire served r ∧ served.length = 1 ∧ r.status = 401
  | .reading r => packets = [] ∧ Last wire served r
  | .ended outcome whole => Spent wire served packets ∧ (outcome ≠ .threw → packets = [] ∧
      ∃ r, Last wire served r ∧ outcome = settle (cut whole r))

/-- A served request as the server left it. -/
structure Served.Sound (x : Served) : Prop where
  unchanged : x.isOk = false → x.after = x.before ∨ x.exchange.outage = some .audit
  barred : x.exchange.auth = none → x.after = x.before
  status : ∀ refusal, x.exchange.reply.result = .error refusal → 400 ≤ refusal.status
  unauthorized : ∀ refusal, x.exchange.reply.result = .error refusal → refusal.status = 401 →
    x.Barred

structure Tracked (s : State) : Prop where
  packets : ∀ p ∈ s.packets, ∃ call, s.calls[p.call]? = some call ∧ p.request = call.request
  served : ∀ x ∈ s.served, x.Sound ∧
    ∃ call, s.calls[x.call]? = some call ∧ x.exchange.request = call.request
  phase : ∀ i call, s.calls[i]? = some call →
    Phase wire (s.servedOf i) (s.packetsOf i) call.pc

end

section
variable {wire : Wire} {served : List Served} {packets : List Packet} {r : Response} {x : Served}
  {pc : Pc} {call : Call}

theorem Last.spent (h : Last wire served r) : Spent wire served [] := by
  obtain ⟨before, x, rfl, hlength, hbefore, -⟩ := h
  refine ⟨Nat.zero_le 1, ?_, ?_, fun hne => absurd rfl hne⟩
  · simp only [List.length_append, List.length_singleton, List.length_nil]
    omega
  · rw [List.dropLast_concat]
    exact hbefore

theorem Phase.spent (h : Phase wire served packets pc) : Spent wire served packets := by
  cases pc with
  | sent retry =>
    obtain ⟨hpackets, hserved, hall⟩ := h
    refine ⟨hpackets.le, ?_, fun x hx => hall x (List.dropLast_subset _ hx), fun _ => hall⟩
    split at hserved <;> omega
  | answered retry r =>
    obtain ⟨rfl, hlast, -⟩ := h
    exact hlast.spent
  | refreshing r | refreshed ok r =>
    obtain ⟨rfl, hlast, -⟩ := h
    exact hlast.spent
  | reading r =>
    obtain ⟨rfl, hlast⟩ := h
    exact hlast.spent
  | ended outcome whole => exact h.1

/-- Where a request is on its way the call awaits its answer, or has given it up. -/
theorem Phase.awaits (h : Phase wire served packets pc) (hne : packets ≠ []) :
    (∃ retry, pc = .sent retry) ∨ ∃ whole, pc = .ended .threw whole := by
  cases pc with
  | sent retry => exact .inl ⟨retry, rfl⟩
  | answered retry r | refreshing r | refreshed ok r | reading r => exact absurd h.1 hne
  | ended outcome whole =>
    by_cases hthrew : outcome = .threw
    · exact .inr ⟨whole, by rw [hthrew]⟩
    · exact absurd (h.2 hthrew).1 hne

/-- A call whose first request was a 401 has its second on its way. -/
theorem Phase.resent {p : Packet} (h : Phase wire served packets (.refreshed true r)) :
    Phase wire served (packets ++ [p]) (.sent false) := by
  obtain ⟨rfl, ⟨before, x, rfl, -, -, rfl⟩, hone, hstatus⟩ := h
  have hnone : before = [] := by simpa using hone
  subst hnone
  refine ⟨rfl, rfl, ?_⟩
  intro y hy
  rw [List.mem_singleton.mp hy]
  exact hstatus

/-- The request that was on its way has been served, and its answer goes back. -/
theorem Phase.answer {retry : Bool} {p : Packet} (h : Phase wire served [p] (.sent retry)) :
    Phase wire (served ++ [x]) [] (.answered retry (respond wire x.exchange)) := by
  obtain ⟨-, hserved, hall⟩ := h
  have hle : served.length ≤ 1 := by split at hserved <;> omega
  refine ⟨rfl, ⟨served, x, rfl, hle, hall, rfl⟩, fun hretry => ?_⟩
  rw [hretry, if_pos rfl] at hserved
  rw [List.length_append, hserved, List.length_singleton]

/-- A request that its call has given up is served all the same. -/
theorem Spent.serve {p : Packet} (h : Spent wire served [p]) : Spent wire (served ++ [x]) [] where
  single := Nat.zero_le 1
  length := by
    have := h.length
    simp only [List.length_append, List.length_singleton, List.length_nil] at this ⊢
    omega
  before := by
    rw [List.dropLast_concat]
    exact h.waiting (List.cons_ne_nil p [])
  waiting hne := absurd rfl hne

variable {s t : State} {i j : Nat} {a : Action}

/-- A turn of a call takes it further with the requests it has had, or sends the second. -/
theorem advance_effect (wire : Wire) (h : s.advance i call a = some t) :
    (∃ pc accessToken, t = { s.setPc i call pc with accessToken } ∧
      ∀ {served packets}, Phase wire served packets call.pc → Phase wire served packets pc) ∨
    ∃ r, call.pc = .refreshed true r ∧
      t = { s.setPc i call (.sent false) with
            packets := s.packets ++ [s.packet i call.request] } := by
  obtain ⟨request, pc⟩ := call
  cases a with
  | setAccessToken | call | serve | server => cases h
  | arrive k =>
    cases pc with
    | answered retry r =>
      cases h
      refine .inl ⟨_, s.accessToken, rfl, ?_⟩
      intro served packets ⟨hnone, hlast, hone⟩
      split
      · rename_i h401
        exact ⟨hnone, hlast, hone h401.2, h401.1⟩
      · exact ⟨hnone, hlast⟩
    | sent | refreshing | refreshed | reading | ended => cases h
  | lose k =>
    have hthrew : ∀ {served packets}, Phase wire served packets pc →
        Phase wire served packets (.ended .threw false) :=
      fun hphase => ⟨hphase.spent, fun hne => absurd rfl hne⟩
    cases pc with
    | sent | answered | refreshing =>
      cases h
      exact .inl ⟨_, s.accessToken, rfl, hthrew⟩
    | refreshed | reading | ended => cases h
  | refresh k r =>
    cases pc with
    | refreshing first =>
      cases h
      unfold State.refreshed
      split
      · exact .inl ⟨_, r.accessToken, rfl, id⟩
      · exact .inl ⟨_, s.accessToken, rfl, id⟩
    | sent | answered | refreshed | reading | ended => cases h
  | resume k =>
    cases pc with
    | refreshed ok r =>
      cases ok with
      | true =>
        cases h
        exact .inr ⟨r, rfl, rfl⟩
      | false =>
        cases h
        exact .inl ⟨_, s.accessToken, rfl, fun hphase => ⟨hphase.1, hphase.2.1⟩⟩
    | sent | answered | refreshing | reading | ended => cases h
  | read k whole =>
    cases pc with
    | reading r =>
      cases h
      refine .inl ⟨_, s.accessToken, rfl, ?_⟩
      intro served packets hphase
      exact ⟨hphase.spent, fun _ => ⟨hphase.1, r, hphase.2, rfl⟩⟩
    | sent | answered | refreshing | refreshed | ended => cases h

theorem setPc_cases {pc : Pc} {c : Call} (h : (s.setPc i call pc).calls[j]? = some c) :
    j = i ∧ c = { call with pc } ∨ j ≠ i ∧ s.calls[j]? = some c :=
  getElem?_set_cases h

/-- A call that takes a turn is for the same request. -/
theorem setPc_request {pc : Pc} {request : Api.Request} (hcall : s.calls[i]? = some call)
    (h : ∃ c, s.calls[j]? = some c ∧ request = c.request) :
    ∃ c, (s.setPc i call pc).calls[j]? = some c ∧ request = c.request := by
  obtain ⟨c, hc, hrequest⟩ := h
  by_cases hij : i = j
  · subst hij
    obtain ⟨hlt, -⟩ := List.getElem?_eq_some_iff.mp hcall
    cases hcall.symm.trans hc
    exact ⟨_, List.getElem?_set_self hlt, hrequest⟩
  · refine ⟨c, ?_, hrequest⟩
    rw [← hc]
    exact List.getElem?_set_ne hij

theorem Tracked.setPc {pc : Pc} {accessToken : Option String} (h : Tracked wire s)
    (hcall : s.calls[i]? = some call)
    (hphase : ∀ {served packets}, Phase wire served packets call.pc →
      Phase wire served packets pc) :
    Tracked wire { s.setPc i call pc with accessToken } where
  packets p hp := setPc_request hcall (h.packets p hp)
  served x hx := ⟨(h.served x hx).1, setPc_request hcall (h.served x hx).2⟩
  phase j c hc := by
    rcases setPc_cases hc with ⟨rfl, rfl⟩ | ⟨-, hc⟩
    · exact hphase (h.phase j call hcall)
    · exact h.phase j c hc

theorem Tracked.send {r : Response} (h : Tracked wire s) (accessToken : Option String)
    (hcall : s.calls[i]? = some call) (hpc : call.pc = .refreshed true r)
    (p : Packet) (hp : p.call = i ∧ p.request = call.request) :
    Tracked wire { s.setPc i call (.sent false) with packets := s.packets ++ [p], accessToken } where
  packets q hq := by
    rcases List.mem_append.mp hq with hq | hq
    · exact setPc_request hcall (h.packets q hq)
    · rw [List.mem_singleton.mp hq, hp.1]
      exact setPc_request hcall ⟨call, hcall, hp.2⟩
  served x hx := ⟨(h.served x hx).1, setPc_request hcall (h.served x hx).2⟩
  phase j c hc := by
    change Phase wire (s.servedOf j) ((s.packets ++ [p]).filter _) c.pc
    rw [filter_snoc]
    rcases setPc_cases hc with ⟨rfl, rfl⟩ | ⟨hne, hc⟩
    · have hphase := h.phase j call hcall
      rw [hpc] at hphase
      rw [if_pos (by simpa using hp.1)]
      exact hphase.resent
    · rw [if_neg (by simpa [hp.1] using Ne.symm hne)]
      exact h.phase j c hc

/-- No call has been served or has a request on its way before it is made. -/
theorem Tracked.begin (h : Tracked wire s) (request : Api.Request) (p : Packet)
    (hp : p.call = s.calls.length ∧ p.request = request) :
    Tracked wire { s with
      calls := s.calls ++ [{ request, pc := .sent true }], packets := s.packets ++ [p] } := by
  have hlast : (s.calls ++ [{ request, pc := .sent true }])[s.calls.length]? =
      some { request, pc := .sent true } := List.getElem?_concat_length
  have hkept : ∀ {k : Nat} {r : Api.Request}, (∃ c, s.calls[k]? = some c ∧ r = c.request) →
      ∃ c, (s.calls ++ [{ request, pc := .sent true }])[k]? = some c ∧ r = c.request := by
    intro k r ⟨c, hc, hr⟩
    obtain ⟨hlt, -⟩ := List.getElem?_eq_some_iff.mp hc
    exact ⟨c, (List.getElem?_append_left hlt).trans hc, hr⟩
  have hnew : ∀ {k : Nat} {c : Call}, s.calls[k]? = some c → k ≠ s.calls.length := by
    intro k c hc
    obtain ⟨hlt, -⟩ := List.getElem?_eq_some_iff.mp hc
    exact hlt.ne
  refine ⟨?_, fun x hx => ⟨(h.served x hx).1, hkept (h.served x hx).2⟩, ?_⟩
  · intro q hq
    rcases List.mem_append.mp hq with hq | hq
    · exact hkept (h.packets q hq)
    · rw [List.mem_singleton.mp hq, hp.1]
      exact ⟨_, hlast, hp.2⟩
  · intro j c hc
    change Phase wire (s.servedOf j) ((s.packets ++ [p]).filter _) c.pc
    rw [filter_snoc]
    rcases getElem?_append_cases hc with hc | ⟨rfl, rfl⟩
    · have hne : p.call ≠ j := by
        rw [hp.1]
        exact (hnew hc).symm
      rw [if_neg (by simpa using hne)]
      exact h.phase j c hc
    · rw [if_pos (by simpa using hp.1)]
      have hnoPackets : s.packets.filter (fun q => q.call = s.calls.length) = [] := by
        rw [List.filter_eq_nil_iff]
        intro q hq hcall
        obtain ⟨c, hc, -⟩ := h.packets q hq
        exact hnew hc (by simpa using hcall)
      have hnoServed : s.servedOf s.calls.length = [] := by
        rw [State.servedOf, List.filter_eq_nil_iff]
        intro x hx hcall
        obtain ⟨-, c, hc, -⟩ := h.served x hx
        exact hnew hc (by simpa using hcall)
      rw [hnoPackets, hnoServed]
      exact ⟨rfl, rfl, fun x hx => absurd hx List.not_mem_nil⟩

/-- The state once the server has answered a request. -/
def State.afterServe (s : State) (n : Nat) (server : Server.State) (x : Served) : State :=
  { s with server, packets := s.packets.eraseIdx n, served := s.served ++ [x] }

theorem afterServe_other {n : Nat} {p : Packet} (server : Server.State)
    (hn : s.packets[n]? = some p) (hx : x.call = p.call) (hj : p.call ≠ j) :
    (s.afterServe n server x).servedOf j = s.servedOf j ∧
      (s.afterServe n server x).packetsOf j = s.packetsOf j := by
  constructor
  · change (s.served ++ [x]).filter _ = _
    rw [filter_snoc, if_neg (by simpa [hx] using hj)]
    rfl
  · obtain ⟨as, bs, hall, hrest⟩ := filter_eraseIdx hn (fun q => q.call = j)
    rw [if_neg (by simpa using hj), List.append_nil] at hall
    exact hrest.trans hall.symm

/-- The call's one request on its way has become one that is served. -/
theorem afterServe_self {n : Nat} {p : Packet} (server : Server.State)
    (hn : s.packets[n]? = some p) (hx : x.call = p.call)
    (hspent : Spent wire (s.servedOf p.call) (s.packetsOf p.call)) :
    s.packetsOf p.call = [p] ∧ (s.afterServe n server x).packetsOf p.call = [] ∧
      (s.afterServe n server x).servedOf p.call = s.servedOf p.call ++ [x] := by
  obtain ⟨as, bs, hall, hrest⟩ := filter_eraseIdx hn (fun q => q.call = p.call)
  rw [if_pos (by simp)] at hall
  have hsingle := hspent.single
  rw [State.packetsOf, hall, List.length_append, List.length_append, List.length_singleton]
    at hsingle
  have has : as = [] := List.eq_nil_of_length_eq_zero (by omega)
  have hbs : bs = [] := List.eq_nil_of_length_eq_zero (by omega)
  subst has hbs
  refine ⟨hall, hrest, ?_⟩
  change (s.served ++ [x]).filter _ = _
  rw [filter_snoc, if_pos (by simpa using hx)]
  rfl

theorem Tracked.serve {n : Nat} {p : Packet} (h : Tracked wire s) (hn : s.packets[n]? = some p)
    (hcall : x.call = p.call) (hsound : x.Sound) (hrequest : x.exchange.request = p.request)
    (server : Server.State) :
    Tracked wire ((s.afterServe n server x).reply p.call (respond wire x.exchange)) := by
  obtain ⟨call, hc, hp⟩ := h.packets p (List.mem_of_getElem? hn)
  have hphase := h.phase p.call call hc
  obtain ⟨hone, hnone, hserved⟩ := afterServe_self server hn hcall hphase.spent
  have hpackets : ∀ q ∈ (s.afterServe n server x).packets,
      ∃ c, s.calls[q.call]? = some c ∧ q.request = c.request := fun q hq =>
    h.packets q (List.mem_of_mem_eraseIdx hq)
  have hall : ∀ y ∈ (s.afterServe n server x).served,
      y.Sound ∧ ∃ c, s.calls[y.call]? = some c ∧ y.exchange.request = c.request := by
    intro y hy
    rcases List.mem_append.mp hy with hy | hy
    · exact h.served y hy
    · rw [List.mem_singleton.mp hy]
      exact ⟨hsound, call, hcall ▸ hc, hrequest.trans hp⟩
  have hother : ∀ j c, p.call ≠ j → s.calls[j]? = some c →
      Phase wire ((s.afterServe n server x).servedOf j) ((s.afterServe n server x).packetsOf j)
        c.pc := by
    intro j c hj hc
    obtain ⟨hs, hp⟩ := afterServe_other server hn hcall hj
    rw [hs, hp]
    exact h.phase j c hc
  rw [hone] at hphase
  obtain ⟨request, pc⟩ := call
  rcases hphase.awaits (List.cons_ne_nil p []) with ⟨retry, rfl⟩ | ⟨whole, rfl⟩
  · have hreply : (s.afterServe n server x).reply p.call (respond wire x.exchange) =
        (s.afterServe n server x).setPc p.call ⟨request, .sent retry⟩
          (.answered retry (respond wire x.exchange)) := by
      simp only [State.reply, State.afterServe, hc]
    rw [hreply]
    refine ⟨fun q hq => setPc_request hc (hpackets q hq),
      fun y hy => ⟨(hall y hy).1, setPc_request hc (hall y hy).2⟩, ?_⟩
    intro j c hj
    rcases setPc_cases hj with ⟨rfl, rfl⟩ | ⟨hne, hj⟩
    · change Phase wire ((s.afterServe n server x).servedOf p.call)
        ((s.afterServe n server x).packetsOf p.call) _
      rw [hserved, hnone]
      exact hphase.answer
    · exact hother j c (Ne.symm hne) hj
  · have hreply : (s.afterServe n server x).reply p.call (respond wire x.exchange) =
        s.afterServe n server x := by
      simp only [State.reply, State.afterServe, hc]
    rw [hreply]
    refine ⟨hpackets, hall, ?_⟩
    intro j c hj
    by_cases hne : p.call = j
    · subst hne
      cases hc.symm.trans hj
      rw [hserved, hnone]
      exact ⟨hphase.spent.serve, fun hthrew => absurd rfl hthrew⟩
    · exact hother j c hne hj

variable {jwt : JwtService Claims} {mode : FailureMode} {as : List Action}

theorem serve_sound {server : Server.State} {http : Server.Http} {env : Api.Env}
    {request : Api.Request} {outage : Option Api.Outage} {now : Int}
    (hids : Api.Audit.NewAuditId env s.server.store)
    (hs : Server.step jwt mode s.server ⟨now, .request http env request outage⟩ = some server)
    (n : Nat) :
    Served.Sound
      { call := n
        exchange := Server.exchangeOf jwt mode s.server http env request outage now
        before := s.server.store
        after := server.store } where
  unchanged herror := by
    obtain rfl := Server.step_request.mp hs
    by_contra hneither
    obtain ⟨hchanged, hinserted⟩ := not_or.mp hneither
    have hrecorded := ((Server.serve_recorded jwt mode http request outage now hids).2
      hchanged).resolve_left hinserted
    cases hresult :
        (Server.exchangeOf jwt mode s.server http env request outage now).reply.result with
    | error refusal =>
      simp only [Server.Exchange.entries, hresult] at hrecorded
      split at hrecorded
      · rename_i hok
        cases hok
      · exact hrecorded rfl
    | ok answer =>
      simp only [Served.isOk, hresult] at herror
      cases herror
  barred hnone := by
    obtain rfl := Server.step_request.mp hs
    obtain ⟨buckets, decided, ⟨hstore, -⟩ | ⟨auth, hauth, -⟩⟩ :=
      Server.serve_cases jwt mode s.server http env request outage now
    · have hsame := congrArg Server.State.store hstore
      exact hsame
    · cases hauth.symm.trans hnone
  status refusal h := (Server.serve_refusal h).1
  unauthorized refusal h h401 := by
    obtain ⟨rfl, hnone⟩ := (Server.serve_refusal h).2 h401
    exact ⟨h, hnone⟩

theorem advance_tracked (h : Tracked wire s) (hcall : s.calls[i]? = some call)
    (hs : s.advance i call a = some t) : Tracked wire t := by
  rcases advance_effect wire hs with ⟨pc, accessToken, rfl, hphase⟩ | ⟨r, hpc, rfl⟩
  · exact h.setPc hcall hphase
  · exact h.send s.accessToken hcall hpc _ ⟨rfl, rfl⟩

theorem step_tracked (h : Tracked wire s) (hr : Recorded s a)
    (hs : step jwt mode wire s a = some t) : Tracked wire t := by
  cases a with
  | setAccessToken accessToken =>
    cases hs
    exact ⟨h.packets, h.served, h.phase⟩
  | call request =>
    cases hs
    exact h.begin request _ ⟨rfl, rfl⟩
  | serve n now http env outage =>
    simp only [step] at hs
    split at hs
    · cases hs
    · rename_i p hp
      obtain ⟨server, hserver, rfl⟩ := Option.map_eq_some_iff.mp hs
      exact h.serve hp rfl (serve_sound hr hserver p.call) rfl server
  | server a =>
    obtain ⟨server, -, rfl⟩ := Option.map_eq_some_iff.mp hs
    exact ⟨h.packets, h.served, h.phase⟩
  | arrive k | lose k | refresh k r | resume k | read k whole =>
    simp only [step] at hs
    split at hs
    · rename_i call hcall
      exact advance_tracked h hcall hs
    · cases hs

variable {e : Exchange} {answer : Answer} {refusal : Refusal} {whole : Bool}

theorem successStatus_ok (request : Api.Request) :
    successStatus request = 200 ∨ successStatus request = 201 := by
  cases request <;> simp [successStatus]

theorem Served.Sound.refused (h : x.Sound) (h401 : x.Unauthorized wire) : x.Barred := by
  cases hresult : x.exchange.reply.result with
  | ok answer =>
    simp only [Served.Unauthorized, respond, hresult] at h401
    rcases successStatus_ok x.exchange.request with hstatus | hstatus <;> omega
  | error refusal =>
    simp only [Served.Unauthorized, respond, hresult] at h401
    exact h.unauthorized refusal hresult h401

end

end WaOps.Web
