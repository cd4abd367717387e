import WaOps.Lib.Doubles

namespace WaOps.Events
open Lib.Js

/-- What is read of a `URL`. -/
structure Url where
  hostname : String
  port : String := ""
  username : String := ""
  password : String := ""
  pathname : String := ""
  deriving DecidableEq, Repr

structure Connection where
  host : String
  port : Number
  username : Option String := none
  password : Option String := none
  db : Option Number := none
  deriving DecidableEq, Repr

/-- `Number(port || 6379)` -/
def portNumber (port : String) : Number :=
  if port = "" then .finite 6379 else number port

def connectionOf (parsed : Url) : Connection :=
  { host := parsed.hostname
    port := portNumber parsed.port
    username := if parsed.username = "" then none else some parsed.username
    password := if parsed.password = "" then none else some parsed.password
    db :=
      if parsed.pathname ≠ "" ∧ parsed.pathname ≠ "/" then
        some (number (String.ofList (parsed.pathname.toList.drop 1)))
      else none }

/-- `new URL(url)` throws where `newUrl` gives none. -/
def parseRedis (newUrl : String → Option Url) (url : String) : Option Connection :=
  (newUrl url).map connectionOf

/-- The gateway's connection for both of its queues. -/
def gatewayConnection (newUrl : String → Option Url) (url : String) : Option Connection := do
  let host := (← newUrl url).hostname
  let port := (← newUrl url).port
  return { host := host, port := portNumber port }

/-- Without SELECT a connection stays in database 0. -/
def Connection.database (c : Connection) : Number :=
  c.db.getD (.finite 0)

def SameServer (a b : Connection) : Prop :=
  a.host = b.host ∧ a.port = b.port

def SameCredentials (a b : Connection) : Prop :=
  a.username = b.username ∧ a.password = b.password

def Agree (a b : Connection) : Prop :=
  SameServer a b ∧ SameCredentials a b ∧ a.database = b.database

instance (a b : Connection) : Decidable (Agree a b) :=
  inferInstanceAs (Decidable ((_ ∧ _) ∧ (_ ∧ _) ∧ _))

structure Server where
  /-- The user names and passwords that are let in. -/
  accepts : Option String → Option String → Bool
  /-- The jobs of a queue in a database. -/
  jobs : Number × String → List String

abbrev Network := String × Number → Server

def Network.lets (n : Network) (c : Connection) : Bool :=
  (n (c.host, c.port)).accepts c.username c.password

/-- What a worker of a queue gets to see. -/
def Network.jobs (n : Network) (c : Connection) (queue : String) : List String :=
  (n (c.host, c.port)).jobs (c.database, queue)

/-- `queue.add`, which fails where the connection is refused. -/
def Network.add (n : Network) (c : Connection) (queue job : String) : Option Network :=
  if n.lets c then
    let server := n (c.host, c.port)
    some (Function.update n (c.host, c.port)
      { server with
        jobs := Function.update server.jobs (c.database, queue) (n.jobs c queue ++ [job]) })
  else none

/-- Whatever the gateway adds, on any network that lets the worker in, the worker gets to see. -/
def Delivers (gateway worker : Connection) : Prop :=
  ∀ (n : Network) (queue job : String), n.lets worker = true →
    ∃ n', n.add gateway queue job = some n' ∧ job ∈ n'.jobs worker queue

/-- A path that is empty or names a database by its number. -/
def DatabasePath (u : Url) : Prop :=
  u.pathname.toList = [] ∨
    ∃ ds, u.pathname.toList = '/' :: ds ∧ ∀ d ∈ ds, d.isDigit = true

/-- No user name, no password, and no database but number 0. -/
def Plain (u : Url) : Prop :=
  u.username = "" ∧ u.password = "" ∧ ∀ d ∈ u.pathname.toList.drop 1, d = '0'

section
variable {a b : Connection} {u : Url} {n n' : Network} {queue job : String} {ds : List Char}

theorem ofDigitChars_zero {k : ℕ} (h : ∀ d ∈ ds, d.isDigit = true) :
    Nat.ofDigitChars 10 ds k = 0 ↔ k = 0 ∧ ∀ d ∈ ds, d = '0' := by
  induction ds generalizing k with
  | nil => simp
  | cons d ds ih =>
    have hbounds := isDigit_bounds (h d List.mem_cons_self)
    have hzero : d.toNat = 48 ↔ d = '0' := by
      rw [← Char.toNat_inj]
      rfl
    rw [Nat.ofDigitChars_cons, ih fun c hc => h c (List.mem_cons_of_mem d hc),
      List.forall_mem_cons, ← hzero, ← and_assoc]
    apply and_congr_left'
    have hdigit : '0'.toNat = 48 := rfl
    omega

/-- Only zeros are read for 0. -/
theorem number_zero (h : ∀ d ∈ ds, d.isDigit = true) (hne : ds ≠ []) :
    number (String.ofList ds) = .finite 0 ↔ ∀ d ∈ ds, d = '0' := by
  rw [number_digits h hne]
  have hiff := ofDigitChars_zero (k := 0) h
  simp only [true_and] at hiff
  rw [← hiff]
  constructor
  · intro hread
    by_contra hpos
    have hone : (1 : ℚ) ≤ (Nat.ofDigitChars 10 ds 0 : ℕ) := by
      exact_mod_cast Nat.one_le_iff_ne_zero.mpr hpos
    exact toDouble_ne_zero hone hread
  · intro hzero
    rw [hzero]
    rfl

theorem database_zero (h : DatabasePath u) :
    (connectionOf u).database = .finite 0 ↔ ∀ d ∈ u.pathname.toList.drop 1, d = '0' := by
  rcases h with hempty | ⟨ds, hpath, hdigits⟩
  · have hname : u.pathname = "" := String.ext hempty
    simp [connectionOf, Connection.database, hname]
  · rw [hpath, List.drop_one, List.tail_cons]
    by_cases hds : ds = []
    · subst hds
      have hname : u.pathname = "/" := String.ext hpath
      simp [connectionOf, Connection.database, hname]
    · have hne : u.pathname ≠ "" := by
        intro hname
        simp [hname] at hpath
      have hslash : u.pathname ≠ "/" := by
        intro hname
        rw [hname] at hpath
        exact hds (List.cons.inj hpath).2.symm
      simp only [connectionOf, Connection.database, hne, hslash, ne_eq, not_false_eq_true, and_self,
        if_true, Option.getD_some, hpath, List.drop_one, List.tail_cons]
      exact number_zero hdigits hds

/-- The connection without what the gateway leaves out. -/
def bare (parsed : Url) : Connection :=
  { host := parsed.hostname, port := portNumber parsed.port }

theorem agree_plain (h : DatabasePath u) : Agree (bare u) (connectionOf u) ↔ Plain u := by
  have hdb := database_zero h
  have hnone : ∀ text : String, none = (if text = "" then none else some text) ↔ text = "" := by
    intro text
    split <;> simp [*]
  have hserver : SameServer (bare u) (connectionOf u) := ⟨rfl, rfl⟩
  have hcredentials : SameCredentials (bare u) (connectionOf u) ↔
      u.username = "" ∧ u.password = "" :=
    and_congr (hnone u.username) (hnone u.password)
  have hdatabase : (bare u).database = (connectionOf u).database ↔
      ∀ d ∈ u.pathname.toList.drop 1, d = '0' := by
    rw [← hdb]
    exact eq_comm
  rw [Agree, Plain, hcredentials, hdatabase, and_assoc]
  exact and_iff_right hserver

theorem delivers_of_agree (h : Agree a b) : Delivers a b := by
  obtain ⟨⟨hhost, hport⟩, ⟨huser, hpass⟩, hdb⟩ := h
  intro n queue job hlets
  have hin : n.lets a = true := by
    rw [Network.lets, hhost, hport, huser, hpass]
    exact hlets
  refine ⟨_, if_pos hin, ?_⟩
  simp [Network.jobs, hhost, hport, hdb]

/-- A network without jobs that lets one connection in. -/
def onlyFor (c : Connection) : Network :=
  fun _ =>
    { accepts := fun username password => decide (username = c.username ∧ password = c.password)
      jobs := fun _ => [] }

theorem agree_of_delivers (h : Delivers a b) : Agree a b := by
  obtain ⟨n', hadd, hmem⟩ := h (onlyFor b) "queue" "job" (by simp [Network.lets, onlyFor])
  unfold Network.add at hadd
  split at hadd
  · rename_i hlets
    have hcredentials : SameCredentials a b := by
      simpa [Network.lets, onlyFor, SameCredentials] using hlets
    cases hadd
    -- The one job there is lies where the connection that added it points.
    have hserver : (b.host, b.port) = (a.host, a.port) := by
      by_contra hne
      simp [Network.jobs, Function.update_of_ne hne, onlyFor] at hmem
    have hplace : (b.database, "queue") = (a.database, "queue") := by
      by_contra hne
      rw [Network.jobs, hserver, Function.update_self] at hmem
      dsimp only at hmem
      rw [Function.update_of_ne hne] at hmem
      simp [onlyFor] at hmem
    obtain ⟨hhost, hport⟩ := Prod.mk.inj hserver
    exact ⟨⟨hhost.symm, hport.symm⟩, hcredentials, (Prod.mk.inj hplace).1.symm⟩
  · cases hadd

theorem gatewayConnection_bare {newUrl : String → Option Url} {url : String}
    (h : newUrl url = some u) : gatewayConnection newUrl url = some (bare u) := by
  simp [gatewayConnection, h, bare]

/-- Both connections go to the same server. They agree on the rest, and the worker sees what the
gateway adds, where the URL names neither a user nor a password nor a database other than 0. -/
theorem connections_agree_iff (newUrl : String → Option Url) (url : String)
    (hurl : newUrl url = some u) (hpath : DatabasePath u) :
    ∃ gateway worker, gatewayConnection newUrl url = some gateway ∧
      parseRedis newUrl url = some worker ∧
      SameServer gateway worker ∧
      (Agree gateway worker ↔ Plain u) ∧
      (Delivers gateway worker ↔ Plain u) := by
  refine ⟨bare u, connectionOf u, gatewayConnection_bare hurl, by rw [parseRedis, hurl]; rfl,
    ⟨rfl, rfl⟩, agree_plain hpath, ?_⟩
  rw [← agree_plain hpath]
  exact ⟨agree_of_delivers, delivers_of_agree⟩
end

/-- `new URL` at the two texts below. -/
def sampleUrls (text : String) : Option Url :=
  if text = "redis://localhost:6379" then some { hostname := "localhost", port := "6379" }
  else if text = "redis://:secret@redis.internal:6379/2" then
    some { hostname := "redis.internal", port := "6379", password := "secret", pathname := "/2" }
  else none

theorem local_connections_agree :
    ∃ gateway worker, gatewayConnection sampleUrls "redis://localhost:6379" = some gateway ∧
      parseRedis sampleUrls "redis://localhost:6379" = some worker ∧
      SameServer gateway worker ∧
      (Agree gateway worker ↔ Plain { hostname := "localhost", port := "6379" }) ∧
      (Delivers gateway worker ↔ Plain { hostname := "localhost", port := "6379" }) :=
  connections_agree_iff sampleUrls "redis://localhost:6379" (by decide) (.inl (by decide))

def secretGateway : Connection :=
  { host := "redis.internal", port := .finite 6379 }

def secretWorker : Connection :=
  { host := "redis.internal", port := .finite 6379, password := some "secret"
    db := some (.finite 2) }

/-- The gateway gets in without the password, if at all, and adds to database 0 while the worker
waits at database 2. -/
theorem secret_connections_differ :
    gatewayConnection sampleUrls "redis://:secret@redis.internal:6379/2" = some secretGateway ∧
    parseRedis sampleUrls "redis://:secret@redis.internal:6379/2" = some secretWorker ∧
    ¬ Agree secretGateway secretWorker ∧ ¬ Delivers secretGateway secretWorker := by
  have hdiffer : ¬ Agree secretGateway secretWorker := by
    intro hagree
    cases hagree.2.1.2
  refine ⟨by decide +kernel, by decide +kernel, hdiffer, ?_⟩
  intro hdelivers
  exact hdiffer (agree_of_delivers hdelivers)

end WaOps.Events
