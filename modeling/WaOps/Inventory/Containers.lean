import Mathlib.Order.Bounds.Basic
import WaOps.Inventory.Identity
import WaOps.Lib.Runs

namespace WaOps.Inventory
open Lib Lib.Upserts Lib.Runs

/-- Instants are in milliseconds. -/
structure Container where
  tenantId : String
  hostId : String
  runtimeId : Text
  name : Text
  image : Option Text
  state : String
  lastSeenAt : ℤ
  deriving DecidableEq, Repr

abbrev ContainerKey := String × String × Text

def Container.key (r : Container) : Option ContainerKey := some (r.tenantId, r.hostId, r.runtimeId)

def SampleLike.dimension (s : SampleLike) (key : String) : Option Value := s.dimensions.lookup key

def SampleLike.isContainer (s : SampleLike) : Bool := (Js.units "container.").isPrefixOf s.metric

def SampleLike.runtimeId (s : SampleLike) : Text := s.resourceId.take 200

def SampleLike.containerName (s : SampleLike) : Text :=
  match s.dimension "name" with
  | some (.string name) => if name.length ≤ 200 then name else s.runtimeId
  | _ => s.runtimeId

def SampleLike.image (s : SampleLike) : Option Text :=
  match s.dimension "image" with
  | some (.string image) => if image.length ≤ 200 then some image else none
  | _ => none

/-- The row `create` asks for. -/
def SampleLike.created (s : SampleLike) (tenantId hostId : String) (lastSeenAt : ℤ) : Container :=
  { tenantId, hostId
    runtimeId := s.runtimeId
    name := s.containerName
    image := s.image
    state := "running"
    lastSeenAt }

/-- What `update` makes of a row; an empty image counts as none. -/
def SampleLike.updated (s : SampleLike) (lastSeenAt : ℤ) (r : Container) : Container :=
  { r with
    lastSeenAt
    state := "running"
    name := s.containerName
    image := if s.image.getD [] = [] then r.image else s.image }

/-- The upsert of one sample, none where `new Date(s.observed_at)` is invalid. -/
def upsertContainer (newDate : Text → Option ℤ) (tenantId hostId : String) (s : SampleLike)
    (rows : List Container) : Option (List Container) :=
  (newDate s.observedAt).map fun lastSeenAt =>
    upsert Container.key (tenantId, hostId, s.runtimeId) (s.created tenantId hostId lastSeenAt)
      (s.updated lastSeenAt) rows

def batchHostId (map : ResourceToHost) : Option String :=
  (map.head?.map Prod.snd).filter (fun id => id ≠ "")

/-- A call of bridgeContainers with the samples its loop still has to upsert. -/
structure Job where
  tenantId : String
  hostId : String
  rest : List SampleLike
  upserts : ℕ := 0
  deriving DecidableEq, Repr

structure Ingest where
  containers : List Container
  jobs : List Job := []

inductive Turn where
  /-- A job calls bridgeContainers. -/
  | begin (tenantId : String) (samples : List SampleLike) (map : ResourceToHost)
  /-- The next upsert of a job; not ok where the database refuses it. -/
  | upsert (i : ℕ) (ok : Bool)
  deriving DecidableEq, Repr

/-- The call a job makes; there is none without a host. -/
def called (tenantId : String) (samples : List SampleLike) (map : ResourceToHost) : Option Job :=
  (batchHostId map).map fun hostId =>
    { tenantId, hostId, rest := samples.filter SampleLike.isContainer }

def Job.round (newDate : Text → Option ℤ) (j : Job) (s : SampleLike) (rest : List SampleLike)
    (ok : Bool) (rows : List Container) : List Container × Job :=
  match if ok then upsertContainer newDate j.tenantId j.hostId s rows else none with
  | some rows' => (rows', { j with rest, upserts := j.upserts + 1 })
  | none => (rows, { j with rest })

def step (newDate : Text → Option ℤ) (s : Ingest) : Turn → Option Ingest
  | .begin tenantId samples map =>
    some { s with jobs := s.jobs ++ (called tenantId samples map).toList }
  | .upsert i ok =>
    match s.jobs[i]? with
    | some j =>
      match j.rest with
      | x :: rest =>
        let (containers, j') := j.round newDate x rest ok s.containers
        some { containers, jobs := s.jobs.set i j' }
      | [] => none
    | none => none

section
variable (newDate : Text → Option ℤ) (tenantId hostId : String) (resourceId : Text)

/-- The instants at which a batch reports a container. -/
def reportedBy : Turn → List ℤ
  | .begin tenant samples map =>
    match called tenant samples map with
    | some j =>
      if j.tenantId = tenantId ∧ j.hostId = hostId then
        (j.rest.filter (fun s => s.resourceId = resourceId)).filterMap
          (fun s => newDate s.observedAt)
      else []
    | none => []
  | .upsert .. => []

def reported (turns : List Turn) : List ℤ :=
  turns.flatMap (reportedBy newDate tenantId hostId resourceId)

/-- The row of every container that was reported has the latest instant reported for it. -/
def UpToDate (turns : List Turn) (rows : List Container) : Prop :=
  ∀ tenantId hostId resourceId, reported newDate tenantId hostId resourceId turns ≠ [] →
    ∃ r, lookup Container.key (tenantId, hostId, resourceId.take 200) rows = some r ∧
      IsGreatest {t | t ∈ reported newDate tenantId hostId resourceId turns} r.lastSeenAt

/-- The sample a turn brings to the table: its container and its instant. -/
def stored (s : Ingest) : Turn → Option (ContainerKey × ℤ)
  | .begin .. => none
  | .upsert i ok => do
    let j ← s.jobs[i]?
    let x ← j.rest.head?
    let t ← newDate x.observedAt
    if ok then some ((j.tenantId, j.hostId, x.runtimeId), t) else none

/-- The instants brought for a container, in the order of the turns. -/
def arrivals (k : ContainerKey) : Ingest → List Turn → List ℤ
  | _, [] => []
  | s, a :: as =>
    let rest := match step newDate s a with
      | some s' => arrivals k s' as
      | none => []
    match stored newDate s a with
    | some (k', t) => if k' = k then t :: rest else rest
    | none => rest

end

def lastSeen (k : ContainerKey) (rows : List Container) : Option ℤ :=
  (lookup Container.key k rows).map Container.lastSeenAt

/-- Of every reported container the sample that arrives last is the latest reported. -/
def LatestLast (newDate : Text → Option ℤ) (s : Ingest) (turns : List Turn) : Prop :=
  ∀ tenantId hostId resourceId, reported newDate tenantId hostId resourceId turns ≠ [] →
    let k := (tenantId, hostId, resourceId.take 200)
    ∃ t, ((lastSeen k s.containers).toList ++ arrivals newDate k s turns).getLast? = some t ∧
      IsGreatest {t | t ∈ reported newDate tenantId hostId resourceId turns} t

variable {newDate : Text → Option ℤ} {s s' : Ingest} {a : Turn} {turns : List Turn}
  {k : ContainerKey} {rows rows' : List Container} {tenantId hostId : String} {x : SampleLike}

theorem created_key {t : ℤ} :
    (x.created tenantId hostId t).key = some (tenantId, hostId, x.runtimeId) := rfl

theorem updated_key {t : ℤ} (r : Container) : (x.updated t r).key = r.key := rfl

theorem upsertContainer_lastSeen
    (h : upsertContainer newDate tenantId hostId x rows = some rows') :
    ∃ t, newDate x.observedAt = some t ∧ lastSeen k rows' =
      if (tenantId, hostId, x.runtimeId) = k then some t else lastSeen k rows := by
  obtain ⟨t, ht, rfl⟩ := Option.map_eq_some_iff.mp h
  refine ⟨t, ht, ?_⟩
  by_cases hk : (tenantId, hostId, x.runtimeId) = k
  · rw [if_pos hk, ← hk, lastSeen, lookup_upsert created_key updated_key]
    cases lookup Container.key (tenantId, hostId, x.runtimeId) rows <;> rfl
  · rw [if_neg hk, lastSeen, lookup_upsert_other created_key updated_key (Ne.symm hk)]
    rfl

/-- A turn leaves of each container what it brings, or what was there. -/
theorem step_lastSeen (h : step newDate s a = some s') : lastSeen k s'.containers =
    match stored newDate s a with
    | some (k', t) => if k' = k then some t else lastSeen k s.containers
    | none => lastSeen k s.containers := by
  cases a with
  | begin tenantId samples map =>
    cases h
    rfl
  | upsert i ok =>
    simp only [step] at h
    split at h
    · rename_i j hj
      split at h
      · rename_i x rest hrest
        cases h
        simp only [stored, hj, hrest, Option.bind_eq_bind, Option.bind_some, List.head?_cons]
        cases ok with
        | false => cases newDate x.observedAt <;> rfl
        | true =>
          cases hup : upsertContainer newDate j.tenantId j.hostId x s.containers with
          | none =>
            have hnone : newDate x.observedAt = none := Option.map_eq_none_iff.mp hup
            simp only [Job.round, hup, hnone, if_true]
            rfl
          | some rows =>
            obtain ⟨t, ht, hseen⟩ := upsertContainer_lastSeen (k := k) hup
            simp only [Job.round, hup, ht, if_true, hseen, Option.bind_some]
      · cases h
    · cases h

/-- What is stored of a container is what arrived last. -/
theorem run_lastSeen (h : exec (step newDate) s turns = some s') : lastSeen k s'.containers =
    ((lastSeen k s.containers).toList ++ arrivals newDate k s turns).getLast? := by
  induction turns generalizing s with
  | nil =>
    cases h
    cases lastSeen k s'.containers <;> simp [arrivals]
  | cons a turns ih =>
    obtain ⟨u, hu, hrun⟩ := exec_cons h
    rw [ih hrun, step_lastSeen hu, arrivals, hu]
    dsimp only
    split
    · rename_i k' t hstored
      split
      · simp only [Option.toList_some, List.singleton_append]
        cases lastSeen k s.containers <;> simp [List.getLast?_cons_cons]
      · rfl
    · rfl

/-- The inventory is up to date exactly where the latest reports come last. -/
theorem upToDate_iff_latestLast (h : exec (step newDate) s turns = some s') :
    UpToDate newDate turns s'.containers ↔ LatestLast newDate s turns := by
  constructor
  · intro hup tenantId hostId resourceId hne
    obtain ⟨r, hr, hgreatest⟩ := hup tenantId hostId resourceId hne
    refine ⟨r.lastSeenAt, ?_, hgreatest⟩
    rw [← run_lastSeen h, lastSeen, hr]
    rfl
  · intro hlast tenantId hostId resourceId hne
    obtain ⟨t, ht, hgreatest⟩ := hlast tenantId hostId resourceId hne
    rw [← run_lastSeen h] at ht
    obtain ⟨r, hr, rfl⟩ := Option.map_eq_some_iff.mp ht
    exact ⟨r, hr, hgreatest⟩

/-- The two instants of the examples. -/
def noonDates (text : Text) : Option ℤ :=
  if text = Js.units "2026-07-01T11:00:00Z" then some 1782903600000
  else if text = Js.units "2026-07-01T12:00:00Z" then some 1782907200000
  else none

def container : Text := Js.units "container_4f1d"

def observed (time : String) : SampleLike :=
  { metric := Js.units "container.cpu.percent"
    resourceId := container
    observedAt := Js.units time }

def eleven : SampleLike := observed "2026-07-01T11:00:00Z"

def noon : SampleLike := observed "2026-07-01T12:00:00Z"

def ownHost : ResourceToHost := [(Js.units ("host_" ++ firstId), firstUuid)]

theorem reportedBy_upsert {resourceId : Text} {i : ℕ} {ok : Bool} :
    reportedBy newDate tenantId hostId resourceId (.upsert i ok) = [] := rfl

/-- Two batches, one after the other. -/
def handling (first second : SampleLike) : List Turn :=
  [.begin "acme" [first] ownHost, .upsert 0 true, .begin "acme" [second] ownHost, .upsert 1 true]

/-- A sample of the container reports no other one. -/
theorem reportedBy_container {resourceId : Text} (hx : x.resourceId = container)
    (h : reportedBy noonDates tenantId hostId resourceId (.begin "acme" [x] ownHost) ≠ []) :
    tenantId = "acme" ∧ hostId = firstUuid ∧ resourceId = container := by
  have hcalled : called "acme" [x] ownHost =
      some { tenantId := "acme", hostId := firstUuid,
             rest := [x].filter SampleLike.isContainer } := rfl
  simp only [reportedBy, hcalled] at h
  split at h
  · rename_i hkey
    refine ⟨hkey.1.symm, hkey.2.symm, ?_⟩
    by_contra hne
    apply h
    rw [List.filterMap_eq_nil_iff]
    intro x' hx'
    obtain ⟨hmem, hid⟩ := List.mem_filter.mp hx'
    obtain rfl := List.mem_singleton.mp (List.mem_filter.mp hmem).1
    exact absurd (hx.symm.trans (by simpa using hid)).symm hne
  · exact absurd rfl h

theorem seen_in_order : ∃ s', exec (step noonDates) ⟨[], []⟩ (handling eleven noon) = some s' ∧
    UpToDate noonDates (handling eleven noon) s'.containers := by
  obtain ⟨s', h⟩ : ∃ s', exec (step noonDates) ⟨[], []⟩ (handling eleven noon) = some s' :=
    Option.isSome_iff_exists.mp (by decide +kernel)
  refine ⟨s', h, (upToDate_iff_latestLast h).mpr ?_⟩
  intro tenantId hostId resourceId hne
  have hkey : tenantId = "acme" ∧ hostId = firstUuid ∧ resourceId = container := by
    by_contra hkey
    apply hne
    have h₁ := mt (reportedBy_container (x := eleven) rfl) hkey
    have h₂ := mt (reportedBy_container (x := noon) rfl) hkey
    simp only [not_not] at h₁ h₂
    simp [reported, handling, h₁, h₂, reportedBy_upsert]
  obtain ⟨rfl, rfl, rfl⟩ := hkey
  have hreported : reported noonDates "acme" firstUuid container (handling eleven noon) =
      [1782903600000, 1782907200000] := by decide +kernel
  refine ⟨1782907200000, by decide +kernel, ?_⟩
  rw [hreported]
  exact ⟨by decide, by simp [upperBounds]⟩

/-- The older report is resent and takes the place of the newer one. -/
theorem seen_last : ¬ ∀ (newDate : Text → Option ℤ) (s s' : Ingest) (turns : List Turn),
    exec (step newDate) s turns = some s' → UpToDate newDate turns s'.containers := by
  intro h
  obtain ⟨s', hrun⟩ : ∃ s', exec (step noonDates) ⟨[], []⟩ (handling noon eleven) = some s' :=
    Option.isSome_iff_exists.mp (by decide +kernel)
  have hreported : reported noonDates "acme" firstUuid container (handling noon eleven) =
      [1782907200000, 1782903600000] := by decide +kernel
  obtain ⟨r, hr, hgreatest⟩ := h _ _ _ _ hrun "acme" firstUuid container (by simp [hreported])
  have hlast : (exec (step noonDates) ⟨[], []⟩ (handling noon eleven)).bind
      (fun s' => lastSeen ("acme", firstUuid, container.take 200) s'.containers) =
      some 1782903600000 := by decide +kernel
  rw [hrun, Option.bind_some, lastSeen, hr] at hlast
  have hle := hgreatest.2 (show (1782907200000 : ℤ) ∈ _ by simp [hreported])
  have hseen : r.lastSeenAt = 1782903600000 := by simpa using hlast
  omega

end WaOps.Inventory
