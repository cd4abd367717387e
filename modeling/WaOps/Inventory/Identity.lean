import Mathlib.Algebra.Order.BigOperators.Group.List
import WaOps.Lib.Js
import WaOps.Lib.Lists
import WaOps.Lib.Upserts

namespace WaOps.Inventory
open Lib Lib.Upserts

/-- A text is its UTF-16 code units. -/
abbrev Text := List UInt16

/-- The value of a dimension; only a string's matters. -/
inductive Value where
  | string (text : Text)
  | other
  deriving DecidableEq, Repr

structure SampleLike where
  metric : Text
  resourceId : Text
  observedAt : Text
  dimensions : List (String × Value) := []
  deriving DecidableEq, Repr

structure Host where
  id : String
  tenantId : String
  name : Text
  status : String
  machineId : Option Text
  deriving DecidableEq, Repr

def Host.machine (r : Host) : Option (String × Text) := r.machineId.map (r.tenantId, ·)

def Host.named (r : Host) : String × Text := (r.tenantId, r.name)

/-- The hosts table with its unique indexes. Rows without a machine id do not conflict. -/
structure Hosts where
  rows : List Host
  ids : (rows.map Host.id).Nodup
  machines : (rows.filterMap Host.machine).Nodup
  names : (rows.map Host.named).Nodup

/-- No index has an entry of the row. -/
structure Hosts.Free (t : Hosts) (r : Host) : Prop where
  id : r.id ∉ t.rows.map Host.id
  machine : ∀ k ∈ r.machine, k ∉ t.rows.filterMap Host.machine
  name : r.named ∉ t.rows.map Host.named

instance (t : Hosts) (r : Host) : Decidable (t.Free r) :=
  decidable_of_iff (r.id ∉ t.rows.map Host.id ∧
    (∀ k ∈ r.machine, k ∉ t.rows.filterMap Host.machine) ∧ r.named ∉ t.rows.map Host.named)
    ⟨fun ⟨hid, hmachine, hname⟩ => ⟨hid, hmachine, hname⟩, fun h => ⟨h.id, h.machine, h.name⟩⟩

def Hosts.insert (t : Hosts) (r : Host) (h : t.Free r) : Hosts where
  rows := t.rows ++ [r]
  ids := by
    rw [List.map_append]
    exact t.ids.append (List.nodup_singleton _) (by simpa using h.id)
  machines := by
    rw [List.filterMap_append]
    refine t.machines.append ?_ ?_
    · cases hm : r.machine <;> simp [hm]
    · intro k hk hk'
      have hr : r.machine = some k := by simpa using hk'
      exact h.machine k hr hk
  names := by
    rw [List.map_append]
    exact t.names.append (List.nodup_singleton _) (by simpa using h.name)

def Host.online (r : Host) : Host := { r with status := "online" }

theorem online_id (r : Host) : r.online.id = r.id := rfl

theorem online_machine (r : Host) : r.online.machine = r.machine := rfl

theorem online_named (r : Host) : r.online.named = r.named := rfl

/-- The row of a machine id is set online. -/
def Hosts.online (t : Hosts) (k : String × Text) : Hosts where
  rows := change Host.machine k Host.online t.rows
  ids := by
    rw [change_map online_id]
    exact t.ids
  machines := by
    rw [change_filterMap online_machine]
    exact t.machines
  names := by
    rw [change_map online_named]
    exact t.names

structure Agent where
  id : String
  tenantId : String
  hostId : Option String
  machineId : Option Text
  deriving DecidableEq, Repr

structure Store where
  tenants : List String
  hosts : Hosts
  agents : List Agent

/-- The texts a text column takes, and the ids new rows get. -/
structure Database where
  storable : Text → Bool
  uuid : List String → String
  fresh : ∀ ids, uuid ids ∉ ids

def hostPrefix : Text := Js.units "host_"

def machineIdFromResource (resourceId : Text) : Option Text :=
  if ¬ hostPrefix <+: resourceId then none
  else
    let id := resourceId.drop hostPrefix.length
    if id.length ≥ 8 ∧ id.length ≤ 128 then some id else none

def hostName (machineId : Text) : Text := Js.units "host-" ++ machineId.take 12

/-- The set of machine ids, in the order they are added. -/
def machineIds (samples : List SampleLike) : List Text :=
  (samples.filterMap (fun s => machineIdFromResource s.resourceId)).eraseDups

/-- The row `create` asks for. -/
def newHost (db : Database) (tenantId : String) (machineId : Text) (s : Store) : Host :=
  { id := db.uuid (s.hosts.rows.map Host.id)
    tenantId
    name := hostName machineId
    status := "online"
    machineId := some machineId }

/-- The upsert of a host, none where the database refuses it. -/
def upsertHost (db : Database) (tenantId : String) (machineId : Text) (s : Store) :
    Option (Store × Host) :=
  if db.storable machineId ∧ db.storable (hostName machineId) then
    match lookup Host.machine (tenantId, machineId) s.hosts.rows with
    | some r => some ({ s with hosts := s.hosts.online (tenantId, machineId) }, r.online)
    | none =>
      let r := newHost db tenantId machineId s
      if h : tenantId ∈ s.tenants ∧ s.hosts.Free r then
        some ({ s with hosts := s.hosts.insert r h.2 }, r)
      else none
  else none

def linkAgent (agentId tenantId hostId : String) (machineId : Text) (s : Store) : Store :=
  { s with
    agents := s.agents.map (fun a =>
      if a.id = agentId ∧ a.tenantId = tenantId then
        { a with hostId := some hostId, machineId := some machineId }
      else a) }

/-- The entries of a Map in the order of their first `set`. -/
abbrev ResourceToHost := List (Text × String)

def entryKey (e : Text × String) : Option Text := some e.1

def ResourceToHost.get (map : ResourceToHost) (resourceId : Text) : Option String :=
  (lookup entryKey resourceId map).map Prod.snd

def ResourceToHost.set (map : ResourceToHost) (resourceId : Text) (hostId : String) :
    ResourceToHost :=
  upsert entryKey resourceId (resourceId, hostId) (fun e => (e.1, hostId)) map

/-- One round of the loop; an error of the upsert is swallowed. -/
def bridgeHost (db : Database) (tenantId agentId : String) (p : Store × ResourceToHost)
    (machineId : Text) : Store × ResourceToHost :=
  match upsertHost db tenantId machineId p.1 with
  | some (s, host) =>
    (linkAgent agentId tenantId host.id machineId s, p.2.set (hostPrefix ++ machineId) host.id)
  | none => p

def bridgeIdentity (db : Database) (tenantId agentId : String) (samples : List SampleLike)
    (s : Store) : Store × ResourceToHost :=
  (machineIds samples).foldl (bridgeHost db tenantId agentId) (s, [])

variable {db : Database} {tenantId agentId : String} {machineId m m' : Text} {s s' : Store}
  {r : Host} {samples : List SampleLike} {map : ResourceToHost} {resourceId x : Text} {id : String}
  {ms : List Text} {t t' : Hosts} {p : Store × ResourceToHost}

theorem entryKey_pair : entryKey (resourceId, id) = some resourceId := rfl

theorem entryKey_value (e : Text × String) : entryKey (e.1, id) = entryKey e := rfl

theorem get_set : (map.set resourceId id).get resourceId = some id := by
  rw [ResourceToHost.get, ResourceToHost.set, lookup_upsert entryKey_pair entryKey_value]
  cases lookup entryKey resourceId map <;> rfl

theorem get_set_other (h : x ≠ resourceId) : (map.set resourceId id).get x = map.get x := by
  rw [ResourceToHost.get, ResourceToHost.set,
    lookup_upsert_other entryKey_pair entryKey_value h]
  rfl

/-- The batch names the machine id. -/
def Names (samples : List SampleLike) (m : Text) : Prop :=
  ∃ s ∈ samples, s.resourceId = hostPrefix ++ m ∧ 8 ≤ m.length ∧ m.length ≤ 128

theorem machineIdFromResource_eq_some : machineIdFromResource x = some m ↔
    x = hostPrefix ++ m ∧ 8 ≤ m.length ∧ m.length ≤ 128 := by
  unfold machineIdFromResource
  constructor
  · intro h
    split at h
    · cases h
    · rename_i hprefix
      obtain ⟨rest, rfl⟩ := not_not.mp hprefix
      simp only [List.drop_left] at h
      split at h
      · cases h
        rename_i hlength
        exact ⟨rfl, hlength⟩
      · cases h
  · rintro ⟨rfl, hlength⟩
    rw [if_neg (not_not.mpr (List.prefix_append hostPrefix m))]
    simp only [List.drop_left]
    exact if_pos hlength

theorem mem_machineIds : m ∈ machineIds samples ↔ Names samples m := by
  rw [machineIds, List.mem_eraseDups, List.mem_filterMap]
  simp only [machineIdFromResource_eq_some, Names]

theorem machineIds_nodup : (machineIds samples).Nodup := Lists.nodup_eraseDups _

/-- The machine id has a row, or may get one. -/
structure Admits (db : Database) (tenantId : String) (t : Hosts) (m : Text) : Prop where
  storable : db.storable m ∧ db.storable (hostName m)
  free : lookup Host.machine (tenantId, m) t.rows = none →
    (tenantId, hostName m) ∉ t.rows.map Host.named

theorem newHost_free : s.hosts.Free (newHost db tenantId m s) ↔
    lookup Host.machine (tenantId, m) s.hosts.rows = none ∧
      (tenantId, hostName m) ∉ s.hosts.rows.map Host.named := by
  constructor
  · intro h
    refine ⟨?_, h.name⟩
    rw [lookup_none]
    intro r hr hkey
    exact h.machine _ rfl (List.mem_filterMap.mpr ⟨r, hr, hkey⟩)
  · intro ⟨hnone, hname⟩
    refine ⟨db.fresh _, ?_, hname⟩
    intro k hk hmem
    obtain ⟨r, hr, hkey⟩ := List.mem_filterMap.mp hmem
    cases hk
    exact lookup_none.mp hnone r hr hkey

theorem upsertHost_isSome (ht : tenantId ∈ s.tenants) :
    (upsertHost db tenantId m s).isSome ↔ Admits db tenantId s.hosts m := by
  unfold upsertHost
  split
  · rename_i hstorable
    split
    · rename_i r hfound
      refine iff_of_true rfl ⟨hstorable, ?_⟩
      simp [hfound]
    · rename_i hnone
      simp only [ht, true_and, newHost_free, hnone]
      constructor
      · intro h
        refine ⟨hstorable, ?_⟩
        intro _
        by_contra hname
        simp [hname] at h
      · intro h
        simp [h.free hnone]
  · rename_i hstorable
    exact iff_of_false (by simp) (fun h => hstorable h.storable)

/-- What an upsert that the database takes does to the table. -/
structure Upserted (tenantId : String) (m : Text) (t t' : Hosts) (r : Host) : Prop where
  found : lookup Host.machine (tenantId, m) t'.rows = some r
  others : ∀ m' ≠ m,
    lookup Host.machine (tenantId, m') t'.rows = lookup Host.machine (tenantId, m') t.rows
  named : t'.rows.map Host.named = t.rows.map Host.named ++
    if lookup Host.machine (tenantId, m) t.rows = none then [(tenantId, hostName m)] else []

theorem upsertHost_spec (h : upsertHost db tenantId m s = some (s', r)) :
    s'.tenants = s.tenants ∧ Upserted tenantId m s.hosts s'.hosts r := by
  unfold upsertHost at h
  split at h
  · split at h
    · rename_i r₀ hfound
      cases h
      refine ⟨rfl, ?_, ?_, ?_⟩
      · simp [Hosts.online, lookup_change online_machine, hfound]
      · intro m' hm
        simp [Hosts.online, lookup_change online_machine, hm]
      · simp [Hosts.online, change_map online_named, hfound]
    · rename_i hnone
      dsimp only at h
      split at h
      · cases h
        have hkey : (newHost db tenantId m s).machine = some (tenantId, m) := rfl
        refine ⟨rfl, ?_, ?_, ?_⟩
        · simp [Hosts.insert, lookup_concat, hnone, hkey]
        · intro m' hm
          simp [Hosts.insert, lookup_concat, hkey, Ne.symm hm]
        · simp only [Hosts.insert, List.map_append, hnone, if_true]
          rfl
      · cases h
  · cases h

/-- All texts can be stored, and the machine ids without a row bring names that are free and
differ from each other. -/
structure Nameable (db : Database) (tenantId : String) (t : Hosts) (ms : List Text) : Prop where
  storable : ∀ m ∈ ms, db.storable m ∧ db.storable (hostName m)
  free : ∀ m ∈ ms, lookup Host.machine (tenantId, m) t.rows = none →
    (tenantId, hostName m) ∉ t.rows.map Host.named
  apart : ∀ m ∈ ms, ∀ m' ∈ ms, lookup Host.machine (tenantId, m) t.rows = none →
    lookup Host.machine (tenantId, m') t.rows = none → hostName m = hostName m' → m = m'

theorem nameable_cons (hm : m ∉ ms) (h : Upserted tenantId m t t' r) :
    Nameable db tenantId t (m :: ms) ↔ Admits db tenantId t m ∧ Nameable db tenantId t' ms := by
  have hne : ∀ m' ∈ ms, m' ≠ m := fun m' hm' he => hm (he ▸ hm')
  constructor
  · intro hn
    refine ⟨⟨hn.storable m (by simp), hn.free m (by simp)⟩, ?_, ?_, ?_⟩
    · intro m' hm'
      exact hn.storable m' (by simp [hm'])
    · intro m' hm' hunseen hmem
      rw [h.others m' (hne m' hm')] at hunseen
      rw [h.named] at hmem
      rcases List.mem_append.mp hmem with hold | hnew
      · exact hn.free m' (by simp [hm']) hunseen hold
      · split at hnew
        · rename_i hfirst
          have hname : hostName m' = hostName m := by simpa using hnew
          exact hne m' hm' (hn.apart m' (by simp [hm']) m (by simp) hunseen hfirst hname)
        · cases hnew
    · intro m₁ hm₁ m₂ hm₂ h₁ h₂
      rw [h.others m₁ (hne m₁ hm₁)] at h₁
      rw [h.others m₂ (hne m₂ hm₂)] at h₂
      exact hn.apart m₁ (by simp [hm₁]) m₂ (by simp [hm₂]) h₁ h₂
  · rintro ⟨ha, hn⟩
    have hunseen : ∀ m' ∈ ms, lookup Host.machine (tenantId, m') t.rows = none →
        lookup Host.machine (tenantId, m') t'.rows = none := by
      intro m' hm' hnone
      rw [h.others m' (hne m' hm')]
      exact hnone
    -- A later id without a row does not bring the name of the first.
    have hclash : ∀ m' ∈ ms, lookup Host.machine (tenantId, m) t.rows = none →
        lookup Host.machine (tenantId, m') t.rows = none → hostName m ≠ hostName m' := by
      intro m' hm' hfirst hnone hname
      have hfree := hn.free m' hm' (hunseen m' hm' hnone)
      rw [h.named, if_pos hfirst, ← hname] at hfree
      exact hfree (by simp)
    refine ⟨?_, ?_, ?_⟩
    · intro m' hm'
      rcases List.mem_cons.mp hm' with rfl | hm'
      · exact ha.storable
      · exact hn.storable m' hm'
    · intro m' hm' hnone
      rcases List.mem_cons.mp hm' with rfl | hm'
      · exact ha.free hnone
      · have hfree := hn.free m' hm' (hunseen m' hm' hnone)
        rw [h.named] at hfree
        exact fun hmem => hfree (List.mem_append_left _ hmem)
    · intro m₁ hm₁ m₂ hm₂ h₁ h₂ hname
      rcases List.mem_cons.mp hm₁ with he₁ | hm₁ <;> rcases List.mem_cons.mp hm₂ with he₂ | hm₂
      · exact he₁.trans he₂.symm
      · rw [he₁] at h₁ hname
        exact absurd hname (hclash m₂ hm₂ h₁ h₂)
      · rw [he₂] at h₂ hname
        exact absurd hname.symm (hclash m₁ hm₁ h₂ h₁)
      · exact hn.apart m₁ hm₁ m₂ hm₂ (hunseen m₁ hm₁ h₁) (hunseen m₂ hm₂ h₂) hname

theorem bridgeHost_other (db : Database) (tenantId agentId : String)
    (p : Store × ResourceToHost) (hm : m' ≠ m) :
    let q := bridgeHost db tenantId agentId p m
    lookup Host.machine (tenantId, m') q.1.hosts.rows =
        lookup Host.machine (tenantId, m') p.1.hosts.rows ∧
      q.2.get (hostPrefix ++ m') = p.2.get (hostPrefix ++ m') := by
  unfold bridgeHost
  cases h : upsertHost db tenantId m p.1 with
  | none => exact ⟨rfl, rfl⟩
  | some u =>
    refine ⟨(upsertHost_spec h).2.others m' hm, get_set_other ?_⟩
    simpa using hm

/-- The loop leaves the rows and the entries of all other machine ids. -/
theorem loop_other (db : Database) (tenantId agentId : String) (p : Store × ResourceToHost)
    (hm : m ∉ ms) :
    let q := ms.foldl (bridgeHost db tenantId agentId) p
    lookup Host.machine (tenantId, m) q.1.hosts.rows =
        lookup Host.machine (tenantId, m) p.1.hosts.rows ∧
      q.2.get (hostPrefix ++ m) = p.2.get (hostPrefix ++ m) := by
  induction ms generalizing p with
  | nil => exact ⟨rfl, rfl⟩
  | cons m' ms ih =>
    rw [List.mem_cons, not_or] at hm
    obtain ⟨hne, hms⟩ := hm
    obtain ⟨hrow, hentry⟩ := bridgeHost_other db tenantId agentId p hne
    obtain ⟨hrows, hentries⟩ := ih (bridgeHost db tenantId agentId p m') hms
    exact ⟨hrows.trans hrow, hentries.trans hentry⟩

/-- The machine id has a row and the map sends it there. -/
def Mapped (tenantId : String) (p : Store × ResourceToHost) (m : Text) : Prop :=
  ∃ r, lookup Host.machine (tenantId, m) p.1.hosts.rows = some r ∧
    p.2.get (hostPrefix ++ m) = some r.id

theorem loop_iff (ht : tenantId ∈ p.1.tenants) (hms : ms.Nodup)
    (hnew : ∀ m ∈ ms, p.2.get (hostPrefix ++ m) = none) :
    (∀ m ∈ ms, Mapped tenantId (ms.foldl (bridgeHost db tenantId agentId) p) m) ↔
      Nameable db tenantId p.1.hosts ms := by
  induction ms generalizing p with
  | nil => exact iff_of_true (by simp) ⟨by simp, by simp, by simp⟩
  | cons m ms ih =>
    obtain ⟨hm, hms⟩ := List.nodup_cons.mp hms
    rw [List.foldl_cons]
    obtain ⟨hrow, hentry⟩ := loop_other db tenantId agentId
      (bridgeHost db tenantId agentId p m) hm
    cases h : upsertHost db tenantId m p.1 with
    | none =>
      have hkept : bridgeHost db tenantId agentId p m = p := by rw [bridgeHost, h]
      rw [hkept] at hrow hentry ⊢
      apply iff_of_false
      · intro hall
        obtain ⟨r, -, hget⟩ := hall m List.mem_cons_self
        rw [hentry, hnew m List.mem_cons_self] at hget
        cases hget
      · intro hn
        have hadmits : Admits db tenantId p.1.hosts m :=
          ⟨hn.storable m List.mem_cons_self, hn.free m List.mem_cons_self⟩
        have hsome := (upsertHost_isSome ht).mpr hadmits
        rw [h] at hsome
        cases hsome
    | some u =>
      obtain ⟨s', r⟩ := u
      obtain ⟨htenants, hup⟩ := upsertHost_spec h
      have hadmits : Admits db tenantId p.1.hosts m := by
        rw [← upsertHost_isSome ht, h]
        rfl
      have hmapped : Mapped tenantId
          (ms.foldl (bridgeHost db tenantId agentId) (bridgeHost db tenantId agentId p m)) m := by
        refine ⟨r, ?_, ?_⟩
        · rw [hrow, bridgeHost, h]
          exact hup.found
        · rw [hentry, bridgeHost, h]
          exact get_set
      have hrest : Nameable db tenantId (bridgeHost db tenantId agentId p m).1.hosts ms ↔
          Nameable db tenantId s'.hosts ms := by
        rw [bridgeHost, h]
        rfl
      rw [nameable_cons hm hup, List.forall_mem_cons, ih ?_ hms ?_, hrest]
      · simp only [hmapped, hadmits, true_and]
      · rw [bridgeHost, h]
        exact htenants ▸ ht
      · intro m' hm'
        have hne : m' ≠ m := by
          rintro rfl
          exact hm hm'
        rw [(bridgeHost_other db tenantId agentId p hne).2]
        exact hnew m' (List.mem_cons_of_mem m hm')

/-- What the bridge is for. -/
structure Bridged (tenantId : String) (samples : List SampleLike) (p : Store × ResourceToHost) :
    Prop where
  one : ∀ m, Names samples m → ∃ r,
    p.1.hosts.rows.filter (fun r => r.tenantId = tenantId ∧ r.machineId = some m) = [r] ∧
      p.2.get (hostPrefix ++ m) = some r.id
  apart : ∀ m m', Names samples m → Names samples m' → m ≠ m' →
    p.2.get (hostPrefix ++ m) ≠ p.2.get (hostPrefix ++ m')

theorem machine_eq_some : r.machine = some (tenantId, m) ↔
    r.tenantId = tenantId ∧ r.machineId = some m := by
  unfold Host.machine
  cases r.machineId <;> simp

theorem filter_machine :
    t.rows.filter (fun r => r.tenantId = tenantId ∧ r.machineId = some m) =
      (lookup Host.machine (tenantId, m) t.rows).toList := by
  rw [← filter_key t.machines]
  simp only [machine_eq_some]

theorem bridged_iff_mapped :
    Bridged tenantId samples p ↔ ∀ m, Names samples m → Mapped tenantId p m := by
  constructor
  · intro h m hm
    obtain ⟨r, hone, hget⟩ := h.one m hm
    rw [filter_machine] at hone
    refine ⟨r, ?_, hget⟩
    cases hfound : lookup Host.machine (tenantId, m) p.1.hosts.rows with
    | none => simp [hfound] at hone
    | some r' => simpa [hfound] using hone
  · intro h
    refine ⟨?_, ?_⟩
    · intro m hm
      obtain ⟨r, hfound, hget⟩ := h m hm
      refine ⟨r, ?_, hget⟩
      rw [filter_machine, hfound]
      rfl
    · intro m m' hm hm' hne hsame
      obtain ⟨r, hfound, hget⟩ := h m hm
      obtain ⟨r', hfound', hget'⟩ := h m' hm'
      rw [hget, hget', Option.some.injEq] at hsame
      obtain ⟨hr, hkey⟩ := lookup_key hfound
      obtain ⟨hr', hkey'⟩ := lookup_key hfound'
      rw [List.inj_on_of_nodup_map p.1.hosts.ids hr hr' hsame, hkey'] at hkey
      simp only [Option.some.injEq, Prod.mk.injEq] at hkey
      exact hne hkey.2.symm

/-- The bridge does its work exactly where the names of the rows it has to create are free and
differ. -/
theorem bridged_iff (h : tenantId ∈ s.tenants) :
    Bridged tenantId samples (bridgeIdentity db tenantId agentId samples s) ↔
      Nameable db tenantId s.hosts (machineIds samples) := by
  rw [bridged_iff_mapped, ← loop_iff (p := (s, [])) h machineIds_nodup (fun _ _ => rfl)]
  simp only [mem_machineIds]
  rfl

def noHosts : Hosts := ⟨[], by simp, by simp, by simp⟩

def acme : Store := { tenants := ["acme"], hosts := noHosts, agents := [] }

def firstUuid : String := "5b0c1f6e-3a52-4d0b-9c1e-7f2a64d81b90"

/-- Plain texts are stored; the first id is as the database makes them. -/
def plain : Database where
  storable text := text.all (fun u => 0 < u.toNat && u.toNat < 0xd800)
  uuid ids := firstUuid ++ String.ofList (List.replicate (ids.map String.length).sum '0')
  fresh ids h := by
    have hle := List.le_sum_of_mem (List.mem_map_of_mem (f := String.length) h)
    rw [String.length_append, String.length_ofList, List.length_replicate] at hle
    have hpos : 0 < firstUuid.length := by decide
    omega

def reporting (machineId : String) : SampleLike :=
  { metric := Js.units "system.cpu.percent"
    resourceId := Js.units ("host_" ++ machineId)
    observedAt := Js.units "2026-07-01T12:00:00Z" }

def firstId : String := "8f3c2a91d4e7b6054410cc9e02fb7a31"

/-- Its first twelve digits are those of the first. -/
def secondId : String := "8f3c2a91d4e70c9be58231fd6790aa42"

theorem first_bridged :
    "acme" ∈ acme.tenants ∧ Bridged "acme" [reporting firstId]
      (bridgeIdentity plain "acme" "agent-1" [reporting firstId] acme) := by
  have htenant : "acme" ∈ acme.tenants := by decide
  refine ⟨htenant, (bridged_iff htenant).mpr ⟨?_, ?_, ?_⟩⟩
  · decide +kernel
  · decide +kernel
  · decide +kernel

/-- The second machine gets no host row. -/
theorem second_unnamed : ¬ ∀ (db : Database) (tenantId agentId : String)
    (samples : List SampleLike) (s : Store), tenantId ∈ s.tenants →
    Bridged tenantId samples (bridgeIdentity db tenantId agentId samples s) := by
  intro h
  have hall := h plain "acme" "agent-1" [reporting firstId, reporting secondId] acme (by decide)
  have hnames : Names [reporting firstId, reporting secondId] (Js.units secondId) := by
    refine ⟨reporting secondId, by simp, ?_⟩
    decide +kernel
  obtain ⟨r, -, hget⟩ := hall.one _ hnames
  have hnone : (bridgeIdentity plain "acme" "agent-1" [reporting firstId, reporting secondId]
      acme).2.get (hostPrefix ++ Js.units secondId) = none := by decide +kernel
  rw [hnone] at hget
  cases hget

end WaOps.Inventory
