import WaOps.Lib.Utf16
import WaOps.Rules.Worker

namespace WaOps.Contracts
open Lib

/-- One of the optional parts; an absent one, null and the empty text count alike. -/
abbrev Part := Option (List UInt16)

/-- The ids are code units of the agent's choice; the tenant comes from the program. -/
structure FingerprintParts where
  tenantId : String
  hostId : Part := none
  containerId : Part := none
  resourceId : Part := none
  deriving DecidableEq, Repr

/-- `if (part) segments.push(part);` -/
def truthy : Part → List (List UInt16)
  | none | some [] => []
  | some id => [id]

/-- The agent's part of the segments. -/
def FingerprintParts.ids (parts : FingerprintParts) : List (List UInt16) :=
  truthy parts.hostId ++ truthy parts.containerId ++ truthy parts.resourceId

def segments (rule : String) (parts : FingerprintParts) : List (List UInt16) :=
  [Js.units rule, Js.units parts.tenantId] ++ parts.ids

/-- `sha256` gives the hex digest of a text's UTF-8 bytes. -/
def composeFingerprint (sha256 : String → String) (rule : String) (parts : FingerprintParts) :
    String :=
  let joined := (Js.units "|").intercalate (segments rule parts)
  "sha256:" ++ sha256 (String.ofList (Js.characters joined))

/-- The ids as they are written, cut at every separator. -/
def FingerprintParts.pieces (parts : FingerprintParts) : List (List Char) :=
  parts.ids.flatMap (fun id => (Js.characters id).splitOn '|')

theorem characters_joined (ids : List (List UInt16)) :
    Js.characters ((Js.units "|").intercalate ids) =
      ['|'].intercalate (ids.map Js.characters) := by
  have hbar : Js.units "|" = [0x7c] := by decide
  rw [hbar]
  induction ids with
  | nil => rfl
  | cons id ids ih =>
    cases ids with
    | nil => simp
    | cons id' ids =>
      have hcut : Js.characters (id ++ ([0x7c] ++ List.intercalate [0x7c] (id' :: ids))) =
          Js.characters id ++ Js.characters ([0x7c] ++ List.intercalate [0x7c] (id' :: ids)) := by
        apply Js.characters_append
        intro v hv
        cases hv
        decide
      have hsep : ∀ us, Js.characters ([0x7c] ++ us) = '|' :: Js.characters us := by
        intro us
        exact Js.characters_basic (by decide) (by decide)
      rw [List.intercalate_cons_cons, List.append_assoc, hcut, hsep, ih]
      simp

/-- Cutting a joined text gives the pieces of what was joined. -/
theorem splitOn_joined {parts : List (List Char)} (h : parts ≠ []) :
    (['|'].intercalate parts).splitOn '|' = parts.flatMap (List.splitOn '|') := by
  induction parts with
  | nil => exact absurd rfl h
  | cons part parts ih =>
    cases parts with
    | nil => simp
    | cons part' parts =>
      rw [List.intercalate_cons_cons, List.append_assoc, List.singleton_append,
        List.splitOn_append_cons_self, ih (by simp), ← List.flatMap_cons]

theorem splitOn_inj {cs ds : List Char} (h : cs.splitOn '|' = ds.splitOn '|') : cs = ds := by
  have hcs : ['|'].intercalate (cs.splitOn '|') = cs := List.intercalate_splitOn '|'
  rw [← hcs, h, List.intercalate_splitOn]

theorem length_splitOn (cs : List Char) : (cs.splitOn '|').length = cs.count '|' + 1 := by
  induction cs with
  | nil => simp
  | cons c cs ih =>
    rw [List.splitOn_cons_eq_if_modifyHead]
    split
    · rename_i hc
      simp [ih, eq_of_beq hc]
    · rename_i hc
      simp [ih, List.count_cons, hc]

section
variable {sha256 : String → String} {rule rule' : String} {p q : FingerprintParts}

/-- Fingerprints are equal where the rules, the tenants and the ids are of the same pieces. -/
theorem fingerprint_eq_iff (hsha : Function.Injective sha256) :
    composeFingerprint sha256 rule p = composeFingerprint sha256 rule' q ↔
      rule.toList.splitOn '|' ++ (p.tenantId.toList.splitOn '|' ++ p.pieces) =
        rule'.toList.splitOn '|' ++ (q.tenantId.toList.splitOn '|' ++ q.pieces) := by
  have hpieces : ∀ (r : String) (x : FingerprintParts),
      (Js.characters ((Js.units "|").intercalate (segments r x))).splitOn '|' =
        r.toList.splitOn '|' ++ (x.tenantId.toList.splitOn '|' ++ x.pieces) := by
    intro r x
    rw [characters_joined, splitOn_joined (by simp [segments])]
    simp [segments, Js.characters_units, FingerprintParts.pieces, List.flatMap_map]
  rw [← hpieces, ← hpieces]
  simp only [composeFingerprint, String.append_right_inj, hsha.eq_iff, String.ofList_inj]
  exact ⟨fun h => by rw [h], splitOn_inj⟩

/-- Of one tenant and rule, parts with equal fingerprints are equal exactly where they differ in
a piece or not at all. -/
theorem parts_told_apart_iff (hsha : Function.Injective sha256)
    (htenant : p.tenantId = q.tenantId) :
    (composeFingerprint sha256 rule p = composeFingerprint sha256 rule q → p = q) ↔
      p = q ∨ p.pieces ≠ q.pieces := by
  rw [fingerprint_eq_iff hsha, htenant, List.append_cancel_left_eq, List.append_cancel_left_eq,
    imp_iff_not_or, or_comm]

/-- A host and its container as the gateway gets them from an agent. -/
def reported : FingerprintParts :=
  { tenantId := "t1", hostId := some (Js.units "h"), containerId := some (Js.units "c|d") }

/-- Another host with another container. -/
def mistaken : FingerprintParts :=
  { tenantId := "t1", hostId := some (Js.units "h|c"), containerId := some (Js.units "d") }

theorem reported_told_apart :
    (composeFingerprint id "tenant_host_container" reported =
      composeFingerprint id "tenant_host_container" mistaken → reported = mistaken) ↔
        reported = mistaken ∨ reported.pieces ≠ mistaken.pieces :=
  parts_told_apart_iff Function.injective_id rfl

theorem separator_mistaken : ¬ ∀ (sha256 : String → String) (_ : Function.Injective sha256)
    (rule : String) (p q : FingerprintParts), p.tenantId = q.tenantId →
    composeFingerprint sha256 rule p = composeFingerprint sha256 rule q → p = q := by
  intro h
  have heq : composeFingerprint id "tenant_host_container" reported =
      composeFingerprint id "tenant_host_container" mistaken := by
    rw [fingerprint_eq_iff Function.injective_id]
    decide
  have hparts := h id Function.injective_id "tenant_host_container" reported mistaken rfl heq
  exact absurd hparts (by decide)

/-- No tenant gets another's fingerprint, whatever its agents report, unless the rules differ in
how many separators they hold. -/
theorem tenants_apart (hsha : Function.Injective sha256)
    (hrule : rule.toList.count '|' = rule'.toList.count '|') (hp : '|' ∉ p.tenantId.toList)
    (hq : '|' ∉ q.tenantId.toList) (hne : p.tenantId ≠ q.tenantId) :
    composeFingerprint sha256 rule p ≠ composeFingerprint sha256 rule' q := by
  intro heq
  rw [fingerprint_eq_iff hsha, List.splitOn_eq_singleton hp, List.splitOn_eq_singleton hq] at heq
  obtain ⟨-, htail⟩ := List.append_inj heq (by rw [length_splitOn, length_splitOn, hrule])
  rw [List.singleton_append, List.singleton_append, List.cons.injEq] at htail
  exact hne (String.toList_inj.mp htail.1)

/-- A container whose id begins with the other tenant's. -/
theorem borrowed_name_apart :
    composeFingerprint id "tenant_host" { tenantId := "t1", hostId := some (Js.units "t2|h") } ≠
      composeFingerprint id "tenant_host_container"
        { tenantId := "t2", hostId := some (Js.units "h") } :=
  tenants_apart Function.injective_id (by decide) (by decide) (by decide) (by decide)

end

/-- The fingerprint of the rules engine's events is one of these. -/
theorem engine_fingerprint (sha256 : String → String) (tenantId resourceId : String) :
    Rules.composeFingerprint sha256 "tenant_host" tenantId resourceId =
      composeFingerprint sha256 "tenant_host"
        { tenantId, resourceId := some (Js.units resourceId) } := by
  have hjoin : ∀ parts : List String, ("|".intercalate parts).toList =
      ['|'].intercalate (parts.map String.toList) := by
    intro parts
    rw [String.toList_intercalate]
    rfl
  have hids : truthy (some (Js.units resourceId)) =
      if resourceId = "" then [] else [Js.units resourceId] := by
    split
    · rename_i hempty
      subst hempty
      decide
    · rename_i hne
      cases hu : Js.units resourceId with
      | nil =>
        have hcs := Js.characters_units resourceId
        rw [hu] at hcs
        exact absurd (String.toList_eq_nil_iff.mp hcs.symm) hne
      | cons u us => rfl
  simp only [Rules.composeFingerprint, composeFingerprint, characters_joined]
  congr 2
  apply String.toList_inj.mp
  rw [hjoin, String.toList_ofList]
  simp only [segments, FingerprintParts.ids, hids]
  split <;> simp [truthy, Js.characters_units]

end WaOps.Contracts
