import Mathlib.Algebra.BigOperators.Group.List.Basic
import WaOps.Lib.Calendar
import WaOps.Lib.Js

namespace WaOps.Entitlements
open Lib Lib.Calendar

/-- Instants are in milliseconds since 1970. -/
def dayMs : ℤ := 86400000

def getUTCFullYear (t : ℤ) : ℤ := yearFromDay (t / dayMs)

def getUTCMonth (t : ℤ) : ℤ :=
  let day := t / dayMs
  monthFromDay (leapDay (yearFromDay day)) (day - dayFromYear (yearFromDay day))

/-- Two digits are a year of the twentieth century. -/
def fullYear (year : ℤ) : ℤ := if 0 ≤ year ∧ year ≤ 99 then 1900 + year else year

/-- `Date.UTC(year, month, 1)` -/
def dateUTC (year month : ℤ) : ℤ := monthDay (12 * fullYear year + month) * dayMs

/-- The time zone a server runs in: its offset at a local time, which is less than a day. -/
structure Zone where
  offset : ℤ → ℤ
  bounded : ∀ t, -dayMs < offset t ∧ offset t < dayMs

/-- `new Date(year, month, 1)` -/
def Zone.newDate (zone : Zone) (year month : ℤ) : ℤ :=
  dateUTC year month - zone.offset (dateUTC year month)

structure UsageCounter where
  tenantId : String
  metricKey : String
  periodStart : ℤ
  periodEnd : ℤ
  value : ℤ
  deriving DecidableEq, Repr

def UsageCounter.key (r : UsageCounter) : String × String × ℤ :=
  (r.tenantId, r.metricKey, r.periodStart)

abbrev Counters := List UsageCounter

def findUnique (counters : Counters) (key : String × String × ℤ) : Option UsageCounter :=
  counters.find? (fun r => r.key = key)

/-- The range of the value column and of what is added to it. -/
def isInt4 (n : ℤ) : Prop := -2147483648 ≤ n ∧ n ≤ 2147483647

instance (n : ℤ) : Decidable (isInt4 n) := inferInstanceAs (Decidable (_ ∧ _))

def periodStart (now : ℤ) : ℤ := dateUTC (getUTCFullYear now) (getUTCMonth now)

def periodEnd (now : ℤ) : ℤ := dateUTC (getUTCFullYear now) (getUTCMonth now + 1)

/-- The row that the first call of a month creates. -/
def created (now : ℕ) (tenantId metricKey : String) (value : ℤ) : UsageCounter :=
  { tenantId, metricKey, periodStart := periodStart now, periodEnd := periodEnd now, value }

/-- The upsert of one call, none where the database client throws. -/
def UsageMetering.increment (now : ℕ) (tenantId metricKey : String) (delta : ℤ)
    (counters : Counters) : Option Counters :=
  let key := (tenantId, metricKey, periodStart now)
  match findUnique counters key with
  | none =>
    if isInt4 delta then some (counters ++ [created now tenantId metricKey delta]) else none
  | some r =>
    if isInt4 delta ∧ isInt4 (r.value + delta) then
      some (counters.map (fun r => if r.key = key then { r with value := r.value + delta } else r))
    else none

/-- The year and the month are of two readings of the clock. -/
def QuotaService.currentUsage (zone : Zone) (now now' : ℕ) (tenantId metricKey : String)
    (counters : Counters) : ℤ :=
  let periodStart := zone.newDate (getUTCFullYear now) (getUTCMonth now')
  ((findUnique counters (tenantId, metricKey, periodStart)).map UsageCounter.value).getD 0

structure QuotaExceededError where
  metricKey : String
  limit : Js.Number
  deriving DecidableEq, Repr

def QuotaService.assertWithinQuota (zone : Zone) (now now' : ℕ) (tenantId metricKey : String)
    (limit : Option Js.Number) (counters : Counters) : Except QuotaExceededError Unit :=
  match limit with
  | none => .ok ()
  | some limit =>
    let usage := currentUsage zone now now' tenantId metricKey counters
    if (Js.Number.finite usage).ge limit then .error { metricKey, limit } else .ok ()

/-- A call of `increment`. -/
structure Call where
  now : ℕ
  tenantId : String
  metricKey : String
  delta : ℤ
  deriving DecidableEq, Repr

def Call.key (c : Call) : String × String × ℤ := (c.tenantId, c.metricKey, periodStart c.now)

def Call.increment (c : Call) (counters : Counters) : Option Counters :=
  UsageMetering.increment c.now c.tenantId c.metricKey c.delta counters

/-- The counters after a sequence of calls; one that throws leaves them as they are. -/
def metered : Counters → List Call → Counters
  | counters, [] => counters
  | counters, c :: cs => metered ((c.increment counters).getD counters) cs

/-- The calls that do not throw. -/
def taken : Counters → List Call → List Call
  | _, [] => []
  | counters, c :: cs =>
    match c.increment counters with
    | none => taken counters cs
    | some counters' => c :: taken counters' cs

def sameMonth (t t' : ℕ) : Prop :=
  getUTCFullYear t = getUTCFullYear t' ∧ getUTCMonth t = getUTCMonth t'

instance (t t' : ℕ) : Decidable (sameMonth t t') := inferInstanceAs (Decidable (_ ∧ _))

/-- The sum of the deltas of the calls for a tenant and metric in a month. -/
def deltas (calls : List Call) (tenantId metricKey : String) (now : ℕ) : ℤ :=
  ((calls.filter (fun c => c.tenantId = tenantId ∧ c.metricKey = metricKey ∧
    sameMonth c.now now)).map Call.delta).sum

/-- What a key counts; nothing without a row. -/
def valueAt (counters : Counters) (key : String × String × ℤ) : ℤ :=
  ((findUnique counters key).map UsageCounter.value).getD 0

section
variable {now t t' : ℕ} {counters counters' : Counters} {c : Call} {calls : List Call}

theorem monthOf_instant (t : ℤ) :
    monthOf (t / dayMs) = 12 * getUTCFullYear t + getUTCMonth t := rfl

theorem getUTCMonth_bounds (t : ℤ) : 0 ≤ getUTCMonth t ∧ getUTCMonth t < 12 :=
  monthFromDay_bounds _ _

/-- No clock reads a year of two digits. -/
theorem fullYear_instant (t : ℕ) : fullYear (getUTCFullYear t) = getUTCFullYear t := by
  have hspec := (yearFromDay_spec ((t : ℤ) / dayMs)).2
  have hday : 0 ≤ (t : ℤ) / dayMs := by
    unfold dayMs
    omega
  have hyear : 1970 ≤ getUTCFullYear t := by
    unfold getUTCFullYear
    generalize yearFromDay ((t : ℤ) / dayMs) = y at hspec
    unfold dayFromYear at hspec
    omega
  unfold fullYear
  rw [if_neg (by omega)]

theorem periodStart_eq (t : ℕ) : periodStart t = monthDay (monthOf (t / dayMs)) * dayMs := by
  rw [periodStart, dateUTC, fullYear_instant, monthOf_instant]

/-- Periods that start less than a day apart are of one month. -/
theorem sameMonth_of_close (h : periodStart t < periodStart t' + dayMs)
    (h' : periodStart t' < periodStart t + dayMs) : sameMonth t t' := by
  rw [periodStart_eq, periodStart_eq] at h h'
  unfold dayMs at h h'
  have hmonth : monthOf ((t : ℤ) / dayMs) = monthOf ((t' : ℤ) / dayMs) := by
    unfold dayMs
    exact month_unique (by omega) (by omega)
  rw [monthOf_instant, monthOf_instant] at hmonth
  have hb := getUTCMonth_bounds t
  have hb' := getUTCMonth_bounds t'
  exact ⟨by omega, by omega⟩

theorem periodStart_eq_iff : periodStart t = periodStart t' ↔ sameMonth t t' := by
  constructor
  · intro h
    have hday : 0 < dayMs := by decide
    exact sameMonth_of_close (by omega) (by omega)
  · intro h
    rw [periodStart, periodStart, h.1, h.2]

theorem findUnique_append (r : UsageCounter) (key : String × String × ℤ) :
    findUnique (counters ++ [r]) key =
      (findUnique counters key).or (if r.key = key then some r else none) := by
  rw [findUnique, List.find?_append]
  by_cases hkey : r.key = key <;> simp [findUnique, hkey]

theorem findUnique_map {f : UsageCounter → UsageCounter} (hf : ∀ r, (f r).key = r.key)
    (key : String × String × ℤ) :
    findUnique (counters.map f) key = (findUnique counters key).map f := by
  rw [findUnique, List.find?_map]
  congr 2
  funext r
  rw [Function.comp, hf]

theorem findUnique_key {key : String × String × ℤ} {r : UsageCounter}
    (h : findUnique counters key = some r) : r.key = key := by
  simpa using List.find?_some h

/-- A call adds its delta to its key's value and to no other's. -/
theorem increment_value (h : c.increment counters = some counters')
    (key : String × String × ℤ) :
    valueAt counters' key = valueAt counters key + if c.key = key then c.delta else 0 := by
  unfold Call.increment UsageMetering.increment at h
  dsimp only at h
  split at h
  · rename_i hnone
    split at h
    · cases h
      have hcreated : (created c.now c.tenantId c.metricKey c.delta).key = c.key := rfl
      rw [valueAt, valueAt, findUnique_append, hcreated]
      by_cases hkey : c.key = key
      · subst hkey
        have hnone : findUnique counters c.key = none := hnone
        simp [hnone, created]
      · rw [if_neg hkey, if_neg hkey, Option.or_none, add_zero]
    · cases h
  · rename_i r hfound
    split at h
    · cases h
      rw [valueAt, valueAt, findUnique_map (fun r => by split <;> rfl)]
      cases hfind : findUnique counters key with
      | none =>
        have hkey : c.key ≠ key := by
          rintro rfl
          rw [Call.key, hfound] at hfind
          cases hfind
        simp [hkey]
      | some r' =>
        have hr' : r'.key = key := findUnique_key hfind
        have hcall : (c.tenantId, c.metricKey, periodStart c.now) = c.key := rfl
        by_cases hkey : c.key = key
        · simp [hcall, hr', hkey]
        · simp [hcall, hr', hkey, Ne.symm hkey]
    · cases h

theorem increment_rows (h : c.increment counters = some counters') {r : UsageCounter}
    (hr : r ∈ counters') : (∃ r' ∈ counters, r.periodStart = r'.periodStart) ∨
      r.periodStart = periodStart c.now := by
  unfold Call.increment UsageMetering.increment at h
  dsimp only at h
  split at h
  · split at h
    · cases h
      rcases List.mem_append.mp hr with hr | hr
      · exact .inl ⟨r, hr, rfl⟩
      · rw [List.mem_singleton.mp hr]
        exact .inr rfl
    · cases h
  · split at h
    · cases h
      obtain ⟨r', hr', rfl⟩ := List.mem_map.mp hr
      refine .inl ⟨r', hr', ?_⟩
      split <;> rfl
    · cases h

/-- The value of a key is what the calls that did not throw have added to it. -/
theorem metered_value (key : String × String × ℤ) : valueAt (metered counters calls) key =
    valueAt counters key + (((taken counters calls).filter (fun c => c.key = key)).map
      Call.delta).sum := by
  induction calls generalizing counters with
  | nil => simp [metered, taken]
  | cons c cs ih =>
    unfold metered taken
    cases h : c.increment counters with
    | none => exact ih
    | some counters' =>
      dsimp only [Option.getD_some]
      rw [ih, increment_value h key]
      by_cases hkey : c.key = key
      · simp [hkey, add_assoc]
      · simp [hkey]

theorem metered_rows (hrows : ∀ r ∈ counters, ∃ t : ℕ, r.periodStart = periodStart t) :
    ∀ r ∈ metered counters calls, ∃ t : ℕ, r.periodStart = periodStart t := by
  induction calls generalizing counters with
  | nil => exact hrows
  | cons c cs ih =>
    refine ih ?_
    cases h : c.increment counters with
    | none => exact hrows
    | some counters' =>
      intro r hr
      rcases increment_rows h hr with ⟨r', hr', heq⟩ | heq
      · obtain ⟨t, ht⟩ := hrows r' hr'
        exact ⟨t, heq.trans ht⟩
      · exact ⟨c.now, heq⟩

/-- The usage of a month is counted under its first instant in UTC. -/
theorem metered_deltas (tenantId metricKey : String) :
    valueAt (metered [] calls) (tenantId, metricKey, periodStart now) =
      deltas (taken [] calls) tenantId metricKey now := by
  have hkeys : ∀ c : Call, decide (c.key = (tenantId, metricKey, periodStart now)) =
      decide (c.tenantId = tenantId ∧ c.metricKey = metricKey ∧ sameMonth c.now now) := by
    intro c
    simp only [Call.key, Prod.mk.injEq, periodStart_eq_iff]
  rw [metered_value]
  simp [valueAt, findUnique, deltas, hkeys]

/-- In a zone away from UTC the reader's month starts where no writer's does. -/
theorem usage_elsewhere {zone : Zone} (hz : zone.offset (periodStart now) ≠ 0)
    (tenantId metricKey : String) : valueAt (metered [] calls)
      (tenantId, metricKey, periodStart now - zone.offset (periodStart now)) = 0 := by
  have hnone : findUnique (metered [] calls)
      (tenantId, metricKey, periodStart now - zone.offset (periodStart now)) = none := by
    rw [findUnique, List.find?_eq_none]
    intro r hr hkey
    obtain ⟨t, ht⟩ := metered_rows (by simp) r hr
    have hstart : r.periodStart = periodStart now - zone.offset (periodStart now) := by
      have hkey := of_decide_eq_true hkey
      simp only [UsageCounter.key, Prod.mk.injEq] at hkey
      exact hkey.2.2
    have hb := zone.bounded (periodStart now)
    have hsame : sameMonth t now := sameMonth_of_close (by omega) (by omega)
    have heq := periodStart_eq_iff.mpr hsame
    omega
  rw [valueAt, hnone]
  rfl

theorem currentUsage_eq {zone : Zone} {now' : ℕ} (hsame : sameMonth now' now)
    (tenantId metricKey : String) : QuotaService.currentUsage zone now now' tenantId metricKey
      counters = valueAt counters
        (tenantId, metricKey, periodStart now - zone.offset (periodStart now)) := by
  rw [QuotaService.currentUsage, hsame.2]
  rfl

end

/-- The quota is exceeded exactly when the month's deltas reach the limit if and only if the
server's zone shows UTC at the first of the month, or the limit has the deltas and zero on one
side. -/
theorem quota_exceeded_iff (zone : Zone) (calls : List Call) (tenantId metricKey : String)
    (now now' : ℕ) (hsame : sameMonth now' now) (limit : Js.Number) :
    (QuotaService.assertWithinQuota zone now now' tenantId metricKey (some limit)
        (metered [] calls) = .error { metricKey, limit } ↔
      (Js.Number.finite (deltas (taken [] calls) tenantId metricKey now)).ge limit = true) ↔
    zone.offset (periodStart now) = 0 ∨
      ((Js.Number.finite 0).ge limit = true ↔
        (Js.Number.finite (deltas (taken [] calls) tenantId metricKey now)).ge limit = true) := by
  have hthrows : QuotaService.assertWithinQuota zone now now' tenantId metricKey (some limit)
      (metered [] calls) = .error { metricKey, limit } ↔
        (Js.Number.finite (valueAt (metered [] calls)
          (tenantId, metricKey, periodStart now - zone.offset (periodStart now)))).ge limit =
            true := by
    simp only [QuotaService.assertWithinQuota, currentUsage_eq hsame]
    split <;> simp_all
  rw [hthrows]
  by_cases hz : zone.offset (periodStart now) = 0
  · rw [hz, sub_zero, metered_deltas]
    simp
  · rw [usage_elsewhere hz, Int.cast_zero]
    simp [hz]

/-- Three hours behind UTC. -/
def brasilia : Zone where
  offset _ := -10800000
  bounded _ := by decide

/-- Ten hosts are counted one by one on 21 September 2026. -/
def tenHosts : List Call :=
  List.replicate 10 { now := 1790000000000, tenantId := "t", metricKey := "hosts", delta := 1 }

theorem ten_hosts_exceed : (QuotaService.assertWithinQuota brasilia 1790000000000 1790000000000
        "t" "hosts" (some (.finite 11)) (metered [] tenHosts) =
          .error { metricKey := "hosts", limit := .finite 11 } ↔
      (Js.Number.finite (deltas (taken [] tenHosts) "t" "hosts" 1790000000000)).ge (.finite 11) =
        true) ↔
    brasilia.offset (periodStart (1790000000000 : ℕ)) = 0 ∨
      ((Js.Number.finite 0).ge (.finite 11) = true ↔
        (Js.Number.finite (deltas (taken [] tenHosts) "t" "hosts" 1790000000000)).ge (.finite 11) =
          true) :=
  quota_exceeded_iff brasilia tenHosts "t" "hosts" 1790000000000 1790000000000 (by decide)
    (.finite 11)

theorem usage_unseen : ¬ ∀ (zone : Zone) (calls : List Call) (tenantId metricKey : String)
    (now now' : ℕ), sameMonth now' now → (∀ c ∈ calls, sameMonth c.now now) →
    ∀ limit : Js.Number,
      QuotaService.assertWithinQuota zone now now' tenantId metricKey (some limit)
          (metered [] calls) = .error { metricKey, limit } ↔
        (Js.Number.finite (deltas (taken [] calls) tenantId metricKey now)).ge limit = true := by
  intro h
  have hten := h brasilia tenHosts "t" "hosts" 1790000000000 1790000000000 (by decide)
    (by decide) (.finite 5)
  exact absurd hten (by decide +kernel)

end WaOps.Entitlements
