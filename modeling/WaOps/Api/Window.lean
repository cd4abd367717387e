import WaOps.Api.Answers
import WaOps.Api.Metrics

namespace WaOps.Api
open Lib Lib.Js Lib.Scoped

section
variable {ofText : Json → Number} {query : Option Json} {q : SeriesQuery}

/-- The bounds of the schema. -/
structure Accepted (q : SeriesQuery) : Prop where
  fromMs : ∀ n ∈ q.fromMs, 0 ≤ n
  toMs : ∀ n ∈ q.toMs, 0 ≤ n
  buckets : ∀ n ∈ q.buckets, 1 ≤ n ∧ n ≤ 200

theorem querySchema_ok (h : QuerySchema ofText query = .ok q) : Accepted q := by
  unfold QuerySchema Zod.object at h
  split at h
  · obtain ⟨f₅, interface, h₅, -, rfl⟩ := Zod.ap_ok h
    obtain ⟨f₄, mount, h₄, -, rfl⟩ := Zod.ap_ok h₅
    obtain ⟨f₃, buckets, h₃, hbuckets, rfl⟩ := Zod.ap_ok h₄
    obtain ⟨f₂, toMs, h₂, hto, rfl⟩ := Zod.ap_ok h₃
    obtain ⟨f₁, fromMs, h₁, hfrom, rfl⟩ := Zod.ap_ok h₂
    obtain ⟨metric, -, rfl⟩ := Zod.map_ok h₁
    refine ⟨fun n hn => (Zod.optional_coerceInt_ok hfrom n hn).1,
      fun n hn => (Zod.optional_coerceInt_ok hto n hn).1, ?_⟩
    intro n hn
    obtain ⟨hlow, hhigh⟩ := Zod.optional_coerceInt_ok hbuckets n hn
    exact ⟨hlow, hhigh 200 rfl⟩
  · cases h

end

/-- The bounds the query and the clock give. -/
def SeriesQuery.toOr (q : SeriesQuery) (now : Int) : Int := q.toMs.getD now

def SeriesQuery.fromOr (q : SeriesQuery) (now : Int) : Int :=
  q.fromMs.getD (q.toOr now - defaultWindowMs)

def SeriesQuery.spanMs (q : SeriesQuery) (now : Int) : Int := q.toOr now - q.fromOr now

def bucketCount (buckets : Option Int) (spanMs : Int) : Int :=
  buckets.getD (min defaultBuckets (max 10 (spanMs / 60000)))

def SeriesQuery.bucketsOr (q : SeriesQuery) (now : Int) : Int :=
  bucketCount q.buckets (q.spanMs now)

def SeriesQuery.bucketMs (q : SeriesQuery) (now : Int) : Int :=
  ceilDiv (q.spanMs now) (q.bucketsOr now)

def strideMinutes (bucketMs : Int) : Int := max 1 ((bucketMs + 30000) / 60000)

/-- The latest time of a date. -/
def maxDate : Int := 8640000000000000

variable {q : SeriesQuery} {now : Int} {buckets : Option Int}

theorem bucketCount_bounds (spanMs : Int) (h : ∀ n ∈ buckets, 1 ≤ n ∧ n ≤ 200) :
    1 ≤ bucketCount buckets spanMs ∧ bucketCount buckets spanMs ≤ 200 := by
  cases buckets with
  | none =>
    simp only [bucketCount, Option.getD_none, defaultBuckets]
    omega
  | some b => exact h b rfl

theorem ceilDiv_bounds {a b : Int} (ha : 0 < a) (hb : 1 ≤ b) :
    1 ≤ ceilDiv a b ∧ ceilDiv a b ≤ a := by
  unfold ceilDiv
  constructor
  · rw [Int.le_ediv_iff_mul_le (by omega)]
    omega
  · rw [← Int.lt_add_one_iff, Int.ediv_lt_iff_lt_mul (by omega)]
    nlinarith

theorem fromOr_ge (hq : Accepted q) (hnow : 0 ≤ now) : -defaultWindowMs ≤ q.fromOr now := by
  have hto : 0 ≤ q.toOr now := by
    unfold SeriesQuery.toOr
    cases hto : q.toMs with
    | none => exact hnow
    | some n => exact hq.toMs n hto
  unfold SeriesQuery.fromOr
  cases hfrom : q.fromMs with
  | none =>
    simp only [Option.getD_none]
    omega
  | some n =>
    have hn := hq.fromMs n hfrom
    simp only [Option.getD_some, defaultWindowMs]
    omega

theorem spanMs_lt (hq : Accepted q) (hnow : 0 ≤ now) (hto : q.toOr now ≤ maxDate) :
    q.spanMs now < 2 ^ 53 := by
  have hfrom := fromOr_ge hq hnow
  simp only [defaultWindowMs] at hfrom
  simp only [maxDate] at hto
  unfold SeriesQuery.spanMs
  omega

theorem fromFor_exact (hq : Accepted q) (hnow : 0 ≤ now) (hto : q.toOr now ≤ maxDate) :
    fromFor q (.finite (q.toOr now)) = .finite (q.fromOr now) := by
  have hlow := fromOr_ge hq hnow
  unfold fromFor SeriesQuery.fromOr
  cases hms : q.fromMs with
  | some ms => rfl
  | none =>
    simp only [SeriesQuery.fromOr, hms, Option.getD_none, defaultWindowMs, maxDate] at hlow hto ⊢
    exact sub_int (by omega)

/-- The test of the handler. -/
theorem window_ge (hq : Accepted q) (hnow : 0 ≤ now) (hto : q.toOr now ≤ maxDate) :
    (window q now).fromMs.ge (window q now).toMs ↔ q.spanMs now ≤ 0 := by
  change (fromFor q (.finite (q.toOr now))).ge (.finite (q.toOr now)) ↔ _
  rw [fromFor_exact hq hnow hto, ge_int, SeriesQuery.spanMs]
  omega

/-- Up to the latest date the doubles are the integers. -/
theorem window_exact (hq : Accepted q) (hnow : 0 ≤ now) (hto : q.toOr now ≤ maxDate)
    (hspan : 0 < q.spanMs now) : window q now =
    { fromMs := .finite (q.fromOr now)
      toMs := .finite (q.toOr now)
      spanMs := .finite (q.spanMs now)
      buckets := .finite (q.bucketsOr now)
      bucketMs := .finite (q.bucketMs now)
      minutes := .finite (strideMinutes (q.bucketMs now)) } := by
  have hsmall := spanMs_lt hq hnow hto
  have hbounds := bucketCount_bounds (q.spanMs now) hq.buckets
  have hwidth : 1 ≤ q.bucketMs now ∧ q.bucketMs now ≤ q.spanMs now :=
    ceilDiv_bounds hspan hbounds.1
  have hfrom := fromFor_exact hq hnow hto
  have hsub : (Number.finite (q.toOr now)).sub (.finite (q.fromOr now)) =
      .finite (q.spanMs now) := by
    unfold SeriesQuery.spanMs at hspan hsmall ⊢
    exact sub_int (by omega)
  have hbuckets : bucketsFor q (.finite (q.spanMs now)) = .finite (q.bucketsOr now) := by
    unfold bucketsFor SeriesQuery.bucketsOr bucketCount
    cases hb : q.buckets with
    | some b => rfl
    | none =>
      dsimp only
      rw [div_int (by omega), floor_quotient hspan hsmall (by omega) (by omega), max_int, min_int]
      rfl
  have hceil : ((Number.finite (q.spanMs now)).div (.finite (q.bucketsOr now))).ceil =
      .finite (q.bucketMs now) := by
    have hone : 1 ≤ q.bucketsOr now := hbounds.1
    have hmax : q.bucketsOr now ≤ 200 := hbounds.2
    rw [div_int (by omega), ceil_quotient hspan hsmall (by omega) (by omega)]
    rfl
  have hround : ((Number.finite (q.bucketMs now)).div (.finite (60000 : Int))).round =
      .finite ((q.bucketMs now + 30000) / 60000 : Int) := by
    rw [div_int (by omega)]
    exact round_quotient (d := 30000) (by omega) (by omega) (by omega) (by omega)
  have hto' : Number.finite (q.toMs.getD now) = .finite (q.toOr now) := rfl
  simp only [window, hto', hfrom, hsub, hbuckets, hceil, hround, max_int]
  rfl

/-- Both instants are dates and the bin width is an int of the database. -/
structure Window.InRange (w : Window) : Prop where
  fromMs : w.fromMs.timeClip.isSome
  toMs : w.toMs.timeClip.isSome
  minutes : (int4 w.minutes).isSome

/-- The window ends on a date, a bin has less than 2^31 minutes and the database reads the
bounds. -/
structure SeriesQuery.Fits (q : SeriesQuery) (env : Env) : Prop where
  date : q.toOr env.now ≤ maxDate
  width : q.spanMs env.now ≤ 128849018849999 * q.bucketsOr env.now
  read : env.readsInstant (q.fromOr env.now) ∧ env.readsInstant (q.toOr env.now)

variable {env : Env} {ctx : Caller} {id : String} {query : Option Json} {host : Host} {db : Store}
  {w : Window} {b : Bins} {n : Int}

theorem int4_int : int4 (.finite n) =
    if -2147483648 ≤ n ∧ n ≤ 2147483647 then some n else none := by
  simp [int4, Option.filter]

/-- What `series` does after its host is found. -/
theorem series_outcome (hq : QuerySchema env.ofText query = .ok q)
    (hhost : outcome (findHost env ctx id) db = (.ok host, db)) :
    outcome (MetricsController.series env ctx id query) db =
      let w := window q env.now
      let resourceId := metricResource host
      if w.fromMs.ge w.toMs then
        (.error (.api (.validation "from must be before to" none)), db)
      else
        match w.bins env.readsInstant with
        | none => (.error .internal, db)
        | some b =>
          let rows := (db .metricSamples).rows.filter (picked ctx.tenantId resourceId q b)
          (.ok { hostId := host.id, resourceId, fromMs := b.fromMs, toMs := b.toMs,
                 bucketMs := b.bucketMs, series := binnedSeries b rows }, db) := by
  unfold MetricsController.series
  simp only [parseQuery, hq, pure_bind]
  rw [outcome_bind, hhost]
  dsimp only
  rw [outcome_bind]
  unfold throwIf
  by_cases hge : (window q env.now).fromMs.ge (window q env.now).toMs
  · simp only [if_pos hge]
    rfl
  · simp only [if_neg hge, outcome_pure]
    rw [outcome_bind]
    cases (window q env.now).bins env.readsInstant with
    | none => rfl
    | some b => rfl

theorem stride_le_iff : strideMinutes n ≤ 2147483647 ↔ n ≤ 128849018849999 := by
  unfold strideMinutes
  omega

theorem ceilDiv_le_iff {a b k : Int} (hb : 1 ≤ b) : ceilDiv a b ≤ k ↔ a ≤ k * b := by
  unfold ceilDiv
  rw [← Int.lt_add_one_iff, Int.ediv_lt_iff_lt_mul (by omega), add_mul]
  omega

/-- An integer window has bins where it fits. -/
theorem bins_exact (hq : Accepted q) (hnow : 0 ≤ now) (hto : q.toOr now ≤ maxDate)
    (hspan : 0 < q.spanMs now) (readsInstant : Int → Bool) :
    (window q now).bins readsInstant =
      if q.spanMs now ≤ 128849018849999 * q.bucketsOr now ∧
          readsInstant (q.fromOr now) ∧ readsInstant (q.toOr now) then
        some { fromMs := q.fromOr now, toMs := q.toOr now, bucketMs := q.bucketMs now
               minutes := strideMinutes (q.bucketMs now) }
      else none := by
  have hlow := fromOr_ge hq hnow
  have hone : 1 ≤ q.bucketsOr now := (bucketCount_bounds (q.spanMs now) hq.buckets).1
  have hpos : 1 ≤ strideMinutes (q.bucketMs now) := le_max_left 1 _
  have hminutes : int4 (.finite (strideMinutes (q.bucketMs now))) =
      if q.spanMs now ≤ 128849018849999 * q.bucketsOr now then
        some (strideMinutes (q.bucketMs now))
      else none := by
    have hfit : strideMinutes (q.bucketMs now) ≤ 2147483647 ↔
        q.spanMs now ≤ 128849018849999 * q.bucketsOr now :=
      stride_le_iff.trans (ceilDiv_le_iff hone)
    rw [int4_int]
    exact if_congr (by omega) rfl rfl
  have hfrom : (Number.finite (q.fromOr now)).timeClip = some (q.fromOr now) := by
    simp only [maxDate, defaultWindowMs, SeriesQuery.spanMs] at hto hlow hspan
    rw [timeClip_int, if_pos (by omega)]
  have hdate : (Number.finite (q.toOr now)).timeClip = some (q.toOr now) := by
    simp only [maxDate, defaultWindowMs, SeriesQuery.spanMs] at hto hlow hspan
    rw [timeClip_int, if_pos (by omega)]
  rw [window_exact hq hnow hto hspan, Window.bins]
  simp only [hminutes, hfrom, hdate, integer_int, Option.bind_eq_bind]
  by_cases hwidth : q.spanMs now ≤ 128849018849999 * q.bucketsOr now
  · simp [hwidth]
  · simp [hwidth]

theorem bins_inRange {readsInstant : Int → Bool} (h : w.bins readsInstant = some b) :
    w.InRange := by
  simp only [Window.bins, Option.bind_eq_bind] at h
  obtain ⟨minutes, hminutes, h⟩ := Option.bind_eq_some_iff.mp h
  obtain ⟨fromMs, hfrom, h⟩ := Option.bind_eq_some_iff.mp h
  obtain ⟨toMs, hto, -⟩ := Option.bind_eq_some_iff.mp h
  exact ⟨by simp [hfrom], by simp [hto], by simp [hminutes]⟩

theorem inRange_date (h : (window q now).InRange) : q.toOr now ≤ maxDate := by
  have hdate : ((Number.finite (q.toOr now)).timeClip).isSome := h.toMs
  rw [timeClip_int] at hdate
  split at hdate
  · rename_i hto
    exact hto.2
  · cases hdate

/-- The computed values are in range and no query fails for its bounds exactly where it fits. -/
theorem series_in_range_iff (hnow : 0 ≤ env.now) (hq : QuerySchema env.ofText query = .ok q)
    (hhost : outcome (findHost env ctx id) db = (.ok host, db))
    (hwindow : (window q env.now).fromMs.ge (window q env.now).toMs = false) :
    (window q env.now).InRange ∧
        (outcome (MetricsController.series env ctx id query) db).1 ≠ .error .internal ↔
      q.Fits env := by
  have haccepted := querySchema_ok hq
  by_cases hto : q.toOr env.now ≤ maxDate
  · have hspan : 0 < q.spanMs env.now := by
      have hge := window_ge haccepted hnow hto
      rw [hwindow] at hge
      simpa using hge
    have hbins := bins_exact haccepted hnow hto hspan env.readsInstant
    rw [series_outcome hq hhost]
    dsimp only
    rw [if_neg (by simp [hwindow])]
    constructor
    · rintro ⟨-, hanswer⟩
      by_cases hfit : q.spanMs env.now ≤ 128849018849999 * q.bucketsOr env.now ∧
          env.readsInstant (q.fromOr env.now) ∧ env.readsInstant (q.toOr env.now)
      · exact ⟨hto, hfit.1, hfit.2⟩
      · rw [hbins, if_neg hfit] at hanswer
        exact absurd rfl hanswer
    · intro hfits
      rw [if_pos ⟨hfits.width, hfits.read⟩] at hbins
      refine ⟨bins_inRange hbins, ?_⟩
      rw [hbins]
      simp
  · apply iff_of_false
    · rintro ⟨hrange, -⟩
      exact hto (inRange_date hrange)
    · intro hfits
      exact hto hfits.date

def webHost : Host :=
  { id := "web-1"
    tenantId := "t"
    name := "web-1"
    osType := none
    osVersion := none
    arch := none
    environment := none
    createdAt := 0
    updatedAt := 0 }

def oneHost : Store
  | .hosts => { rows := [webHost], unique := List.nodup_singleton _ }
  | i => { rows := [], unique := noRows_unique i }

def viewer : Caller :=
  { userId := "user", tenantId := "t", organizationScope := none, sub := none, requestId := none }

/-- In July 2026, with a database that reads years of four digits. -/
def viewEnv : Env :=
  { now := 1782907200000
    newId := fun _ => "1"
    randomHex := "00"
    sha256 := fun text => text
    parseUuid := some
    ofText
      | .string text => number text
      | _ => .nan
    rollupAvailable := true
    readsInstant := fun ms => ms < 253402300800000 }

theorem webHost_found :
    outcome (findHost viewEnv viewer "web-1") oneHost = (.ok webHost, oneHost) :=
  rfl

def noBounds : SeriesQuery := ⟨none, none, none, none, none, none⟩

theorem noBounds_accepted : Accepted noBounds := ⟨by simp [noBounds], by simp [noBounds],
  by simp [noBounds]⟩

theorem defaults_in_range : (window noBounds viewEnv.now).InRange ∧
    (outcome (MetricsController.series viewEnv viewer "web-1" (some (.object []))) oneHost).1 ≠
      .error .internal := by
  have hwindow : (window noBounds viewEnv.now).fromMs.ge (window noBounds viewEnv.now).toMs =
      false := by
    rw [Bool.eq_false_iff]
    exact mt (window_ge noBounds_accepted (by decide) (by decide)).mp (by decide)
  refine (series_in_range_iff (q := noBounds) (by decide) rfl webHost_found hwindow).mpr ?_
  exact ⟨by decide, by decide, by decide⟩

/-- One millisecond after the latest date. -/
def tooLate : Option Json :=
  some (.object [("from", .string "0"), ("to", .string "8640000000000001")])

theorem tooLate_parsed : QuerySchema viewEnv.ofText tooLate =
    .ok { noBounds with fromMs := some 0, toMs := some 8640000000000001 } := by
  have hfrom : number "0" = .finite (0 : Int) := by
    rw [show "0" = integerText 0 by decide +kernel]
    exact number_integerText (by decide)
  have hto : number "8640000000000001" = .finite (8640000000000001 : Int) := by
    rw [show "8640000000000001" = integerText 8640000000000001 by decide +kernel]
    exact number_integerText (by decide)
  simp [QuerySchema, tooLate, Zod.object, Zod.field, Json.field, Zod.optional, Zod.coerceInt,
    toNumber, viewEnv, hfrom, hto, Zod.settle, Zod.Parsed.map, Zod.Parsed.ap, noBounds]

/-- The instants of an accepted query need not be dates. -/
theorem late_out_of_range : ¬ ∀ (env : Env) (ctx : Caller) (id : String) (query : Option Json)
    (q : SeriesQuery) (host : Host) (db : Store), 0 ≤ env.now →
    QuerySchema env.ofText query = .ok q →
    outcome (findHost env ctx id) db = (.ok host, db) →
    (window q env.now).fromMs.ge (window q env.now).toMs = false →
    (window q env.now).InRange ∧
      (outcome (MetricsController.series env ctx id query) db).1 ≠ .error .internal := by
  intro h
  have hrange := (h viewEnv viewer "web-1" tooLate _ webHost oneHost (by decide) tooLate_parsed
    webHost_found (by decide +kernel)).1
  have hdate : (Number.finite (8640000000000001 : Int)).timeClip.isSome := hrange.toMs
  rw [timeClip_int] at hdate
  revert hdate
  decide

end WaOps.Api
