import Mathlib.Algebra.Order.Ring.Rat
import WaOps.Lib.Js

namespace WaOps.Agent
open Lib

/-- The float64 operations of the parser. Nothing proved here depends on how they round. -/
structure Float64 (F : Type) where
  /-- `strconv.ParseFloat`, none for an error. -/
  parse : List Char → Option F
  ofNat : Nat → F
  add : F → F → F
  sub : F → F → F
  mul : F → F → F
  div : F → F → F
  lt : F → F → Bool
  le : F → F → Bool
  isNaN : F → Bool

inductive CollectError where
  | counterReset | noSamples | badNumber | outOfRange
  deriving DecidableEq, Repr

structure CpuTimes (F : Type) where
  idle : F
  total : F

section Parser
variable {F : Type} (float : Float64 F)

/-- `unicode.IsSpace` -/
def isSpace (c : Char) : Bool :=
  c.isWhitespace || c == '\x0b' || c == '\x0c' || c == '\u0085' || c == '\u00a0' ||
    c == '\u1680' || ('\u2000' ≤ c && c ≤ '\u200a') || c == '\u2028' || c == '\u2029' ||
    c == '\u202f' || c == '\u205f' || c == '\u3000'

/-- `strings.Fields` -/
def fields (line : List Char) : List (List Char) :=
  (line.splitOnP isSpace).filter (fun field => field ≠ [])

def cpuTimes : List F → Except CollectError (CpuTimes F)
  | user :: nice :: system :: idle :: rest =>
    let iowait := rest.headD (float.ofNat 0)
    let idleAll := float.add idle iowait
    .ok { idle := idleAll
          total := float.add (float.add (float.add user nice) system) idleAll }
  | _ => .error .noSamples

/-- The first line of the content that begins as asked decides. -/
def parseCpuLine (content : String) : Except CollectError (CpuTimes F) :=
  match (content.toList.splitOn '\n').find? (fun line => "cpu ".toList.isPrefixOf line) with
  | none => .error .noSamples
  | some line =>
    match (fields line).tail.mapM float.parse with
    | none => .error .badNumber
    | some vals => cpuTimes float vals

def parseProcStat (prev cur : String) : Except CollectError F := do
  let pPrev ← parseCpuLine float prev
  let pCur ← parseCpuLine float cur
  if float.lt pCur.total pPrev.total then throw .counterReset
  let dIdle := float.sub pCur.idle pPrev.idle
  let dTotal := float.sub pCur.total pPrev.total
  if float.le dTotal (float.ofNat 0) then throw .noSamples
  let usage := float.mul (float.sub (float.ofNat 1) (float.div dIdle dTotal)) (float.ofNat 100)
  if float.lt usage (float.ofNat 0) || float.lt (float.ofNat 100) usage || float.isNaN usage then
    throw .outOfRange
  return usage

end Parser

structure HostSample (F : Type) where
  metric : String
  resourceId : String
  observedAt : Int
  value : F
  dimensions : Option (String × String) := none
  deriving DecidableEq, Repr

/-- What a cycle reads: the text of /proc/stat, and of the other sources what their parsers
make of them. A source that cannot be read or parsed is absent. -/
structure Sources (F : Type) where
  now : Int
  stat : Option String
  /-- used, available -/
  memInfo : Option (F × F) := none
  loadAvg : Option (F × F × F) := none
  /-- available, used -/
  statfs : Option (F × F) := none
  /-- name, rx, tx -/
  netDev : List (String × F × F) := []
  uptime : Option F := none

structure Collector where
  hostResourceId : String
  prevCPU : String := ""
  deriving DecidableEq, Repr

def newCollector (hostResourceId : String) : Collector :=
  { hostResourceId }

section Collect
variable {F : Type} (float : Float64 F)

def Collector.sample (c : Collector) (src : Sources F) (metric : String) (value : F)
    (dimensions : Option (String × String)) : HostSample F :=
  { metric, resourceId := c.hostResourceId, observedAt := src.now, value, dimensions }

/-- The CPU part of a cycle: its sample, if any, and the window it leaves. -/
def Collector.collectCpu (c : Collector) (cur : String) : Option F × Collector :=
  let (usage, c') : Option F × Collector :=
    if c.prevCPU ≠ "" then
      match parseProcStat float c.prevCPU cur with
      | .ok usage => (some usage, c)
      | .error _ => (none, { c with prevCPU := "" }) -- the window is reset
    else (none, c)
  (usage, if c'.prevCPU = "" then { c' with prevCPU := cur } else c')

/-- The samples of the sources other than /proc/stat. -/
def Collector.collectOthers (c : Collector) (src : Sources F) : List (HostSample F) :=
  let add := c.sample src
  let memory := src.memInfo.elim [] (fun (used, avail) =>
    [add "host.memory.used_bytes" used none, add "host.memory.available_bytes" avail none])
  let load := src.loadAvg.elim [] (fun (l1, l5, l15) =>
    [add "host.load.1" l1 none, add "host.load.5" l5 none, add "host.load.15" l15 none])
  let filesystem := src.statfs.elim [] (fun (avail, used) =>
    [add "host.filesystem.available_bytes" avail (some ("mount", "/")),
      add "host.filesystem.used_bytes" used (some ("mount", "/"))])
  let network := src.netDev.flatMap (fun (name, rx, tx) =>
    [add "host.network.rx_bytes_total" rx (some ("interface", name)),
      add "host.network.tx_bytes_total" tx (some ("interface", name))])
  let uptime := src.uptime.elim [] (fun up => [add "host.uptime_seconds" up none])
  memory ++ load ++ filesystem ++ network ++ uptime

def cpuMetric : String := "host.cpu.usage_percent"

def Collector.collect (c : Collector) (src : Sources F) : List (HostSample F) × Collector :=
  match src.stat with
  | none => (c.collectOthers src, c)
  | some cur =>
    let (usage, c') := c.collectCpu float cur
    (usage.toList.map (fun usage => c.sample src cpuMetric usage none) ++ c.collectOthers src, c')

/-- The host samples of one call of collectAndQueue, which makes a collector of its own. -/
def collectHost (hostResourceId : String) (src : Sources F) : List (HostSample F) :=
  ((newCollector hostResourceId).collect float src).1

/-- The values of the CPU samples among those of a cycle. -/
def cpuValues (samples : List (HostSample F)) : List F :=
  (samples.filter (fun s => s.metric = cpuMetric)).map HostSample.value

variable {float} {c : Collector} {src : Sources F} {cur : String} {usage : F}

theorem collectOthers_cpu : cpuValues (c.collectOthers src) = [] := by
  have hnetwork : ∀ s ∈ src.netDev.flatMap (fun (name, rx, tx) =>
      [c.sample src "host.network.rx_bytes_total" rx (some ("interface", name)),
        c.sample src "host.network.tx_bytes_total" tx (some ("interface", name))]),
      s.metric ≠ cpuMetric := by
    intro s hs
    obtain ⟨⟨name, rx, tx⟩, -, hm⟩ := List.mem_flatMap.mp hs
    rcases List.mem_cons.mp hm with rfl | hm
    · simp [Collector.sample, cpuMetric]
    · rw [List.mem_singleton.mp hm]
      simp [Collector.sample, cpuMetric]
  have hnone : ∀ s ∈ c.collectOthers src, s.metric ≠ cpuMetric := by
    intro s hs
    unfold Collector.collectOthers at hs
    simp only [List.mem_append] at hs
    rcases hs with (((hs | hs) | hs) | hs) | hs
    · cases hm : src.memInfo <;> simp only [hm, Option.elim, List.not_mem_nil] at hs
      simp only [List.mem_cons, List.not_mem_nil, or_false] at hs
      rcases hs with rfl | rfl <;> simp [Collector.sample, cpuMetric]
    · cases hm : src.loadAvg <;> simp only [hm, Option.elim, List.not_mem_nil] at hs
      simp only [List.mem_cons, List.not_mem_nil, or_false] at hs
      rcases hs with rfl | rfl | rfl <;> simp [Collector.sample, cpuMetric]
    · cases hm : src.statfs <;> simp only [hm, Option.elim, List.not_mem_nil] at hs
      simp only [List.mem_cons, List.not_mem_nil, or_false] at hs
      rcases hs with rfl | rfl <;> simp [Collector.sample, cpuMetric]
    · exact hnetwork s hs
    · cases hm : src.uptime <;> simp only [hm, Option.elim, List.not_mem_nil] at hs
      rw [List.mem_singleton.mp hs]
      simp [Collector.sample, cpuMetric]
  have hfilter : (c.collectOthers src).filter (fun s => s.metric = cpuMetric) = [] := by
    rw [List.filter_eq_nil_iff]
    simpa using hnone
  simp [cpuValues, hfilter]

/-- The CPU samples of a cycle are those of its window. -/
theorem collect_cpu (hs : src.stat = some cur) :
    cpuValues (c.collect float src).1 = (c.collectCpu float cur).1.toList := by
  have hothers : cpuValues (c.collectOthers src) = [] := collectOthers_cpu
  unfold cpuValues at hothers ⊢
  simp only [Collector.collect, hs]
  cases (c.collectCpu float cur).1 <;> simp [Collector.sample, hothers]

/-- A new collector has no window to measure against. -/
theorem collectHost_cpu (host : String) (src : Sources F) :
    cpuValues (collectHost float host src) = [] := by
  unfold collectHost
  cases hs : src.stat with
  | none =>
    simp only [Collector.collect, hs]
    exact collectOthers_cpu
  | some cur =>
    rw [collect_cpu hs]
    simp [Collector.collectCpu, newCollector]

end Collect

section Cycles
variable {F : Type} (float : Float64 F)

/-- Two successive cycles whose snapshots give a usage. -/
def Pair (cycles : List (Sources F)) (n : Nat) (usage : F) : Prop :=
  ∃ earlier later prev cur, cycles[n]? = some earlier ∧ cycles[n + 1]? = some later ∧
    earlier.stat = some prev ∧ later.stat = some cur ∧ parseProcStat float prev cur = .ok usage

/-- Each cycle emits the one usage measured against the cycle before it. -/
def Measured (host : String) (cycles : List (Sources F)) : Prop :=
  ∀ n usage, Pair float cycles n usage →
    (cycles.map (collectHost float host))[n + 1]?.map cpuValues = some [usage]

/-- The snapshots of no two successive cycles give a usage: each time the counters have gone
back or stood still, or a snapshot does not parse. -/
def Unmeasurable (cycles : List (Sources F)) : Prop :=
  ∀ n usage, ¬ Pair float cycles n usage

/-- A collector that is kept from one cycle to the next. -/
def Collector.cycles (c : Collector) : List (Sources F) → List (List (HostSample F))
  | [] => []
  | src :: rest =>
    let (samples, c') := c.collect float src
    samples :: c'.cycles rest

variable {float}

/-- Even a kept collector measures every cycle against the snapshot its window began with,
for as long as the parser succeeds. -/
theorem kept_window {c : Collector} {cycles : List (Sources F)} (hc : c.prevCPU ≠ "")
    (hok : ∀ src ∈ cycles, ∃ cur usage, src.stat = some cur ∧
      parseProcStat float c.prevCPU cur = .ok usage) :
    c.cycles float cycles = cycles.map (fun src => (c.collect float src).1) := by
  induction cycles with
  | nil => rfl
  | cons src rest ih =>
    obtain ⟨cur, usage, hs, hu⟩ := hok src List.mem_cons_self
    have hsame : (c.collect float src).2 = c := by
      simp [Collector.collect, hs, Collector.collectCpu, hc, hu]
    rw [Collector.cycles, List.map_cons]
    simp only [hsame]
    rw [ih (fun src hm => hok src (List.mem_cons_of_mem _ hm))]

/-- The scheduler's cycles measure what they should exactly when there is nothing to measure. -/
theorem measured_iff_unmeasurable (float : Float64 F) (host : String)
    (cycles : List (Sources F)) :
    Measured float host cycles ↔ Unmeasurable float cycles := by
  constructor
  · intro h n usage hp
    have hval := h n usage hp
    obtain ⟨earlier, later, prev, cur, -, hl, -⟩ := hp
    rw [List.getElem?_map, hl] at hval
    simp [collectHost_cpu] at hval
  · intro h n usage hp
    exact absurd hp (h n usage)

/-- Exact arithmetic, and the texts of whole numbers. -/
def exact : Float64 Rat where
  parse ds := (Js.digitsValue 10 ds).map (fun n => (n : Rat))
  ofNat n := n
  add := (· + ·)
  sub := (· - ·)
  mul := (· * ·)
  div := (· / ·)
  lt a b := a < b
  le a b := a ≤ b
  isNaN _ := false

/-- Half of the time between the snapshots is idle; no cycle says so. -/
theorem half_idle_unseen : ¬ Measured exact "host_m1"
    [{ now := 0, stat := some "cpu  100 0 50 800 50\n" },
      { now := 10, stat := some "cpu  150 0 100 900 50\n" }] := by
  intro h
  have hval := h 0 50 ⟨_, _, _, _, rfl, rfl, rfl, rfl, by decide +kernel⟩
  simp [collectHost_cpu] at hval

end Cycles

end WaOps.Agent
