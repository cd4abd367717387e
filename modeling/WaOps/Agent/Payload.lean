import Mathlib.Algebra.Order.Ring.Rat
import WaOps.Agent.Bounds
import WaOps.Agent.Session
import WaOps.Contracts.AgentProtocol

namespace WaOps.Agent
open Lib Lib.Runs Contracts

/-- The body of SendMetrics. -/
def sendMetricsBody (agentId : String) (sequence : Int) (samples : List Js.Json) : Js.Json :=
  .object [("protocol_version", .number (.finite 1)), ("agent_id", .string agentId),
    ("sequence", .number (.finite sequence)), ("samples", .array samples)]

/-- The body of a flush; it sends nothing where there is no sample. -/
def flushBody (agentId : String) (b : Limited Js.Json) : Option Js.Json :=
  let (batch, firstSeq) := b.peekBatch maxItems
  if batch.length = 0 then none else some (sendMetricsBody agentId firstSeq batch)

/-- A batch that satisfies the sample rules on its own. -/
def ValidBatch (samples : List Js.Json) : Prop :=
  samples.length ≤ maxSamples ∧ ∀ v ∈ samples, (MetricSampleV1 v).isSome

/-- Every batch given to the buffer is valid. -/
def EnqueuesValid (_ : Account Js.Json) : Call Js.Json → Prop
  | .enqueue samples _ => ValidBatch samples
  | _ => True

/-- The gateway's schema takes the body, if one is sent. -/
def Acceptable (agentId : String) (b : Limited Js.Json) : Prop :=
  ∀ body, flushBody agentId b = some body → (MetricsBatchV1 body).isSome

/-- The number of samples in the batches a request carries. -/
def sampleCount (b : Limited Js.Json) : Nat :=
  ((b.items.take maxItems).map (fun it => it.samples.length)).sum

theorem metricsBatch_isSome_iff (agentId : String) (sequence : Int) (samples : List Js.Json) :
    (MetricsBatchV1 (sendMetricsBody agentId sequence samples)).isSome ↔
      agentId ≠ "" ∧ 0 ≤ sequence ∧ samples.length ≤ maxSamples ∧
        ∀ v ∈ samples, (MetricSampleV1 v).isSome := by
  rw [← samplesV1_isSome_iff]
  by_cases ha : agentId = ""
  · simp [MetricsBatchV1, sendMetricsBody, Js.Json.field, nonEmpty, literalOne, ha]
  · by_cases hs : 0 ≤ sequence
    · cases hv : samplesV1 (some (.array samples)) <;>
        simp [MetricsBatchV1, sendMetricsBody, Js.Json.field, nonEmpty, literalOne, natural, ha,
          hs, hv]
    · simp [MetricsBatchV1, sendMetricsBody, Js.Json.field, nonEmpty, literalOne, natural, ha, hs]

theorem peekBatch_length (b : Limited Js.Json) :
    (b.peekBatch maxItems).1.length = sampleCount b := by
  unfold Limited.peekBatch sampleCount
  split
  · rename_i h
    simp [h]
  · simp [List.length_flatMap]

/-- What a buffer of valid batches holds. -/
structure Stocked (s : Account Js.Json) : Prop where
  next : 1 ≤ s.buf.nextSeq
  positive : ∀ it ∈ s.buf.items, 1 ≤ it.sequence
  valid : ∀ it ∈ s.buf.items, ValidBatch it.samples

theorem Stocked.of_subset {s t : Account Js.Json} (h : Stocked s)
    (hi : t.buf.items ⊆ s.buf.items) (hn : t.buf.nextSeq = s.buf.nextSeq) : Stocked t where
  next := hn ▸ h.next
  positive it hit := h.positive it (hi hit)
  valid it hit := h.valid it (hi hit)

theorem call_stocked (s : Account Js.Json) (a : Call Js.Json) (t : Account Js.Json)
    (h : Stocked s) (hv : EnqueuesValid s a) (hs : call s a = some t) : Stocked t := by
  cases a with
  | enqueue samples now =>
    simp only [call] at hs
    split at hs
    · contradiction
    · cases hs
      obtain ⟨dropped, hi, -, hn, -⟩ := enqueue_spec s.buf samples now s.enqueued
      have hmem : ∀ it ∈ (s.buf.enqueue samples now s.enqueued).items,
          it ∈ s.buf.items ∨ it = s.buf.newItem samples now s.enqueued := by
        intro it hit
        have hm : it ∈ s.buf.items ++ [s.buf.newItem samples now s.enqueued] := by
          rw [hi]
          exact List.mem_append_right _ hit
        simpa using hm
      have hnext := h.next
      refine ⟨?_, ?_, ?_⟩
      · dsimp only
        omega
      · intro it hit
        rcases hmem it hit with hit | rfl
        · exact h.positive it hit
        · exact hnext
      · intro it hit
        rcases hmem it hit with hit | rfl
        · exact h.valid it hit
        · exact hv
  | peekBatch maxItems =>
    cases hs
    exact h
  | ack ackedSequence =>
    cases hs
    exact h.of_subset List.filter_sublist.subset rfl
  | dropExpired ttl now =>
    simp only [call] at hs
    split at hs
    · contradiction
    · cases hs
      exact h.of_subset List.filter_sublist.subset rfl

theorem openAccount_stocked (maxBytes startSequence now : Int) :
    Stocked (openAccount maxBytes startSequence now) := by
  refine ⟨?_, ?_, ?_⟩
  · simp only [openAccount, newLimitedAt]
    split <;> omega
  · intro it hit
    cases hit
  · intro it hit
    cases hit

/-- With valid batches only their number of samples decides. -/
theorem Stocked.acceptable_iff {s : Account Js.Json} (h : Stocked s) (agentId : String) :
    Acceptable agentId s.buf ↔
      sampleCount s.buf = 0 ∨ agentId ≠ "" ∧ sampleCount s.buf ≤ maxSamples := by
  have hvalid : ∀ v ∈ (s.buf.peekBatch maxItems).1, (MetricSampleV1 v).isSome := by
    intro v hv
    unfold Limited.peekBatch at hv
    split at hv
    · cases hv
    · obtain ⟨it, hit, hv⟩ := List.mem_flatMap.mp hv
      exact (h.valid it (List.mem_of_mem_take hit)).2 v hv
  have hsequence : 0 ≤ (s.buf.peekBatch maxItems).2 := by
    unfold Limited.peekBatch
    split
    · exact Int.le_refl _
    · rename_i first rest hf
      have := h.positive first (by simp [hf])
      dsimp only
      omega
  have hlen := peekBatch_length s.buf
  unfold Acceptable flushBody
  by_cases hz : sampleCount s.buf = 0
  · simp [hlen, hz]
  · simp only [hlen, hz, if_false, Option.some.injEq, false_or, forall_eq']
    rw [metricsBatch_isSome_iff, hlen]
    constructor
    · rintro ⟨ha, -, hc, -⟩
      exact ⟨ha, hc⟩
    · rintro ⟨ha, hc⟩
      exact ⟨ha, hsequence, hc, hvalid⟩

/-- In every state of a run on valid batches the gateway's schema takes what a flush sends
exactly when the batches of one request hold no more samples than the schema allows. -/
theorem acceptable_iff_fits (agentId : String) (maxBytes startSequence now : Int)
    (as : List (Call Js.Json))
    (hv : Meets call EnqueuesValid (openAccount maxBytes startSequence now) as) :
    Always call (fun s => Acceptable agentId s.buf ↔
        sampleCount s.buf = 0 ∨ agentId ≠ "" ∧ sampleCount s.buf ≤ maxSamples)
      (openAccount maxBytes startSequence now) as :=
  (always_of_meets call_stocked (openAccount_stocked maxBytes startSequence now) hv).mono
    (fun _ h => h.acceptable_iff agentId)

def cpuSample : Js.Json :=
  .object [("metric", .string "host.cpu.usage_percent"), ("resource_id", .string "host_m1"),
    ("observed_at", .string "2026-09-25T12:00:00Z"), ("value", .number (.finite 42))]

theorem cpuSample_valid (n : Nat) (hn : n ≤ maxSamples) :
    ValidBatch (List.replicate n cpuSample) := by
  refine ⟨by simpa using hn, ?_⟩
  intro v hv
  rw [List.eq_of_mem_replicate hv]
  decide

theorem one_batch_acceptable : Always call (fun s => Acceptable "agt_1" s.buf ↔
      sampleCount s.buf = 0 ∨ "agt_1" ≠ "" ∧ sampleCount s.buf ≤ maxSamples)
    (openAccount 8388608 1 0) [.enqueue (List.replicate 3 cpuSample) 0] := by
  apply acceptable_iff_fits
  intro t _
  exact ⟨cpuSample_valid 3 (by decide), trivial⟩

/-- Two batches wait through an outage. -/
def outage (first second : List Js.Json) : List (Call Js.Json) :=
  [.enqueue first 0, .enqueue second 1]

theorem outage_count {first second : List Js.Json} (hf : first.length = 3000)
    (hs : second.length = 3000) :
    ∃ s, exec call (openAccount 8388608 1 0) (outage first second) = some s ∧
      sampleCount s.buf = 6000 := by
  simp [exec, outage, call, openAccount, newLimitedAt, Limited.enqueue, Limited.dropOldest,
    Limited.newItem, approxBytes, sampleCount, maxItems, hf, hs]

theorem joined_batches_rejected : ∃ as s, exec call (openAccount 8388608 1 0) as = some s ∧
    Meets call EnqueuesValid (openAccount 8388608 1 0) as ∧ ¬ Acceptable "agt_1" s.buf := by
  have hlen : (List.replicate 3000 cpuSample).length = 3000 := List.length_replicate
  have hvalid := cpuSample_valid 3000 (by decide)
  obtain ⟨s, hrun, hcount⟩ := outage_count hlen hlen
  have hmeets : Meets call EnqueuesValid (openAccount 8388608 1 0)
      (outage (List.replicate 3000 cpuSample) (List.replicate 3000 cpuSample)) :=
    fun _ _ => ⟨hvalid, fun _ _ => ⟨hvalid, trivial⟩⟩
  have hstocked : Stocked s :=
    (always_of_meets call_stocked (openAccount_stocked 8388608 1 0) hmeets).last hrun
  refine ⟨_, s, hrun, hmeets, ?_⟩
  rw [hstocked.acceptable_iff, hcount]
  decide

end WaOps.Agent
