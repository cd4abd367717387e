import WaOps.Incidents.Duplicates

namespace WaOps.Incidents
open Lib.Runs

/-- The changes of status an operation is there for. -/
inductive Change : OperationKind → IncidentStatus → IncidentStatus → Prop
  | acknowledge : Change .acknowledge .detected .acknowledged
  | resolveDetected : Change .resolve .detected .resolved
  | resolve : Change .resolve .acknowledged .resolved
  | reopen : Change .reopen .resolved .acknowledged

/-- Every change of status that an operation commits is one it is there for. -/
def Legal (s : State) : Action → Prop
  | .commit i now outcome => outcome ≠ .aborted → ∀ op, s.operations[i]? = some (some op) →
      ∀ x ∈ s.incidents, x.id = op.incidentId → Change op.kind x.status (op.write now x).status
  | _ => True

structure Incident.Stamped (x : Incident) : Prop where
  resolved : x.resolvedAt ≠ none ↔ x.status = .resolved
  acknowledged : x.status = .acknowledged → x.acknowledgedAt ≠ none

def AllStamped (s : State) : Prop :=
  ∀ x ∈ s.incidents, x.Stamped

/-- The guard the operation checked at its read. Reopen has none: here it asks for a resolved
incident that was acknowledged once. -/
def OperationKind.fits (kind : OperationKind) (x : Incident) : Prop :=
  kind.allows x.status ∧ (kind = .reopen → x.status = .resolved ∧ x.acknowledgedAt ≠ none)

/-- An operation commits while its guard still holds. -/
def StillFits (s : State) : Action → Prop
  | .commit i _ outcome => outcome ≠ .aborted → ∀ op, s.operations[i]? = some (some op) →
      ∀ x ∈ s.incidents, x.id = op.incidentId → op.kind.fits x
  | _ => True

theorem apply_fits_iff {kind : OperationKind} {now : Int} {x : Incident} (h : x.Stamped) :
    Change kind x.status (kind.apply now x).status ∧ (kind.apply now x).Stamped ↔
      kind.fits x := by
  have hresolved := h.resolved
  cases kind with
  | acknowledge =>
    constructor
    · rintro ⟨hc, -⟩
      refine ⟨?_, by simp⟩
      generalize x.status = status at hc
      cases hc
      rfl
    · rintro ⟨ha, -⟩
      have hs : x.status = .detected := by simpa [OperationKind.allows] using ha
      rw [hs] at hresolved
      refine ⟨hs ▸ .acknowledge, ?_, ?_⟩
      · simpa [OperationKind.apply] using hresolved
      · simp [OperationKind.apply]
  | resolve =>
    have hstamped : (OperationKind.resolve.apply now x).Stamped := by
      constructor <;> simp [OperationKind.apply]
    constructor
    · rintro ⟨hc, -⟩
      refine ⟨?_, by simp⟩
      simp only [OperationKind.apply] at hc
      generalize x.status = status at hc
      cases hc with
      | resolveDetected => rfl
      | resolve => rfl
    · rintro ⟨ha, -⟩
      refine ⟨?_, hstamped⟩
      simp only [OperationKind.apply]
      generalize x.status = status at ha
      cases status with
      | detected => exact .resolveDetected
      | acknowledged => exact .resolve
      | resolved | closed => contradiction
  | reopen =>
    constructor
    · rintro ⟨hc, hs⟩
      refine ⟨rfl, fun _ => ⟨?_, hs.acknowledged rfl⟩⟩
      generalize x.status = status at hc
      cases hc
      rfl
    · rintro ⟨-, hr⟩
      obtain ⟨hs, hack⟩ := hr rfl
      refine ⟨hs ▸ .reopen, ?_, fun _ => hack⟩
      simp [OperationKind.apply]

theorem step_legal_iff (s : State) (a : Action) (t : State) (h : AllStamped s)
    (hs : step s a = some t) : Legal s a ∧ AllStamped t ↔ StillFits s a := by
  unfold AllStamped
  rcases step_incidents (step_effect hs) with ⟨ht, hw⟩ | ⟨i, e, id, outcome, rfl, -, -, ht⟩ |
      ⟨i, op, now, outcome, rfl, hop, hw, ht⟩
  · rw [ht]
    cases a with
    | commit i now outcome =>
      refine ⟨fun _ hne => absurd hne hw, fun _ => ⟨fun hne => absurd hne hw, h⟩⟩
    | _ => exact ⟨fun _ => trivial, fun _ => ⟨trivial, h⟩⟩
  · rw [ht]
    refine ⟨fun _ => trivial, fun _ => ⟨trivial, ?_⟩⟩
    intro x hx
    rcases List.mem_append.mp hx with hx | hx
    · exact h x hx
    · rw [List.mem_singleton.mp hx]
      constructor <;> simp [EventEnvelope.incident]
  · rw [ht, apply_incidents]
    constructor
    · rintro ⟨hl, hst⟩ hne op' hop' x hx hid
      rw [hop] at hop'
      cases hop'
      have hc := hl hne op hop x hx hid
      have hw := hst _ (List.mem_map_of_mem hx)
      rw [write_self hid] at hc hw
      exact (apply_fits_iff (h x hx)).mp ⟨hc, hw⟩
    · intro hf
      refine ⟨?_, ?_⟩
      · intro hne op' hop' x hx hid
        rw [hop] at hop'
        cases hop'
        rw [write_self hid]
        exact ((apply_fits_iff (h x hx)).mpr (hf hne op hop x hx hid)).1
      · intro x' hx'
        obtain ⟨x, hx, rfl⟩ := List.mem_map.mp hx'
        by_cases hid : x.id = op.incidentId
        · rw [write_self hid]
          exact ((apply_fits_iff (h x hx)).mpr (hf hw op hop x hx hid)).2
        · rw [write_other hid]
          exact h x hx

/-- All changes of a run are legal and all its incidents well stamped exactly when every
operation of it commits while its guard holds. -/
theorem legal_iff_still_fits (as : List Action) :
    Meets step Legal {} as ∧ Always step AllStamped {} as ↔ Meets step StillFits {} as := by
  apply meets_always_iff_meets step_legal_iff
  intro x hx
  cases hx

/-- No other operation on the incident commits. -/
def Quiet (incidentId : String) (s : State) : Action → Prop
  | .commit i _ outcome => outcome ≠ .aborted → ∀ op, s.operations[i]? = some (some op) →
      op.incidentId ≠ incidentId
  | _ => True

/-- The guard that the operation checked still holds, and its place is its own. -/
structure Current (n : Nat) (op : Operation) (s : State) : Prop where
  place : n < s.operations.length
  own : ∀ o, s.operations[n]? = some (some o) → o = op
  allowed : ∀ x ∈ s.incidents, x.id = op.incidentId → op.kind.allows x.status = true

section
variable {s t u : State} {a : Action} {as : List Action} {n : Nat} {op : Operation}
  {kind : OperationKind} {tenantId userId id : String} {note : Option String}

/-- Operations begin at the end of their list and end where they stand. -/
theorem step_operations (h : step s a = some t) : t.operations = s.operations ∨
    (∃ o, t.operations = s.operations ++ [o]) ∨ ∃ i, t.operations = s.operations.set i none := by
  cases a with
  | operate kind tenantId userId note id =>
    simp only [step] at h
    split at h
    · cases h
      exact .inl rfl
    · split at h
      · split at h
        · cases h
          exact .inr (.inl ⟨_, rfl⟩)
        · cases h
          exact .inl rfl
      · cases h
        exact .inl rfl
  | commit i now outcome =>
    simp only [step] at h
    split at h
    · rename_i op _
      have happly : (s.apply op now).operations = s.operations := by
        unfold State.apply
        split <;> rfl
      split at h
      · cases h
        exact .inr (.inr ⟨i, rfl⟩)
      · cases h
        exact .inr (.inr ⟨i, congrArg (List.set · i none) happly⟩)
    · contradiction
  | link i outcome =>
    have hlink : ∀ e incidentId, (s.link e incidentId).operations = s.operations := by
      intro e incidentId
      unfold State.link
      split <;> rfl
    simp only [step] at h
    split at h
    · split at h
      · cases h
        exact .inl rfl
      · cases h
        exact .inl (hlink _ _)
    · contradiction
  | deliver | insert | check | entry | create | finish | crash =>
    left
    simp only [step] at h
    repeat' split at h
    all_goals first | contradiction | (cases h; rfl)

theorem Current.moved (h : Current n op s) (hs : step s a = some t) :
    n < t.operations.length ∧ ∀ o, t.operations[n]? = some (some o) → o = op := by
  rcases step_operations hs with heq | ⟨o, heq⟩ | ⟨i, heq⟩
  · rw [heq]
    exact ⟨h.place, h.own⟩
  · rw [heq, List.length_append, List.getElem?_append_left h.place]
    exact ⟨Nat.lt_add_right _ h.place, h.own⟩
  · rw [heq, List.length_set]
    refine ⟨h.place, fun o ho => ?_⟩
    rw [List.getElem?_set] at ho
    split at ho
    · simp at ho
    · exact h.own o ho

theorem Current.step (h : Current n op s) (hq : Quiet op.incidentId s a)
    (hs : step s a = some t) : Current n op t := by
  obtain ⟨hplace, hown⟩ := h.moved hs
  refine ⟨hplace, hown, ?_⟩
  rcases step_incidents (step_effect hs) with ⟨ht, -⟩ | ⟨i, e, id, outcome, rfl, -, -, ht⟩ |
      ⟨i, op', now, outcome, rfl, hop', hw, ht⟩
  · rw [ht]
    exact h.allowed
  · rw [ht]
    intro x hx hid
    rcases List.mem_append.mp hx with hx | hx
    · exact h.allowed x hx hid
    · -- a new incident is detected, which every guard takes
      rw [List.mem_singleton.mp hx]
      cases op.kind <;> rfl
  · rw [ht, apply_incidents]
    intro x' hx' hid
    obtain ⟨x, hx, rfl⟩ := List.mem_map.mp hx'
    have hother : x.id ≠ op'.incidentId := fun heq =>
      hq hw op' hop' (heq.symm.trans ((write_id op' now x).symm.trans hid))
    rw [write_other hother] at hid ⊢
    exact h.allowed x hx hid

/-- An operation that passes its check waits with its incident as it is. -/
theorem operate_current (hi : Ids s)
    (hs : step s (.operate kind tenantId userId note id) = some u)
    (hop : u.operations[s.operations.length]? = some (some op)) :
    Current s.operations.length op u ∧ op.kind = kind := by
  simp only [step] at hs
  split at hs
  · cases hs
    simp at hop
  · split at hs
    · rename_i x hfound
      split at hs
      · rename_i hallows
        cases hs
        have hplace : op = { kind, tenantId, userId, note, incidentId := x.id } := by
          simpa using hop.symm
        subst hplace
        refine ⟨⟨by simp, fun o ho => by simpa using ho.symm, ?_⟩, rfl⟩
        intro y hy hid
        have hx : x ∈ s.incidents := List.mem_of_find?_eq_some hfound
        rwa [List.inj_on_of_nodup_map hi hy hx hid]
      · cases hs
        simp at hop
    · cases hs
      simp at hop

/-- An operation with a guard still fits at its commit if no other one on its incident has
committed since its check. -/
theorem still_fits_of_quiet (hi : Ids s) (hkind : kind ≠ .reopen)
    (hcheck : step s (.operate kind tenantId userId note id) = some u)
    (hop : u.operations[s.operations.length]? = some (some op))
    (hquiet : Meets step (Quiet op.incidentId) u as)
    (hrun : exec step u as = some t) (now : Int) (outcome : Outcome) :
    StillFits t (.commit s.operations.length now outcome) := by
  obtain ⟨hcurrent, rfl⟩ := operate_current hi hcheck hop
  have hlast := (always_of_meets (fun s a t h hq hs => h.step hq hs) hcurrent hquiet).last hrun
  intro _ o ho x hx hid
  obtain rfl := hlast.own o ho
  exact ⟨hlast.allowed x hx hid, fun hreopen => absurd hreopen hkind⟩

end

/-- Reopen takes an incident that nobody has acknowledged or resolved. -/
theorem detected_reopened :
    ¬ ∀ as : List Action, Meets step Legal {} as ∧ Always step AllStamped {} as := by
  intro h
  have hrun : ∃ s ∈ exec step {} [.deliver (cpuEvent "e"), .insert 0 .committed, .check 0 true,
      .create 0 "i" .committed, .operate .reopen "t" "u" none "i", .commit 0 5 .committed],
      ∃ x ∈ s.incidents, x.status = .acknowledged ∧ x.acknowledgedAt = none := by
    decide
  obtain ⟨s, hs, x, hx, hstatus, hnone⟩ := hrun
  exact ((h _).2.last hs x hx).acknowledged hstatus hnone

end WaOps.Incidents
