import Mathlib.Data.List.Nodup
import WaOps.Incidents.Effects

namespace WaOps.Incidents
open Lib.Runs

def State.activeFor (s : State) (tenantId : String) (fingerprint : Option String) : List Incident :=
  s.incidents.filter (fun x => x.tenantId = tenantId ∧ x.fingerprint = fingerprint ∧ x.active)

/-- At most one incident per tenant and fingerprint is neither resolved nor closed. -/
def AtMostOneActive (s : State) : Prop :=
  ∀ tenantId fingerprint, (s.activeFor tenantId fingerprint).length ≤ 1

def Incident.SameKey (x y : Incident) : Prop :=
  x.tenantId = y.tenantId ∧ x.fingerprint = y.fingerprint

instance (x y : Incident) : Decidable (x.SameKey y) :=
  inferInstanceAs (Decidable (_ ∧ _))

/-- A write that makes an incident active finds no other active one of its tenant and
fingerprint: the transaction that opens one, and an acknowledge or reopen, which write
by id whatever has happened since they read. -/
def Lone (s : State) : Action → Prop
  | .create i id outcome => Writes s (.create i id outcome) →
      ∀ e, s.deliveries[i]? = some ⟨e, .notFound⟩ → ∀ x ∈ s.incidents, x.openFor e = false
  | .commit i _ outcome => outcome ≠ .aborted → ∀ op, s.operations[i]? = some (some op) →
      op.kind ≠ .resolve → ∀ x ∈ s.incidents, x.id = op.incidentId →
        ∀ y ∈ s.incidents, y.active = true → y.SameKey x → y.id = x.id
  | _ => True

def Ids (s : State) : Prop :=
  (s.incidents.map Incident.id).Nodup

/-- The property by rows: two active incidents of one key are one. -/
def Alone (s : State) : Prop :=
  ∀ x ∈ s.incidents, ∀ y ∈ s.incidents, x.active = true → y.active = true → x.SameKey y →
    x.id = y.id

theorem atMostOne_iff_alone {s : State} (h : Ids s) : AtMostOneActive s ↔ Alone s := by
  constructor
  · intro ho x hx y hy hax hay hk
    by_contra hne
    have hle := ho y.tenantId y.fingerprint
    have hmx : x ∈ s.activeFor y.tenantId y.fingerprint :=
      List.mem_filter.mpr ⟨hx, by simp [hk.1, hk.2, hax]⟩
    have hmy : y ∈ s.activeFor y.tenantId y.fingerprint :=
      List.mem_filter.mpr ⟨hy, by simp [hay]⟩
    match hl : s.activeFor y.tenantId y.fingerprint with
    | [] => simp [hl] at hmx
    | [z] =>
      rw [hl] at hmx hmy
      rw [List.mem_singleton.mp hmx, List.mem_singleton.mp hmy] at hne
      exact hne rfl
    | z :: z' :: rest =>
      rw [hl] at hle
      simp at hle
  · intro ha tenantId fingerprint
    match hl : s.activeFor tenantId fingerprint with
    | [] => simp
    | [z] => simp
    | z :: z' :: rest =>
      have hz : z ∈ s.activeFor tenantId fingerprint := by simp [hl]
      have hz' : z' ∈ s.activeFor tenantId fingerprint := by simp [hl]
      obtain ⟨hzm, hzp⟩ := List.mem_filter.mp hz
      obtain ⟨hzm', hzp'⟩ := List.mem_filter.mp hz'
      simp only [Bool.decide_and, Bool.decide_eq_true, Bool.and_eq_true,
        decide_eq_true_eq] at hzp hzp'
      have hid := ha z hzm z' hzm' hzp.2.2 hzp'.2.2 ⟨hzp.1.trans hzp'.1.symm,
        hzp.2.1.trans hzp'.2.1.symm⟩
      have hnd : ((s.activeFor tenantId fingerprint).map Incident.id).Nodup :=
        h.sublist (List.filter_sublist.map _)
      rw [hl] at hnd
      simp [hid] at hnd

section
variable {s t : State}

theorem apply_id (kind : OperationKind) (now : Int) (x : Incident) :
    (kind.apply now x).id = x.id := by
  cases kind <;> rfl

theorem apply_sameKey (kind : OperationKind) (now : Int) (x : Incident) :
    (kind.apply now x).SameKey x := by
  cases kind <;> exact ⟨rfl, rfl⟩

theorem apply_active (kind : OperationKind) (now : Int) (x : Incident) :
    (kind.apply now x).active = true ↔ kind ≠ .resolve := by
  cases kind <;> simp [OperationKind.apply, Incident.active]

/-- The row of an incident after an operation has committed. -/
def Operation.write (op : Operation) (now : Int) (x : Incident) : Incident :=
  if x.id = op.incidentId then op.kind.apply now x else x

theorem write_id (op : Operation) (now : Int) (x : Incident) : (op.write now x).id = x.id := by
  unfold Operation.write
  split
  · exact apply_id _ _ _
  · rfl

theorem write_sameKey (op : Operation) (now : Int) (x : Incident) :
    (op.write now x).SameKey x := by
  unfold Operation.write
  split
  · exact apply_sameKey _ _ _
  · exact ⟨rfl, rfl⟩

theorem apply_incidents (s : State) (op : Operation) (now : Int) :
    (s.apply op now).incidents = s.incidents.map (op.write now) := by
  unfold State.apply
  split
  · rfl
  · rename_i hnone
    have hid : ∀ x ∈ s.incidents, op.write now x = id x := by
      intro x hx
      have hne : ¬ x.id = op.incidentId := fun heq => hnone (List.any_eq_true.mpr ⟨x, hx, by simpa⟩)
      simp [Operation.write, hne]
    rw [List.map_congr_left hid, List.map_id]

theorem create_ids (h : Ids s) {e : EventEnvelope} {id : String}
    (hf : ∀ x ∈ s.incidents, x.id ≠ id) : Ids (s.create e id) := by
  unfold Ids State.create
  rw [List.map_append, List.map_singleton, ← List.concat_eq_append, List.nodup_concat]
  refine ⟨?_, h⟩
  intro hm
  obtain ⟨x, hx, hid⟩ := List.mem_map.mp hm
  exact hf x hx hid

/-- A new incident keeps the others alone exactly when none of its key is active. -/
theorem create_alone_iff (h : Alone s) {e : EventEnvelope} {id : String}
    (hf : ∀ x ∈ s.incidents, x.id ≠ id) :
    Alone (s.create e id) ↔ ∀ x ∈ s.incidents, x.openFor e = false := by
  have hnew : (e.incident id).active = true := rfl
  constructor
  · intro ht x hx
    by_contra hopen
    simp only [Incident.openFor, Bool.not_eq_false, Bool.and_eq_true, decide_eq_true_eq] at hopen
    have hid := ht x (List.mem_append_left _ hx) (e.incident id)
      (List.mem_append_right _ (by simp)) hopen.2 hnew hopen.1
    exact hf x hx hid
  · intro hnone
    have hclash : ∀ x ∈ s.incidents, x.active = true → ¬ x.SameKey (e.incident id) := by
      intro x hx hax hk
      have := hnone x hx
      simp [Incident.openFor, hax, hk.1, hk.2, EventEnvelope.incident] at this
    intro x hx y hy hax hay hk
    rcases List.mem_append.mp hx with hx | hx <;> rcases List.mem_append.mp hy with hy | hy
    · exact h x hx y hy hax hay hk
    · rw [List.mem_singleton.mp hy] at hk
      exact absurd hk (hclash x hx hax)
    · rw [List.mem_singleton.mp hx] at hk
      exact absurd ⟨hk.1.symm, hk.2.symm⟩ (hclash y hy hay)
    · rw [List.mem_singleton.mp hx, List.mem_singleton.mp hy]

theorem sameKey_trans {x y z : Incident} (h : x.SameKey y) (h' : y.SameKey z) : x.SameKey z :=
  ⟨h.1.trans h'.1, h.2.trans h'.2⟩

theorem sameKey_symm {x y : Incident} (h : x.SameKey y) : y.SameKey x :=
  ⟨h.1.symm, h.2.symm⟩

/-- The incident an operation makes active is alone exactly when it was before. -/
def Revives (s : State) (op : Operation) : Prop :=
  op.kind ≠ .resolve → ∀ x ∈ s.incidents, x.id = op.incidentId →
    ∀ y ∈ s.incidents, y.active = true → y.SameKey x → y.id = x.id

theorem write_other {op : Operation} {now : Int} {x : Incident} (hne : x.id ≠ op.incidentId) :
    op.write now x = x := by
  simp [Operation.write, hne]

theorem write_self {op : Operation} {now : Int} {x : Incident} (heq : x.id = op.incidentId) :
    op.write now x = op.kind.apply now x := by
  simp [Operation.write, heq]

theorem apply_alone_iff (h : Alone s) (op : Operation) (now : Int) :
    Alone (s.apply op now) ↔ Revives s op := by
  unfold Alone
  rw [apply_incidents]
  constructor
  · intro ht hk x hx hxid y hy hay hsame
    by_contra hne
    have hyid : y.id ≠ op.incidentId := fun heq => hne (heq.trans hxid.symm)
    have hid := ht _ (List.mem_map_of_mem hy) _ (List.mem_map_of_mem hx) (by
      rw [write_other hyid]
      exact hay) (by
      rw [write_self hxid]
      exact (apply_active _ _ _).mpr hk) (by
      rw [write_other hyid]
      exact sameKey_trans hsame (sameKey_symm (write_sameKey op now x)))
    rw [write_id, write_id] at hid
    exact hne hid
  · intro hr x' hx' y' hy' hax hay hsame
    obtain ⟨x, hx, rfl⟩ := List.mem_map.mp hx'
    obtain ⟨y, hy, rfl⟩ := List.mem_map.mp hy'
    have hkey : x.SameKey y := sameKey_trans (sameKey_symm (write_sameKey op now x))
      (sameKey_trans hsame (write_sameKey op now y))
    rw [write_id, write_id]
    by_cases hxid : x.id = op.incidentId <;> by_cases hyid : y.id = op.incidentId
    · exact hxid.trans hyid.symm
    · rw [write_self hxid] at hax
      rw [write_other hyid] at hay
      have hk := (apply_active _ _ _).mp hax
      exact (hr hk x hx hxid y hy hay (sameKey_symm hkey)).symm
    · rw [write_self hyid] at hay
      rw [write_other hxid] at hax
      have hk := (apply_active _ _ _).mp hay
      exact hr hk y hy hyid x hx hax hkey
    · rw [write_other hxid] at hax
      rw [write_other hyid] at hay
      exact h x hx y hy hax hay hkey

theorem apply_ids (h : Ids s) (op : Operation) (now : Int) : Ids (s.apply op now) := by
  unfold Ids
  rw [apply_incidents, List.map_map]
  have hid : Incident.id ∘ op.write now = Incident.id := by
    funext x
    exact write_id op now x
  rw [hid]
  exact h

end

theorem link_incidents (s : State) (e : EventEnvelope) (id : String) :
    (s.link e id).incidents = s.incidents := by
  unfold State.link
  split <;> rfl

theorem link_deliveries (s : State) (e : EventEnvelope) (id : String) :
    (s.link e id).deliveries = s.deliveries := by
  unfold State.link
  split <;> rfl

/-- A step that does not write the incident table keeps it. -/
theorem step_incidents {s t : State} {a : Action} (h : Effect s a t) :
    (t.incidents = s.incidents ∧ ¬ Writes s a) ∨
    (∃ i e id outcome, a = .create i id outcome ∧ s.deliveries[i]? = some ⟨e, .notFound⟩ ∧
      Writes s a ∧ t.incidents = (s.create e id).incidents) ∨
    ∃ i op now outcome, a = .commit i now outcome ∧ s.operations[i]? = some (some op) ∧
      Writes s a ∧ t.incidents = (s.apply op now).incidents := by
  cases h with
  | create hd hf ho hp => exact .inr (.inl ⟨_, _, _, _, rfl, hd, ⟨ho, hf⟩, rfl⟩)
  | apply ho hop => exact .inr (.inr ⟨_, _, _, _, rfl, hop, ho, rfl⟩)
  | link hd => exact .inl ⟨link_incidents _ _ _, not_false⟩
  | fail _ _ _ hw | operate _ hw => exact .inl ⟨rfl, hw⟩
  | deliver _ | skip _ _ | store _ _ _ | check _ _ | keyless _ _ | unlinked | entry _ _
  | finish _ => exact .inl ⟨rfl, not_false⟩

theorem step_ids (s : State) (a : Action) (t : State) (h : Ids s) (hs : step s a = some t) :
    Ids t := by
  rcases step_incidents (step_effect hs) with ⟨ht, _⟩ | ⟨i, e, id, outcome, rfl, _, hw, ht⟩ |
      ⟨i, op, now, outcome, rfl, _, _, ht⟩
  · unfold Ids
    rw [ht]
    exact h
  · unfold Ids
    rw [ht]
    exact create_ids h hw.2
  · unfold Ids
    rw [ht]
    exact apply_ids h op now

theorem step_active_iff (s : State) (a : Action) (t : State) (hi : Ids s)
    (h : AtMostOneActive s) (hs : step s a = some t) : AtMostOneActive t ↔ Lone s a := by
  have ha := (atMostOne_iff_alone hi).mp h
  rw [atMostOne_iff_alone (step_ids s a t hi hs)]
  unfold Alone
  rcases step_incidents (step_effect hs) with ⟨ht, hw⟩ | ⟨i, e, id, outcome, rfl, hd, hw, ht⟩ |
      ⟨i, op, now, outcome, rfl, hop, hw, ht⟩
  · rw [ht]
    refine ⟨fun _ => ?_, fun _ => ha⟩
    cases a with
    | create i id outcome => exact fun hw' => absurd hw' hw
    | commit i now outcome => exact fun hne => absurd hne hw
    | _ => trivial
  · rw [ht]
    refine (create_alone_iff ha hw.2).trans ?_
    constructor
    · intro hnone _ e' hd'
      rw [hd] at hd'
      cases hd'
      exact hnone
    · intro hl
      exact hl hw e hd
  · rw [ht]
    refine (apply_alone_iff ha op now).trans ?_
    constructor
    · intro hr _ op' hop'
      rw [hop] at hop'
      cases hop'
      exact hr
    · intro hl
      exact hl hw op hop

/-- No tenant has two active incidents of one fingerprint, in any state of a run, exactly
when each write of the run that makes an incident active finds no other. -/
theorem one_active_iff_lone (as : List Action) :
    Always step AtMostOneActive {} as ↔ Meets step Lone {} as := by
  apply always_iff_meets step_ids step_active_iff
  · exact List.nodup_nil
  · intro tenantId fingerprint
    exact Nat.zero_le 1

def cpuEvent (eventId : String) : EventEnvelope :=
  { eventId, tenantId := "t", eventType := "host.cpu.high", severity := "high",
    fingerprint := some "cpu:h1" }

/-- Two events of one fingerprint are handled side by side: both find no open incident. -/
def racingEvents : List Action :=
  [.deliver (cpuEvent "e1"), .deliver (cpuEvent "e2"), .insert 0 .committed,
   .insert 1 .committed, .check 0 true, .check 1 true, .create 0 "i1" .committed,
   .create 1 "i2" .committed]

theorem two_active_incidents :
    ∃ s, exec step {} racingEvents = some s ∧ ¬ AtMostOneActive s := by
  refine ⟨_, (Option.some_get (by decide)).symm, ?_⟩
  intro h
  exact absurd (h "t" (some "cpu:h1")) (by decide)

end WaOps.Incidents
