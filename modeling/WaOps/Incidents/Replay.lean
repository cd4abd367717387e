import WaOps.Incidents.Notifications
import WaOps.Lib.Replay

namespace WaOps.Incidents
open Lib.Runs Lib.Replay

/-- What the timeline tells of an incident. -/
structure Standing where
  status : IncidentStatus
  acknowledged : Bool
  resolved : Bool
  deriving DecidableEq, Repr

def Incident.standing (x : Incident) : Standing :=
  { status := x.status
    acknowledged := x.acknowledgedAt.isSome
    resolved := x.resolvedAt.isSome }

def Standing.after (s : Standing) : EntryType → Option Standing
  | .created => none
  | .eventRecurred => some s
  | .acknowledged => some { s with status := .acknowledged, acknowledged := true }
  | .resolved => some { s with status := .resolved, resolved := true }
  | .reopened => some { s with status := .acknowledged, resolved := false }

def history : Reading Standing EntryType where
  begin entryType :=
    if entryType = .created then
      some { status := .detected, acknowledged := false, resolved := false }
    else none
  after := Standing.after

def State.entriesOf (s : State) (id : String) : List EntryType :=
  (s.timeline.filter (fun t => t.incidentId = id)).map TimelineEntry.entryType

def State.Has (s : State) (tenantId id : String) : Prop :=
  ∃ x ∈ s.incidents, x.id = id ∧ x.tenantId = tenantId

def State.HasEvent (s : State) (tenantId eventId : String) : Prop :=
  ∃ r ∈ s.events, r.id = eventId ∧ r.tenantId = tenantId

/-- The rows agree: a timeline replays to its incident, and what refers to an incident or an event
refers to one of its own tenant. -/
structure Agreeing (s : State) : Prop where
  ids : Ids s
  replays : ∀ x ∈ s.incidents, replay history (s.entriesOf x.id) = some x.standing
  entries : ∀ entry ∈ s.timeline, s.Has entry.tenantId entry.incidentId ∧
    ∀ eventId source, entry.payload = .event eventId source → s.HasEvent entry.tenantId eventId
  links : ∀ l ∈ s.links, s.Has l.tenantId l.incidentId ∧ s.HasEvent l.tenantId l.eventId

/-- What a delivery goes by is there. -/
def Delivery.Grounded (s : State) (d : Delivery) : Prop :=
  match d.pc with
  | .stored | .notFound => s.HasEvent d.envelope.tenantId d.envelope.eventId
  | .found id | .linked id =>
    s.HasEvent d.envelope.tenantId d.envelope.eventId ∧ s.Has d.envelope.tenantId id
  | _ => True

/-- What the workers and operators hold on to is there. -/
structure Grounded (s : State) : Prop where
  deliveries : ∀ d ∈ s.deliveries, d.Grounded s
  operations : ∀ op, some op ∈ s.operations → s.Has op.tenantId op.incidentId

/-- What there is stays. -/
def Grows (s u : State) : Prop :=
  (∀ tenantId id, s.Has tenantId id → u.Has tenantId id) ∧
    ∀ tenantId eventId, s.HasEvent tenantId eventId → u.HasEvent tenantId eventId

/-- The rows that a step writes. -/
inductive Written (s : State) : State → Prop
  | nothing : Written s s
  | event {i : Nat} {e : EventEnvelope} (hd : s.deliveries[i]? = some ⟨e, .received⟩) :
    Written s { s with events := s.events ++ [e.row] }
  | link {i : Nat} {e : EventEnvelope} {id : String}
    (hd : s.deliveries[i]? = some ⟨e, .found id⟩) : Written s (s.link e id)
  | recurrence {i : Nat} {e : EventEnvelope} {id : String}
    (hd : s.deliveries[i]? = some ⟨e, .linked id⟩) :
    Written s { s with timeline := s.timeline ++ [e.recurrence id] }
  | create {i : Nat} {e : EventEnvelope} {id : String}
    (hd : s.deliveries[i]? = some ⟨e, .notFound⟩) (hf : ∀ x ∈ s.incidents, x.id ≠ id) :
    Written s (s.create e id)
  | apply {i : Nat} {op : Operation} {now : Int} (hop : s.operations[i]? = some (some op)) :
    Written s (s.apply op now)

section
variable {s t u : State} {a : Action} {i : Nat} {e : EventEnvelope} {id : String}
  {old pc : DeliveryPc}

theorem step_written (h : step s a = some t) : ∃ u, Written s u ∧ t.rows = u.rows := by
  cases step_effect h with
  | deliver | skip | check | keyless | unlinked | finish | fail | operate =>
    exact ⟨s, .nothing, rfl⟩
  | store hd => exact ⟨_, .event hd, rfl⟩
  | link hd => exact ⟨_, .link hd, rfl⟩
  | entry hd => exact ⟨_, .recurrence hd, rfl⟩
  | create hd hf => exact ⟨_, .create hd hf, rfl⟩
  | apply _ hop => exact ⟨_, .apply hop, rfl⟩

theorem written_grows (h : Written s u) : Grows s u := by
  cases h with
  | nothing | recurrence => exact ⟨fun _ _ h => h, fun _ _ h => h⟩
  | event =>
    refine ⟨fun _ _ h => h, ?_⟩
    rintro tenantId eventId ⟨r, hr, hid⟩
    exact ⟨r, List.mem_append_left _ hr, hid⟩
  | link =>
    unfold State.link
    split <;> exact ⟨fun _ _ h => h, fun _ _ h => h⟩
  | create =>
    refine ⟨?_, fun _ _ h => h⟩
    rintro tenantId id ⟨x, hx, hid⟩
    exact ⟨x, List.mem_append_left _ hx, hid⟩
  | @apply i op now =>
    constructor
    · rintro tenantId id ⟨x, hx, hid, htenant⟩
      refine ⟨op.write now x, ?_, ?_, ?_⟩
      · rw [apply_incidents]
        exact List.mem_map_of_mem hx
      · rw [write_id, hid]
      · rw [(write_sameKey op now x).1, htenant]
    · unfold State.apply
      split <;> exact fun _ _ h => h

theorem grows_refl : Grows s s :=
  ⟨fun _ _ h => h, fun _ _ h => h⟩

theorem Delivery.Grounded.mono {d : Delivery} (h : d.Grounded s) (hg : Grows s u) :
    d.Grounded u := by
  obtain ⟨e, pc⟩ := d
  cases pc with
  | received | opened | done | failed => trivial
  | stored | notFound => exact hg.2 _ _ h
  | found id | linked id => exact ⟨hg.2 _ _ h.1, hg.1 _ _ h.2⟩

/-- A delivery goes on by what is there. -/
theorem Grounded.setPc (h : Grounded s) (hd : s.deliveries[i]? = some ⟨e, old⟩)
    (hu : u.deliveries = s.deliveries) (ho : u.operations = s.operations) (hg : Grows s u)
    (hnew : Delivery.Grounded u ⟨e, pc⟩) : Grounded (u.setPc i pc) := by
  constructor
  · intro d' hd'
    obtain ⟨j, hj⟩ := List.getElem?_of_mem hd'
    have hat : u.deliveries[i]? = some ⟨e, old⟩ := by rw [hu, hd]
    rcases setPc_at hat hj with ⟨-, rfl⟩ | ⟨-, hkept⟩
    · exact hnew
    · rw [hu] at hkept
      exact (h.deliveries d' (List.mem_of_getElem? hkept)).mono hg
  · intro op hop
    have hop' : some op ∈ u.operations := hop
    rw [ho] at hop'
    exact hg.1 _ _ (h.operations op hop')

theorem insert_grounded {outcome : Outcome} (h : Grounded s)
    (hs : step s (.insert i outcome) = some t) : Grounded t := by
  simp only [step] at hs
  split at hs
  · rename_i e hat
    have hstored : Grows s { s with events := s.events ++ [e.row] } := written_grows (.event hat)
    have hfailed : Grounded (s.setPc i .failed) := h.setPc hat rfl rfl grows_refl trivial
    split at hs
    · cases hs
      exact hfailed
    · split at hs
      · cases hs
        have hdone : Grounded (s.setPc i .done) := h.setPc hat rfl rfl grows_refl trivial
        exact ⟨hdone.deliveries, hdone.operations⟩
      · cases hs
        refine h.setPc hat rfl rfl hstored ?_
        exact ⟨e.row, List.mem_append_right _ (List.mem_singleton.mpr rfl), rfl, rfl⟩
    · split at hs
      · cases hs
        exact hfailed
      · cases hs
        exact h.setPc hat rfl rfl hstored trivial
  · contradiction

theorem check_grounded {ok : Bool} (h : Grounded s) (hs : step s (.check i ok) = some t) :
    Grounded t := by
  simp only [step] at hs
  split at hs
  · rename_i e hat
    have hevent : s.HasEvent e.tenantId e.eventId := h.deliveries _ (List.mem_of_getElem? hat)
    split at hs
    · cases hs
      exact h.setPc hat rfl rfl grows_refl trivial
    · split at hs
      · split at hs
        · rename_i x hfind
          cases hs
          have hopen := List.find?_some hfind
          simp only [Incident.openFor, Bool.and_eq_true, decide_eq_true_eq] at hopen
          exact h.setPc hat rfl rfl grows_refl
            ⟨hevent, x, List.mem_of_find?_eq_some hfind, rfl, hopen.1.1⟩
        · cases hs
          exact h.setPc hat rfl rfl grows_refl hevent
      · cases hs
        exact h.setPc hat rfl rfl grows_refl trivial
  · contradiction

theorem link_grounded {outcome : Outcome} (h : Grounded s)
    (hs : step s (.link i outcome) = some t) : Grounded t := by
  simp only [step] at hs
  split at hs
  · rename_i e id hat
    have hfound : Delivery.Grounded s ⟨e, .found id⟩ := h.deliveries _ (List.mem_of_getElem? hat)
    split at hs
    · cases hs
      exact h.setPc hat rfl rfl grows_refl hfound
    · cases hs
      have hlinked : Grows s (s.link e id) := written_grows (.link hat)
      refine h.setPc hat (link_deliveries s e id) ?_ hlinked (hfound.mono hlinked)
      unfold State.link
      split <;> rfl
  · contradiction

theorem create_grounded {outcome : Outcome} (h : Grounded s)
    (hs : step s (.create i id outcome) = some t) : Grounded t := by
  simp only [step] at hs
  split at hs
  · rename_i e hat
    have hfailed : Grounded (s.setPc i .failed) := h.setPc hat rfl rfl grows_refl trivial
    split at hs
    · cases hs
      exact hfailed
    · rename_i hnew
      have hcreated : Grows s (s.create e id) := written_grows (.create hat (by simpa using hnew))
      split at hs
      · cases hs
        exact hfailed
      · cases hs
        exact h.setPc hat rfl rfl hcreated trivial
      · cases hs
        exact h.setPc hat rfl rfl hcreated trivial
  · contradiction

theorem operate_grounded {kind : OperationKind} {tenantId userId : String} {note : Option String}
    (h : Grounded s) (hs : step s (.operate kind tenantId userId note id) = some t) :
    Grounded t := by
  simp only [step] at hs
  split at hs
  · cases hs
    exact h
  · split at hs
    · rename_i x hfind
      split at hs
      · cases hs
        refine ⟨h.deliveries, ?_⟩
        intro op hop
        rcases List.mem_append.mp hop with hop | hop
        · exact h.operations op hop
        · cases List.mem_singleton.mp hop
          have hx := List.find?_some hfind
          simp only [decide_eq_true_eq] at hx
          exact ⟨x, List.mem_of_find?_eq_some hfind, rfl, hx.2⟩
      · cases hs
        exact h
    · cases hs
      exact h

theorem commit_grounded {now : Int} {outcome : Outcome} (h : Grounded s)
    (hs : step s (.commit i now outcome) = some t) : Grounded t := by
  have hended : ∀ {u : State}, (∀ d ∈ u.deliveries, d.Grounded u) →
      (∀ op, some op ∈ u.operations → u.Has op.tenantId op.incidentId) →
      Grounded (u.endOperation i) := by
    intro u hdeliveries hoperations
    refine ⟨hdeliveries, ?_⟩
    intro op hop
    rcases List.mem_or_eq_of_mem_set hop with hop | hop
    · exact hoperations op hop
    · cases hop
  simp only [step] at hs
  split at hs
  · rename_i op hop
    split at hs
    · cases hs
      exact hended h.deliveries h.operations
    · cases hs
      have happlied : Grows s (s.apply op now) := written_grows (.apply hop)
      have hdeliveries : (s.apply op now).deliveries = s.deliveries := by
        unfold State.apply
        split <;> rfl
      have hoperations : (s.apply op now).operations = s.operations := by
        unfold State.apply
        split <;> rfl
      refine hended ?_ ?_
      · rw [hdeliveries]
        exact fun d hd => (h.deliveries d hd).mono happlied
      · rw [hoperations]
        exact fun op hop => happlied.1 _ _ (h.operations op hop)
  · contradiction

theorem step_grounded (h : Grounded s) (hs : step s a = some t) : Grounded t := by
  cases a with
  | deliver e =>
    simp only [step] at hs
    split at hs
    · cases hs
      refine ⟨?_, h.operations⟩
      intro d hd
      rcases List.mem_append.mp hd with hd | hd
      · exact h.deliveries d hd
      · rw [List.mem_singleton.mp hd]
        trivial
    · contradiction
  | insert i outcome => exact insert_grounded h hs
  | check i ok => exact check_grounded h hs
  | link i outcome => exact link_grounded h hs
  | entry i outcome =>
    simp only [step] at hs
    split at hs
    · rename_i e id hat
      have hwritten : Grows s { s with timeline := s.timeline ++ [e.recurrence id] } :=
        written_grows (.recurrence hat)
      split at hs
      · cases hs
        exact h.setPc hat rfl rfl grows_refl trivial
      · cases hs
        exact h.setPc hat rfl rfl hwritten trivial
      · cases hs
        exact h.setPc hat rfl rfl hwritten trivial
    · contradiction
  | create i id outcome => exact create_grounded h hs
  | finish i ok =>
    simp only [step] at hs
    split at hs
    · rename_i e id hat
      split at hs
      · cases hs
        have hdone : Grounded (s.setPc i .done) := h.setPc hat rfl rfl grows_refl trivial
        exact ⟨hdone.deliveries, hdone.operations⟩
      · cases hs
        exact h.setPc hat rfl rfl grows_refl trivial
    · contradiction
  | crash i =>
    simp only [step] at hs
    split at hs
    · contradiction
    · contradiction
    · rename_i d _ hat
      cases hs
      exact h.setPc hat rfl rfl grows_refl trivial
  | operate kind tenantId userId note id => exact operate_grounded h hs
  | commit i now outcome => exact commit_grounded h hs

theorem Agreeing.of_rows (h : Agreeing u) (hrows : t.rows = u.rows) : Agreeing t := by
  simp only [State.rows, Prod.mk.injEq] at hrows
  obtain ⟨hevents, hincidents, hlinks, htimeline⟩ := hrows
  have hhas : ∀ tenantId id, u.Has tenantId id → t.Has tenantId id := by
    rintro tenantId id ⟨x, hx, hid⟩
    exact ⟨x, hincidents ▸ hx, hid⟩
  have hevent : ∀ tenantId id, u.HasEvent tenantId id → t.HasEvent tenantId id := by
    rintro tenantId id ⟨r, hr, hid⟩
    exact ⟨r, hevents ▸ hr, hid⟩
  constructor
  · unfold Ids
    rw [hincidents]
    exact h.ids
  · intro x hx
    unfold State.entriesOf
    rw [htimeline]
    exact h.replays x (hincidents ▸ hx)
  · intro entry hentry
    obtain ⟨hx, hpayload⟩ := h.entries entry (htimeline ▸ hentry)
    exact ⟨hhas _ _ hx, fun eventId source heq => hevent _ _ (hpayload eventId source heq)⟩
  · intro l hl
    obtain ⟨hx, hr⟩ := h.links l (hlinks ▸ hl)
    exact ⟨hhas _ _ hx, hevent _ _ hr⟩

theorem entriesOf_snoc {entry : TimelineEntry} (h : u.timeline = s.timeline ++ [entry])
    (id : String) : u.entriesOf id =
      if entry.incidentId = id then s.entriesOf id ++ [entry.entryType] else s.entriesOf id := by
  unfold State.entriesOf
  rw [h, List.filter_append, List.map_append]
  split
  · rename_i hid
    simp [hid]
  · rename_i hid
    simp [hid]

/-- An entry about an incident that goes on with it. -/
theorem replay_entry {entry : TimelineEntry} {x y : Incident}
    (h : replay history (s.entriesOf x.id) = some x.standing)
    (hu : u.timeline = s.timeline ++ [entry]) (hid : y.id = x.id)
    (hafter : if entry.incidentId = x.id then x.standing.after entry.entryType = some y.standing
      else y = x) : replay history (u.entriesOf y.id) = some y.standing := by
  rw [hid, entriesOf_snoc hu]
  split
  · rename_i hown
    rw [if_pos hown] at hafter
    exact (replay_snoc h).trans hafter
  · rename_i hother
    rw [if_neg hother] at hafter
    rw [hafter, h]

/-- What holds of the entries goes on to hold with one more. -/
theorem Agreeing.entries_snoc {entry : TimelineEntry} (h : Agreeing s) (hg : Grows s u)
    (hu : u.timeline = s.timeline ++ [entry]) (hhas : u.Has entry.tenantId entry.incidentId)
    (hevent : ∀ eventId source, entry.payload = .event eventId source →
      u.HasEvent entry.tenantId eventId) :
    ∀ entry ∈ u.timeline, u.Has entry.tenantId entry.incidentId ∧
      ∀ eventId source, entry.payload = .event eventId source →
        u.HasEvent entry.tenantId eventId := by
  intro entry' hentry
  rw [hu] at hentry
  rcases List.mem_append.mp hentry with hold | hnew
  · obtain ⟨hx, hpayload⟩ := h.entries entry' hold
    exact ⟨hg.1 _ _ hx, fun eventId source heq => hg.2 _ _ (hpayload eventId source heq)⟩
  · rw [List.mem_singleton.mp hnew]
    exact ⟨hhas, hevent⟩

theorem Agreeing.links_snoc {l : IncidentEvent} (h : Agreeing s) (hg : Grows s u)
    (hnew : u.Has l.tenantId l.incidentId ∧ u.HasEvent l.tenantId l.eventId) :
    ∀ l' ∈ s.links ++ [l], u.Has l'.tenantId l'.incidentId ∧ u.HasEvent l'.tenantId l'.eventId := by
  intro l' hl
  rcases List.mem_append.mp hl with hold | hl
  · obtain ⟨hx, hr⟩ := h.links l' hold
    exact ⟨hg.1 _ _ hx, hg.2 _ _ hr⟩
  · rw [List.mem_singleton.mp hl]
    exact hnew

theorem apply_after {op : Operation} {now : Int} {x : Incident} :
    x.standing.after op.kind.entryType = some (op.kind.apply now x).standing := by
  cases op.kind <;> rfl

theorem create_agreeing (h : Agreeing s) (hevent : s.HasEvent e.tenantId e.eventId)
    (hf : ∀ x ∈ s.incidents, x.id ≠ id) (hg : Grows s (s.create e id)) :
    Agreeing (s.create e id) := by
  have htimeline : (s.create e id).timeline = s.timeline ++ [e.opening id] := rfl
  have hhas : (s.create e id).Has e.tenantId id :=
    ⟨e.incident id, List.mem_append_right _ (List.mem_singleton.mpr rfl), rfl, rfl⟩
  refine ⟨create_ids h.ids hf, ?_, ?_, h.links_snoc hg ⟨hhas, hg.2 _ _ hevent⟩⟩
  · intro x hx
    rcases List.mem_append.mp hx with hold | hnew
    · refine replay_entry (h.replays x hold) htimeline rfl ?_
      rw [if_neg (fun heq => hf x hold heq.symm)]
    · rw [List.mem_singleton.mp hnew, entriesOf_snoc htimeline]
      -- No entry names an incident that is not there yet.
      have hnone : s.entriesOf id = [] := by
        unfold State.entriesOf
        rw [List.map_eq_nil_iff, List.filter_eq_nil_iff]
        intro entry hentry hid
        obtain ⟨⟨y, hy, hyid, -⟩, -⟩ := h.entries entry hentry
        exact hf y hy (hyid.trans (by simpa using hid))
      have hid : (e.opening id).incidentId = (e.incident id).id := rfl
      have hbefore : s.entriesOf (e.incident id).id = [] := hnone
      rw [if_pos hid, hbefore]
      exact replay_single
  · refine h.entries_snoc hg htimeline hhas ?_
    intro eventId source heq
    cases heq
    exact hg.2 _ _ hevent

theorem apply_agreeing {op : Operation} {now : Int} (h : Agreeing s)
    (hhas : s.Has op.tenantId op.incidentId) (hg : Grows s (s.apply op now)) :
    Agreeing (s.apply op now) := by
  have hany : s.incidents.any (fun x => x.id = op.incidentId) = true := by
    obtain ⟨x, hx, hid, -⟩ := hhas
    exact List.any_eq_true.mpr ⟨x, hx, by simpa using hid⟩
  have htimeline : (s.apply op now).timeline = s.timeline ++ [op.entry] := by
    rw [State.apply, if_pos hany]
  refine ⟨apply_ids h.ids op now, ?_, ?_, ?_⟩
  · intro y hy
    rw [apply_incidents] at hy
    obtain ⟨x, hx, rfl⟩ := List.mem_map.mp hy
    refine replay_entry (h.replays x hx) htimeline (write_id op now x) ?_
    split
    · rename_i hown
      rw [write_self hown.symm]
      exact apply_after
    · rename_i hother
      exact write_other (fun heq => hother heq.symm)
  · refine h.entries_snoc hg htimeline (hg.1 _ _ hhas) ?_
    intro eventId source heq
    have hpayload : op.payload = .event eventId source := heq
    unfold Operation.payload at hpayload
    split at hpayload
    · cases hpayload
    · split at hpayload <;> cases hpayload
    · cases hpayload
  · have hlinks : (s.apply op now).links = s.links := by
      rw [State.apply, if_pos hany]
    rw [hlinks]
    exact fun l hl => ⟨hg.1 _ _ (h.links l hl).1, hg.2 _ _ (h.links l hl).2⟩

theorem written_agreeing (hw : Written s u) (h : Agreeing s) (hgrounded : Grounded s) :
    Agreeing u := by
  have hg := written_grows hw
  cases hw with
  | nothing => exact h
  | event =>
    refine ⟨h.ids, h.replays, ?_, ?_⟩
    · intro entry hentry
      obtain ⟨hx, hpayload⟩ := h.entries entry hentry
      exact ⟨hx, fun eventId source heq => hg.2 _ _ (hpayload eventId source heq)⟩
    · exact fun l hl => ⟨(h.links l hl).1, hg.2 _ _ (h.links l hl).2⟩
  | @link i e id hd =>
    obtain ⟨hevent, hhas⟩ := hgrounded.deliveries _ (List.mem_of_getElem? hd)
    unfold State.link at hg ⊢
    split
    · exact h
    · rename_i hnew
      rw [if_neg hnew] at hg
      exact ⟨h.ids, h.replays, h.entries, h.links_snoc hg ⟨hhas, hevent⟩⟩
  | @recurrence i e id hd =>
    obtain ⟨hevent, hhas⟩ := hgrounded.deliveries _ (List.mem_of_getElem? hd)
    refine ⟨h.ids, ?_, h.entries_snoc hg rfl hhas ?_, h.links⟩
    · intro x hx
      refine replay_entry (h.replays x hx) rfl rfl ?_
      split <;> rfl
    · intro eventId source heq
      cases heq
      exact hevent
  | create hd hf =>
    exact create_agreeing h (hgrounded.deliveries _ (List.mem_of_getElem? hd)) hf hg
  | apply hop => exact apply_agreeing h (hgrounded.operations _ (List.mem_of_getElem? hop)) hg

/-- Every timeline begins with the one entry that created its incident. -/
theorem Agreeing.created_once (h : Agreeing s) {x : Incident} (hx : x ∈ s.incidents) :
    ∃ rest, s.entriesOf x.id = .created :: rest ∧ .created ∉ rest := by
  obtain ⟨first, rest, hlog, hfirst, hrest⟩ := replay_begins (h.replays x hx)
  have hcreated : first = .created := by
    by_contra hne
    exact hfirst (if_neg hne)
  refine ⟨rest, by rw [hlog, hcreated], ?_⟩
  intro hmem
  obtain ⟨standing, hgoes⟩ := hrest .created hmem
  exact hgoes rfl

end

theorem init_agreeing : Agreeing {} ∧ Grounded {} := by
  refine ⟨⟨List.nodup_nil, ?_, ?_, ?_⟩, ⟨?_, ?_⟩⟩ <;> intro _ h <;> cases h

/-- In every run of the workers and the operators, whatever fails or dies in it, the rows agree:
an incident is what its timeline tells, from the one entry that created it. -/
theorem timelines_replay (as : List Action) : Always step Agreeing {} as := by
  have hstep : ∀ s a t, Agreeing s ∧ Grounded s → step s a = some t →
      Agreeing t ∧ Grounded t := by
    intro s a t h hs
    obtain ⟨u, hw, hrows⟩ := step_written hs
    exact ⟨(written_agreeing hw h.1 h.2).of_rows hrows, step_grounded h.2 hs⟩
  exact (always_of_inv hstep init_agreeing).mono fun _ h => h.1

end WaOps.Incidents
