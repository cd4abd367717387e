import WaOps.Incidents.Effects

namespace WaOps.Incidents
open Lib.Runs

def State.linksOf (s : State) (eventId : String) : Nat :=
  s.links.countP (fun l => l.eventId = eventId)

def TimelineEntry.mentions (eventId : String) (x : TimelineEntry) : Bool :=
  match x.payload with
  | .event id _ => id = eventId
  | _ => false

def State.mentions (s : State) (eventId : String) : Nat :=
  s.timeline.countP (TimelineEntry.mentions eventId)

/-- Every completed delivery of an event with a fingerprint has left one link and one
timeline entry. -/
def ExactlyOnce (s : State) : Prop :=
  ∀ e ∈ s.completed, e.key ≠ none → s.linksOf e.eventId = 1 ∧ s.mentions e.eventId = 1

instance (s : State) : Decidable (ExactlyOnce s) :=
  inferInstanceAs (Decidable (∀ e ∈ s.completed, _))

/-- What a working delivery has written so far: links and timeline entries. -/
def DeliveryPc.written : DeliveryPc → Nat × Nat
  | .linked _ => (1, 0)
  | _ => (0, 0)

def State.counts (s : State) (eventId : String) : Nat × Nat :=
  (s.linksOf eventId, s.mentions eventId)

/-- The delivery has stored its event, or has ended as if it had. -/
def DeliveryPc.begun : DeliveryPc → Bool
  | .received | .failed => false
  | _ => true

/-- Delivery `j` is about the event. -/
def State.Of (s : State) (id : String) (j : Nat) (d : Delivery) : Prop :=
  s.deliveries[j]? = some d ∧ d.envelope.eventId = id

/-- How far an event is: not stored; stored, with the one delivery that works on it; or
stored and done with. -/
inductive Phase (s : State) (id : String) : Prop
  | unseen (hst : s.stored id = false) (hc : s.counts id = (0, 0))
    (ho : ∀ j d, s.Of id j d → d.pc.begun = false)
  | busy {i : Nat} {d : Delivery} (hat : s.Of id i d) (hst : s.stored id = true)
    (hw : d.pc.working = true) (hc : s.counts id = d.pc.written)
    (ho : ∀ j d', j ≠ i → s.Of id j d' → d'.pc.begun = false)
  | settled {i : Nat} {d : Delivery} (hat : s.Of id i d) (hst : s.stored id = true)
    (hc : d.envelope.key ≠ none → s.counts id = (1, 1))
    (hq : ∀ j d', s.Of id j d' → d'.pc.working = false)

structure Tracked (s : State) : Prop where
  same : ∀ id j d j' d', s.Of id j d → s.Of id j' d' → d.envelope = d'.envelope
  phase : ∀ id, Phase s id
  completed : ∀ e ∈ s.completed, ∃ j : Nat, s.deliveries[j]? = some ⟨e, .done⟩

theorem begun_of_working {p : DeliveryPc} (h : p.working = true) : p.begun = true := by
  cases p <;> simp_all [DeliveryPc.working, DeliveryPc.begun]

theorem Tracked.exactlyOnce {s : State} (h : Tracked s) : ExactlyOnce s := by
  intro e he hk
  obtain ⟨j, hj⟩ := h.completed e he
  have hat : s.Of e.eventId j ⟨e, .done⟩ := ⟨hj, rfl⟩
  cases h.phase e.eventId with
  | unseen _ _ ho => exact absurd (ho j _ hat) (by simp [DeliveryPc.begun])
  | @busy i d hati _ hw _ ho =>
    by_cases hji : j = i
    · have heq : d = ⟨e, .done⟩ := by
        have := hati.1
        rw [← hji, hj] at this
        exact (Option.some.inj this).symm
      rw [heq] at hw
      contradiction
    · exact absurd (ho j _ hji hat) (by simp [DeliveryPc.begun])
  | settled hati _ hc _ =>
    have henv := h.same _ _ _ _ _ hati hat
    have := hc (by rw [henv]; exact hk)
    exact ⟨congrArg Prod.fst this, congrArg Prod.snd this⟩

section
variable {s t : State} {i : Nat} {d : Delivery} {p : DeliveryPc}

/-- What concerns other events leaves the phase of this one. -/
theorem Phase.frame {id : String} (h : Phase s id) (hst : t.stored id = s.stored id)
    (hc : t.counts id = s.counts id) (hof : ∀ j d, t.Of id j d ↔ s.Of id j d) : Phase t id := by
  cases h with
  | unseen h1 h2 ho =>
    exact .unseen (hst.trans h1) (hc.trans h2) fun j d hd => ho j d ((hof j d).mp hd)
  | busy hat h1 hw h2 ho =>
    refine .busy ((hof _ _).mpr hat) (hst.trans h1) hw (hc.trans h2) ?_
    exact fun j d' hji hd => ho j d' hji ((hof j d').mp hd)
  | settled hat h1 h2 hq =>
    refine .settled ((hof _ _).mpr hat) (hst.trans h1) (fun hk => hc.trans (h2 hk)) ?_
    exact fun j d' hd => hq j d' ((hof j d').mp hd)

theorem setPc_of_other (hd : s.deliveries[i]? = some d) {id : String}
    (hne : id ≠ d.envelope.eventId) (j : Nat) (d' : Delivery) :
    (s.setPc i p).Of id j d' ↔ s.Of id j d' := by
  constructor
  · rintro ⟨hj, hid⟩
    rcases setPc_at hd hj with ⟨_, rfl⟩ | ⟨_, hold⟩
    · exact absurd hid.symm hne
    · exact ⟨hold, hid⟩
  · rintro ⟨hj, hid⟩
    have hji : j ≠ i := by
      rintro rfl
      rw [hd] at hj
      cases hj
      exact hne hid.symm
    exact ⟨(setPc_at_other hji).trans hj, hid⟩

/-- A delivery of an event the moved one is not about, or another delivery of its event. -/
theorem setPc_of (hd : s.deliveries[i]? = some d) {id : String} {j : Nat} {d' : Delivery}
    (h : (s.setPc i p).Of id j d') :
    (j = i ∧ d' = { d with pc := p }) ∨ (j ≠ i ∧ s.Of id j d') := by
  obtain ⟨hj, hid⟩ := h
  rcases setPc_at hd hj with hself | ⟨hji, hold⟩
  · exact .inl hself
  · exact .inr ⟨hji, hold, hid⟩

/-- A move is in order when it is for its own event and leaves the others alone. -/
theorem Tracked.move (h : Tracked s) (hd : s.deliveries[i]? = some d) (hne : d.pc ≠ .done)
    (hdel : t.deliveries = (s.setPc i p).deliveries)
    (hcomp : ∀ e ∈ t.completed, e ∈ s.completed ∨ (e = d.envelope ∧ p = .done))
    (hst : ∀ id, id ≠ d.envelope.eventId → t.stored id = s.stored id)
    (hc : ∀ id, id ≠ d.envelope.eventId → t.counts id = s.counts id)
    (hphase : Phase t d.envelope.eventId) : Tracked t := by
  have hof : ∀ id j d', t.Of id j d' ↔ (s.setPc i p).Of id j d' := by
    intro id j d'
    unfold State.Of
    rw [hdel]
  have hself : s.Of d.envelope.eventId i d := ⟨hd, rfl⟩
  refine ⟨?_, ?_, ?_⟩
  · intro id j u j' u' hu hu'
    have henv : ∀ j u, t.Of id j u → ∃ j v, s.Of id j v ∧ v.envelope = u.envelope := by
      intro j u hu
      rcases setPc_of hd ((hof id j u).mp hu) with ⟨_, rfl⟩ | ⟨_, hold⟩
      · exact ⟨i, d, ⟨hd, hu.2⟩, rfl⟩
      · exact ⟨j, u, hold, rfl⟩
    obtain ⟨_, v, hv, hvu⟩ := henv j u hu
    obtain ⟨_, v', hv', hvu'⟩ := henv j' u' hu'
    rw [← hvu, ← hvu']
    exact h.same id _ v _ v' hv hv'
  · intro id
    by_cases hid : id = d.envelope.eventId
    · exact hid ▸ hphase
    · refine (h.phase id).frame (hst id hid) (hc id hid) ?_
      exact fun j d' => (hof id j d').trans (setPc_of_other hd hid j d')
  · intro e he
    rw [hdel]
    rcases hcomp e he with hold | ⟨rfl, rfl⟩
    · obtain ⟨j, hj⟩ := h.completed e hold
      have hji : j ≠ i := by
        rintro rfl
        rw [hd] at hj
        cases hj
        exact hne rfl
      exact ⟨j, (setPc_at_other hji).trans hj⟩
    · exact ⟨i, setPc_at_self hd⟩

/-- A working delivery is the one its event is busy with. -/
theorem Tracked.busy (h : Tracked s) (hd : s.deliveries[i]? = some d)
    (hw : d.pc.working = true) : s.stored d.envelope.eventId = true ∧
      s.counts d.envelope.eventId = d.pc.written ∧
      ∀ j d', j ≠ i → s.Of d.envelope.eventId j d' → d'.pc.begun = false := by
  have hat : s.Of d.envelope.eventId i d := ⟨hd, rfl⟩
  cases h.phase d.envelope.eventId with
  | unseen _ _ ho => exact absurd (ho i d hat) (by simp [begun_of_working hw])
  | @busy k u hatu hst _ hc ho =>
    by_cases hik : i = k
    · have heq : u = d := by
        have := hatu.1
        rw [← hik, hd] at this
        exact (Option.some.inj this).symm
      subst heq hik
      exact ⟨hst, hc, ho⟩
    · exact absurd (ho i d hik hat) (by simp [begun_of_working hw])
  | settled _ _ _ hq => exact absurd (hq i d hat) (by simp [hw])

/-- A working delivery that goes on working. -/
theorem Tracked.work (h : Tracked s) (hd : s.deliveries[i]? = some d)
    (hw : d.pc.working = true) (hpc : p.working = true)
    (hdel : t.deliveries = (s.setPc i p).deliveries) (hcomp : t.completed = s.completed)
    (hst : ∀ id, t.stored id = s.stored id)
    (hc : ∀ id, id ≠ d.envelope.eventId → t.counts id = s.counts id)
    (hown : s.counts d.envelope.eventId = d.pc.written →
      t.counts d.envelope.eventId = p.written) : Tracked t := by
  obtain ⟨hstored, hcounts, hothers⟩ := h.busy hd hw
  refine h.move hd ?_ hdel (fun e he => .inl (hcomp ▸ he)) (fun id _ => hst id) hc ?_
  · intro hdone
    rw [hdone] at hw
    contradiction
  · refine .busy (i := i) (d := { d with pc := p }) ⟨?_, rfl⟩ ((hst _).trans hstored) hpc
      (hown hcounts) ?_
    · rw [hdel]
      exact setPc_at_self hd
    · intro j d' hji hof
      have hof' : (s.setPc i p).Of d.envelope.eventId j d' := by
        unfold State.Of at hof ⊢
        rw [← hdel]
        exact hof
      rcases setPc_of hd hof' with ⟨heq, _⟩ | ⟨_, hold⟩
      · exact absurd heq hji
      · exact hothers j d' hji hold

/-- A working delivery that has written everything. -/
theorem Tracked.leave (h : Tracked s) (hd : s.deliveries[i]? = some d)
    (hw : d.pc.working = true) (hpc : p.working = false)
    (hdel : t.deliveries = (s.setPc i p).deliveries) (hcomp : t.completed = s.completed)
    (hst : ∀ id, t.stored id = s.stored id)
    (hc : ∀ id, id ≠ d.envelope.eventId → t.counts id = s.counts id)
    (hown : s.counts d.envelope.eventId = d.pc.written → d.envelope.key ≠ none →
      t.counts d.envelope.eventId = (1, 1)) : Tracked t := by
  obtain ⟨hstored, hcounts, hothers⟩ := h.busy hd hw
  refine h.move hd ?_ hdel (fun e he => .inl (hcomp ▸ he)) (fun id _ => hst id) hc ?_
  · intro hdone
    rw [hdone] at hw
    contradiction
  · refine .settled (i := i) (d := { d with pc := p }) ⟨?_, rfl⟩ ((hst _).trans hstored)
      (hown hcounts) ?_
    · rw [hdel]
      exact setPc_at_self hd
    · intro j d' hof
      have hof' : (s.setPc i p).Of d.envelope.eventId j d' := by
        unfold State.Of at hof ⊢
        rw [← hdel]
        exact hof
      rcases setPc_of hd hof' with ⟨_, rfl⟩ | ⟨hji, hold⟩
      · exact hpc
      · by_contra hworks
        have := hothers j d' hji hold
        rw [begun_of_working (by simpa using hworks)] at this
        contradiction

/-- A delivery that does not work, before or after. It may end well only where its event is
stored and nobody works on it. -/
theorem Tracked.rest (h : Tracked s) (hd : s.deliveries[i]? = some d) (hne : d.pc ≠ .done)
    (hw : d.pc.working = false) (hpc : p.working = false)
    (hset : p.begun = true → s.stored d.envelope.eventId = true ∧
      ∀ j d', s.Of d.envelope.eventId j d' → d'.pc.working = false)
    (hdel : t.deliveries = (s.setPc i p).deliveries)
    (hcomp : ∀ e ∈ t.completed, e ∈ s.completed ∨ (e = d.envelope ∧ p = .done))
    (hst : ∀ id, t.stored id = s.stored id) (hc : ∀ id, t.counts id = s.counts id) :
    Tracked t := by
  refine h.move hd hne hdel hcomp (fun id _ => hst id) (fun id _ => hc id) ?_
  have hof : ∀ j d', t.Of d.envelope.eventId j d' → (j = i ∧ d' = { d with pc := p }) ∨
      (j ≠ i ∧ s.Of d.envelope.eventId j d') := by
    intro j d' ⟨hj, hid⟩
    rw [hdel] at hj
    exact setPc_of hd ⟨hj, hid⟩
  have hkeep : ∀ j d', j ≠ i → s.Of d.envelope.eventId j d' → t.Of d.envelope.eventId j d' := by
    intro j d' hji ⟨hj, hid⟩
    refine ⟨?_, hid⟩
    rw [hdel, setPc_at_other hji]
    exact hj
  have hself : t.Of d.envelope.eventId i { d with pc := p } := ⟨hdel ▸ setPc_at_self hd, rfl⟩
  cases h.phase d.envelope.eventId with
  | unseen h1 h2 ho =>
    refine .unseen ((hst _).trans h1) ((hc _).trans h2) ?_
    intro j d' hj
    rcases hof j d' hj with ⟨_, rfl⟩ | ⟨_, hold⟩
    · by_contra hb
      have := (hset (by simpa using hb)).1
      rw [h1] at this
      contradiction
    · exact ho j d' hold
  | @busy k u hat h1 hwk h2 ho =>
    have hki : k ≠ i := by
      rintro rfl
      have := hat.1
      rw [hd] at this
      cases this
      rw [hw] at hwk
      contradiction
    refine .busy (hkeep k u hki hat) ((hst _).trans h1) hwk ((hc _).trans h2) ?_
    intro j d' hjk hj
    rcases hof j d' hj with ⟨_, rfl⟩ | ⟨_, hold⟩
    · by_contra hb
      have := (hset (by simpa using hb)).2 k u hat
      rw [hwk] at this
      contradiction
    · exact ho j d' hjk hold
  | @settled k u hat h1 h2 hq =>
    have hq' : ∀ j d', t.Of d.envelope.eventId j d' → d'.pc.working = false := by
      intro j d' hj
      rcases hof j d' hj with ⟨_, rfl⟩ | ⟨_, hold⟩
      · exact hpc
      · exact hq j d' hold
    have henv := h.same _ k u i d hat ⟨hd, rfl⟩
    exact .settled hself ((hst _).trans h1) (fun hk => (hc _).trans (h2 (henv ▸ hk))) hq'

end

section
variable {s t : State} {i : Nat} {e : EventEnvelope} {id : String}

theorem stored_append (r : DomainEvent) (id : String) :
    ({ s with events := s.events ++ [r] } : State).stored id = (s.stored id || r.id == id) := by
  simp only [State.stored, List.any_append, List.any_cons, List.any_nil, Bool.or_false]
  congr 1

theorem store_tracked (h : Tracked s) (hd : s.deliveries[i]? = some ⟨e, .received⟩)
    (hst : s.stored e.eventId = false) :
    Tracked ({ s with events := s.events ++ [e.row] }.setPc i .stored) := by
  refine h.move hd (by simp) rfl (fun e he => .inl he) ?_ (fun _ _ => rfl) ?_
  · intro id hid
    refine (stored_append e.row id).trans ?_
    have : (e.row.id == id) = false := by
      simp only [beq_eq_false_iff_ne]
      exact fun heq => hid heq.symm
    rw [this, Bool.or_false]
  · have hat : s.Of e.eventId i ⟨e, .received⟩ := ⟨hd, rfl⟩
    cases h.phase e.eventId with
    | unseen _ hc ho =>
      refine .busy (i := i) (d := ⟨e, .stored⟩) ⟨setPc_at_self hd, rfl⟩ ?_ rfl hc ?_
      · refine (stored_append e.row e.eventId).trans ?_
        simp [EventEnvelope.row]
      · intro j d' hji hj
        rcases setPc_of hd hj with ⟨heq, _⟩ | ⟨_, hold⟩
        · exact absurd heq hji
        · exact ho j d' hold
    | busy _ h1 _ _ _ =>
      rw [hst] at h1
      contradiction
    | settled _ h1 _ _ =>
      rw [hst] at h1
      contradiction

theorem linksOf_append (l : IncidentEvent) (id : String) :
    ({ s with links := s.links ++ [l] } : State).linksOf id =
      s.linksOf id + if l.eventId = id then 1 else 0 := by
  simp [State.linksOf, List.countP_append, List.countP_cons]

theorem mentions_append (x : TimelineEntry) (id : String) :
    ({ s with timeline := s.timeline ++ [x] } : State).mentions id =
      s.mentions id + if x.mentions id then 1 else 0 := by
  simp [State.mentions, List.countP_append, List.countP_cons]

theorem link_tracked (h : Tracked s) (hd : s.deliveries[i]? = some ⟨e, .found id⟩) :
    Tracked ((s.link e id).setPc i (.linked id)) := by
  obtain ⟨_, hcounts, _⟩ := h.busy hd rfl
  have hnone : e.link id ∉ s.links := by
    intro hm
    have hz : s.linksOf e.eventId = 0 := congrArg Prod.fst hcounts
    have := List.countP_eq_zero.mp hz _ hm
    simp [EventEnvelope.link] at this
  have hlink : s.link e id = { s with links := s.links ++ [e.link id] } := by
    simp [State.link, hnone]
  rw [hlink]
  refine h.work (p := .linked id) hd rfl rfl rfl rfl (fun _ => rfl) ?_ ?_
  · intro other hne
    have : ¬ (e.link id).eventId = other := fun heq => hne heq.symm
    change (({ s with links := s.links ++ [e.link id] } : State).linksOf other, _) = _
    rw [linksOf_append, if_neg this]
    rfl
  · intro hc
    change (({ s with links := s.links ++ [e.link id] } : State).linksOf e.eventId,
      s.mentions e.eventId) = (1, 0)
    have h1 : s.linksOf e.eventId = 0 := congrArg Prod.fst hc
    have h2 : s.mentions e.eventId = 0 := congrArg Prod.snd hc
    rw [linksOf_append, h1, h2]
    simp [EventEnvelope.link]

theorem entry_tracked (h : Tracked s) (hd : s.deliveries[i]? = some ⟨e, .linked id⟩) :
    Tracked ({ s with timeline := s.timeline ++ [e.recurrence id] }.setPc i (.opened id)) := by
  refine h.leave (p := .opened id) hd rfl rfl rfl rfl (fun _ => rfl) ?_ ?_
  · intro other hne
    have hm : (e.recurrence id).mentions other = false := by
      simp only [EventEnvelope.recurrence, TimelineEntry.mentions, decide_eq_false_iff_not]
      exact fun heq => hne heq.symm
    change (_, ({ s with timeline := s.timeline ++ [e.recurrence id] } : State).mentions other) = _
    rw [mentions_append, hm]
    rfl
  · intro hc _
    change (s.linksOf e.eventId,
      ({ s with timeline := s.timeline ++ [e.recurrence id] } : State).mentions e.eventId) = (1, 1)
    have h1 : s.linksOf e.eventId = 1 := congrArg Prod.fst hc
    have h2 : s.mentions e.eventId = 0 := congrArg Prod.snd hc
    rw [mentions_append, h1, h2]
    simp [EventEnvelope.recurrence, TimelineEntry.mentions]

theorem create_counts (s : State) (e : EventEnvelope) (id other : String) :
    (s.create e id).counts other =
      (s.linksOf other + if e.eventId = other then 1 else 0,
        s.mentions other + if e.eventId = other then 1 else 0) := by
  have h1 := linksOf_append (s := s) (e.link id) other
  have h2 := mentions_append (s := s) (e.opening id) other
  refine Prod.ext h1 (h2.trans ?_)
  simp [EventEnvelope.opening, TimelineEntry.mentions]

theorem create_tracked (h : Tracked s) (hd : s.deliveries[i]? = some ⟨e, .notFound⟩) :
    Tracked ((s.create e id).setPc i (.opened id)) := by
  refine h.leave (p := .opened id) hd rfl rfl rfl rfl (fun _ => rfl) ?_ ?_
  · intro other hne
    refine (create_counts s e id other).trans ?_
    rw [if_neg fun heq => hne heq.symm]
    rfl
  · intro hc _
    refine (create_counts s e id e.eventId).trans ?_
    have h1 : s.linksOf e.eventId = 0 := congrArg Prod.fst hc
    have h2 : s.mentions e.eventId = 0 := congrArg Prod.snd hc
    rw [h1, h2]
    simp

/-- An event some delivery has ended well is settled. -/
theorem Tracked.ended (h : Tracked s) {d : Delivery} (hd : s.deliveries[i]? = some d)
    (hb : d.pc.begun = true) (hw : d.pc.working = false) : s.stored d.envelope.eventId = true ∧
      ∀ j d', s.Of d.envelope.eventId j d' → d'.pc.working = false := by
  have hat : s.Of d.envelope.eventId i d := ⟨hd, rfl⟩
  cases h.phase d.envelope.eventId with
  | unseen _ _ ho => exact absurd (ho i d hat) (by simp [hb])
  | @busy k u hatu _ hwk _ ho =>
    by_cases hik : i = k
    · subst hik
      have := hatu.1
      rw [hd] at this
      cases this
      rw [hw] at hwk
      contradiction
    · exact absurd (ho i d hik hat) (by simp [hb])
  | settled _ hst _ hq => exact ⟨hst, hq⟩

theorem deliver_tracked (h : Tracked s)
    (hs : ∀ d ∈ s.deliveries, d.envelope.eventId = e.eventId → d.envelope = e) :
    Tracked { s with deliveries := s.deliveries ++ [{ envelope := e }] } := by
  have hof : ∀ id j d, ({ s with deliveries := s.deliveries ++ [{ envelope := e }] } : State).Of
      id j d → s.Of id j d ∨ (id = e.eventId ∧ d = { envelope := e }) := by
    rintro id j d ⟨hj, hid⟩
    simp only [List.getElem?_append] at hj
    split at hj
    · exact .inl ⟨hj, hid⟩
    · right
      have hm := List.mem_of_getElem? hj
      rw [List.mem_singleton] at hm
      subst hm
      exact ⟨hid.symm, rfl⟩
  have hkeep : ∀ id j d, s.Of id j d →
      ({ s with deliveries := s.deliveries ++ [{ envelope := e }] } : State).Of id j d := by
    rintro id j d ⟨hj, hid⟩
    refine ⟨?_, hid⟩
    have hlt : j < s.deliveries.length := (List.getElem?_eq_some_iff.mp hj).1
    simp only [List.getElem?_append, hlt, if_true]
    exact hj
  have hown : ∀ id j d, s.Of id j d → id = e.eventId → d.envelope = e := by
    rintro id j d ⟨hj, hid⟩ rfl
    exact hs d (List.mem_of_getElem? hj) hid
  refine ⟨?_, ?_, ?_⟩
  · intro id j d j' d' hd hd'
    rcases hof id j d hd with hold | ⟨hide, rfl⟩ <;>
      rcases hof id j' d' hd' with hold' | ⟨hide', rfl⟩
    · exact h.same id j d j' d' hold hold'
    · exact hown id j d hold hide'
    · exact (hown id j' d' hold' hide).symm
    · rfl
  · intro id
    cases h.phase id with
    | unseen h1 h2 ho =>
      refine .unseen h1 h2 ?_
      intro j d hd
      rcases hof id j d hd with hold | ⟨_, rfl⟩
      · exact ho j d hold
      · rfl
    | busy hat h1 hw h2 ho =>
      refine .busy (hkeep _ _ _ hat) h1 hw h2 ?_
      intro j d hji hd
      rcases hof id j d hd with hold | ⟨_, rfl⟩
      · exact ho j d hji hold
      · rfl
    | settled hat h1 h2 hq =>
      refine .settled (hkeep _ _ _ hat) h1 h2 ?_
      intro j d hd
      rcases hof id j d hd with hold | ⟨_, rfl⟩
      · exact hq j d hold
      · rfl
  · intro x hx
    obtain ⟨j, hj⟩ := h.completed x hx
    exact ⟨j, (hkeep x.eventId j _ ⟨hj, rfl⟩).1⟩

/-- An operator's entry mentions no event. -/
theorem operation_mentions (op : Operation) (id : String) : op.entry.mentions id = false := by
  unfold Operation.entry Operation.payload TimelineEntry.mentions
  split
  · rename_i hp
    split at hp
    · contradiction
    · split at hp <;> contradiction
    · contradiction
  · rfl

theorem apply_tracked (h : Tracked s) (op : Operation) (now : Int) (k : Nat) :
    Tracked ((s.apply op now).endOperation k) := by
  unfold State.apply
  split
  · refine ⟨h.same, ?_, h.completed⟩
    intro id
    refine (h.phase id).frame rfl ?_ fun _ _ => Iff.rfl
    change (_, ({ s with timeline := s.timeline ++ [op.entry] } : State).mentions id) = _
    rw [mentions_append, operation_mentions]
    rfl
  · exact ⟨h.same, fun id => (h.phase id).frame rfl rfl fun _ _ => Iff.rfl, h.completed⟩

end

theorem step_tracked (s : State) (a : Action) (t : State) (h : Tracked s) (hc : Careful s a)
    (hs : step s a = some t) : Tracked t := by
  cases step_effect hs with
  | deliver hall => exact deliver_tracked h hall
  | @skip i e hd hst =>
    have hquiet := hc _ hd rfl
    rw [if_pos hst] at hquiet
    refine h.rest (p := .done) hd (by simp) rfl rfl ?_ rfl ?_ (fun _ => rfl) (fun _ => rfl)
    · intro _
      refine ⟨hst, ?_⟩
      rintro j d' ⟨hj, hid⟩
      exact hquiet rfl d' (List.mem_of_getElem? hj) hid
    · intro x hx
      rcases List.mem_append.mp hx with hx | hx
      · exact .inl hx
      · exact .inr ⟨List.mem_singleton.mp hx, rfl⟩
  | @store i e outcome p hd hst hp =>
    have hne := hc _ hd rfl
    rw [if_neg (by simp [hst])] at hne
    rcases hp with rfl | ho
    · exact store_tracked h hd hst
    · exact absurd ho hne
  | @check i e ok p hd hp =>
    have hw : p.working = true ∧ p.written = (0, 0) := by
      rcases hp with rfl | ⟨id, rfl⟩ <;> exact ⟨rfl, rfl⟩
    refine h.work hd rfl hw.1 rfl rfl (fun _ => rfl) (fun _ _ => rfl) ?_
    intro hcounts
    rw [hw.2]
    exact hcounts
  | keyless hd hk =>
    refine h.leave (p := .opened "") hd rfl rfl rfl rfl (fun _ => rfl) (fun _ _ => rfl) ?_
    intro _ hne
    exact absurd hk hne
  | link hd => exact link_tracked h hd
  | unlinked => exact absurd rfl hc
  | @entry i e id outcome p hd hp =>
    rcases hp with rfl | rfl
    · exact entry_tracked h hd
    · contradiction
  | @create i e id outcome p hd hf ho hp =>
    rcases hp with rfl | rfl
    · exact create_tracked h hd
    · exact absurd hc.1 (by simp)
  | @finish i e id hd =>
    refine h.rest (p := .done) hd (by simp) rfl rfl ?_ rfl ?_ (fun _ => rfl) (fun _ => rfl)
    · exact fun _ => h.ended hd rfl rfl
    · intro x hx
      rcases List.mem_append.mp hx with hx | hx
      · exact .inl hx
      · exact .inr ⟨List.mem_singleton.mp hx, rfl⟩
  | fail hd hne hw _ =>
    refine h.rest (p := .failed) hd hne (hw hc) rfl ?_ rfl (fun _ hx => .inl hx) (fun _ => rfl)
      (fun _ => rfl)
    intro hb
    contradiction
  | operate operations _ =>
    exact ⟨h.same, fun id => (h.phase id).frame rfl rfl fun _ _ => Iff.rfl, h.completed⟩
  | apply _ _ => exact apply_tracked h _ _ _

theorem empty_tracked : Tracked {} := by
  refine ⟨?_, ?_, ?_⟩
  · rintro id j d j' d' ⟨hj, _⟩
    simp at hj
  · intro id
    refine .unseen rfl rfl ?_
    rintro j d ⟨hj, _⟩
    simp at hj
  · intro e he
    simp at he

/-- However often and however concurrently events are delivered: as long as no attempt breaks
off, or meets another one, between its event row and the end of its writes, a completed
delivery has left exactly one link and one timeline entry. -/
theorem exactly_once_of_careful {as : List Action} (hm : Meets step Careful {} as) :
    Always step ExactlyOnce {} as :=
  (always_of_meets step_tracked empty_tracked hm).mono fun _ h => h.exactlyOnce

def oomEvent : EventEnvelope :=
  { eventId := "e1", tenantId := "t", eventType := "container.oom", severity := "critical",
    fingerprint := some "oom:c1" }

theorem redelivered_once : Always step ExactlyOnce {}
    [.deliver oomEvent, .insert 0 .committed, .check 0 true, .create 0 "i1" .committed,
     .finish 0 false, .deliver oomEvent, .insert 1 .committed] :=
  exactly_once_of_careful (by decide)

/-- The worker dies between the event row and the incident; the retry finds the row and takes
itself for a duplicate. -/
theorem crashed_event_lost :
    ∃ s, exec step {} [.deliver oomEvent, .insert 0 .committed, .crash 0, .deliver oomEvent,
        .insert 1 .committed] = some s ∧ ¬ ExactlyOnce s := by
  refine ⟨_, (Option.some_get (by decide)).symm, ?_⟩
  decide

end WaOps.Incidents
