import Mathlib.Data.List.Induction
import WaOps.Incidents.Duplicates

namespace WaOps.Incidents
open Lib.Runs

/-- The incident of this id is neither resolved nor closed. -/
def State.IsOpen (s : State) (id : String) : Prop :=
  ∃ x ∈ s.incidents, x.id = id ∧ x.active = true

instance State.IsOpen.decidable (s : State) (id : String) : Decidable (s.IsOpen id) :=
  inferInstanceAs (Decidable (∃ x ∈ s.incidents, _))

/-- Every link statement of the run is about an incident that is open by then. -/
def LinksOpen (as : List Action) : Prop :=
  ∀ before i outcome after s e id, as = before ++ .link i outcome :: after →
    exec step {} before = some s → s.deliveries[i]? = some ⟨e, .found id⟩ → s.IsOpen id

/-- Every recurrence of the run is recorded on an incident that was open at the link statement
of the same delivery. -/
def RecurrencesOpen (as : List Action) : Prop :=
  ∀ before i outcome after s e id, as = before ++ .entry i outcome :: after →
    exec step {} before = some s → s.deliveries[i]? = some ⟨e, .linked id⟩ →
      ∃ earlier answer later t, before = earlier ++ .link i answer :: later ∧
        exec step {} earlier = some t ∧ t.deliveries[i]? = some ⟨e, .found id⟩ ∧ t.IsOpen id

/-- No resolve commits on an incident that a delivery has found and not linked yet. -/
def Undisturbed (s : State) : Action → Prop
  | .commit i _ outcome => outcome ≠ .aborted → ∀ o ∈ s.operations[i]?, ∀ op ∈ o,
      op.kind = .resolve → ∀ d ∈ s.deliveries, d.pc ≠ .found op.incidentId
  | _ => True

instance Undisturbed.decidable (s : State) : ∀ a, Decidable (Undisturbed s a)
  | .commit i _ outcome => inferInstanceAs (Decidable (outcome ≠ .aborted →
      ∀ o ∈ s.operations[i]?, ∀ op ∈ o, op.kind = .resolve → _))
  | .deliver _ | .insert _ _ | .check _ _ | .link _ _ | .entry _ _ | .create _ _ _ | .finish _ _
  | .crash _ | .operate _ _ _ _ _ => isTrue trivial

/-- A delivery that has found an incident has found an open one, and one that has linked its
event had found the incident before. -/
def Moved (s : State) (a : Action) (j : Nat) (d : Delivery) : Prop :=
  match d.pc with
  | .found id => (∃ ok, a = .check j ok) ∧ s.IsOpen id
  | .linked id => (∃ outcome, a = .link j outcome) ∧
      s.deliveries[j]? = some ⟨d.envelope, .found id⟩
  | _ => True

section
variable {s t u : State} {a : Action} {i j : Nat} {d d' : Delivery} {pc : DeliveryPc}
  {e : EventEnvelope} {id : String} {as : List Action}

theorem setPc_moved (hd : s.deliveries[i]? = some d)
    (h : (u.setPc i pc).deliveries[j]? = some d') (hu : u.deliveries = s.deliveries)
    (hm : Moved s a i { d with pc }) :
    s.deliveries[j]? = some d' ∨ Moved s a j d' := by
  rw [← hu] at hd
  rcases setPc_at hd h with ⟨rfl, rfl⟩ | ⟨-, h⟩
  · exact .inr hm
  · exact .inl (hu ▸ h)

theorem insert_moved {outcome : Outcome} (h : step s (.insert i outcome) = some t)
    (hd : t.deliveries[j]? = some d) :
    s.deliveries[j]? = some d ∨ Moved s (.insert i outcome) j d := by
  simp only [step] at h
  split at h
  · rename_i e hat
    split at h
    · cases h
      exact setPc_moved hat hd rfl trivial
    · split at h
      · cases h
        exact setPc_moved hat hd rfl trivial
      · cases h
        exact setPc_moved hat hd rfl trivial
    · split at h
      · cases h
        exact setPc_moved hat hd rfl trivial
      · cases h
        exact setPc_moved hat hd rfl trivial
  · contradiction

/-- A search that finds an incident finds an open one. -/
theorem check_moved {ok : Bool} (h : step s (.check i ok) = some t)
    (hd : t.deliveries[j]? = some d) :
    s.deliveries[j]? = some d ∨ Moved s (.check i ok) j d := by
  simp only [step] at h
  split at h
  · rename_i e hat
    split at h
    · cases h
      exact setPc_moved hat hd rfl trivial
    · split at h
      · split at h
        · rename_i x hfind
          cases h
          have hopen := List.find?_some hfind
          simp only [Incident.openFor, Bool.and_eq_true] at hopen
          exact setPc_moved hat hd rfl
            ⟨⟨ok, rfl⟩, x, List.mem_of_find?_eq_some hfind, rfl, hopen.2⟩
        · cases h
          exact setPc_moved hat hd rfl trivial
      · cases h
        exact setPc_moved hat hd rfl trivial
  · contradiction

theorem create_moved {outcome : Outcome} (h : step s (.create i id outcome) = some t)
    (hd : t.deliveries[j]? = some d) :
    s.deliveries[j]? = some d ∨ Moved s (.create i id outcome) j d := by
  simp only [step] at h
  split at h
  · rename_i e hat
    split at h
    · cases h
      exact setPc_moved hat hd rfl trivial
    · split at h
      · cases h
        exact setPc_moved hat hd rfl trivial
      · cases h
        exact setPc_moved hat hd rfl trivial
      · cases h
        exact setPc_moved hat hd rfl trivial
  · contradiction

/-- What a step makes of one delivery. -/
theorem step_moved (h : step s a = some t) (hd : t.deliveries[j]? = some d) :
    s.deliveries[j]? = some d ∨ Moved s a j d := by
  cases a with
  | deliver e =>
    simp only [step] at h
    split at h
    · cases h
      rcases Nat.lt_or_ge j s.deliveries.length with hlt | hge
      · rw [List.getElem?_append_left hlt] at hd
        exact .inl hd
      · rw [List.getElem?_append_right hge] at hd
        rw [List.mem_singleton.mp (List.mem_of_getElem? hd)]
        exact .inr trivial
    · contradiction
  | insert i outcome => exact insert_moved h hd
  | check i ok => exact check_moved h hd
  | link i outcome =>
    simp only [step] at h
    split at h
    · rename_i e id hat
      split at h
      · cases h
        exact setPc_moved hat hd rfl ⟨⟨_, rfl⟩, hat⟩
      · cases h
        exact setPc_moved hat hd (link_deliveries s e id) ⟨⟨_, rfl⟩, hat⟩
    · contradiction
  | entry i outcome =>
    simp only [step] at h
    split at h
    · rename_i e id hat
      split at h
      · cases h
        exact setPc_moved hat hd rfl trivial
      · cases h
        exact setPc_moved hat hd rfl trivial
      · cases h
        exact setPc_moved hat hd rfl trivial
    · contradiction
  | create i id outcome => exact create_moved h hd
  | finish i ok =>
    simp only [step] at h
    split at h
    · rename_i e id hat
      split at h
      · cases h
        exact setPc_moved hat hd rfl trivial
      · cases h
        exact setPc_moved hat hd rfl trivial
    · contradiction
  | crash i =>
    simp only [step] at h
    split at h
    · contradiction
    · contradiction
    · rename_i d hne hat
      cases h
      exact setPc_moved hat hd rfl trivial
  | operate kind tenantId userId note id =>
    simp only [step] at h
    split at h
    · cases h
      exact .inl hd
    · split at h
      · split at h
        · cases h
          exact .inl hd
        · cases h
          exact .inl hd
      · cases h
        exact .inl hd
  | commit i now outcome =>
    simp only [step] at h
    split at h
    · rename_i op hop
      split at h
      · cases h
        exact .inl hd
      · cases h
        have hkept : (s.apply op now).deliveries = s.deliveries := by
          unfold State.apply
          split <;> rfl
        exact .inl (hkept ▸ hd)
    · contradiction

/-- Only a resolve of its own closes an open incident. -/
theorem step_isOpen (h : step s a = some t) (ho : s.IsOpen id)
    (hne : ∀ i now outcome op, a = .commit i now outcome → outcome ≠ .aborted →
      s.operations[i]? = some (some op) → op.kind = .resolve → op.incidentId ≠ id) :
    t.IsOpen id := by
  obtain ⟨x, hx, hid, hactive⟩ := ho
  rcases step_incidents (step_effect h) with ⟨ht, -⟩ | ⟨i, e, id', outcome, rfl, -, -, ht⟩ |
      ⟨i, op, now, outcome, rfl, hop, hw, ht⟩
  · exact ⟨x, ht ▸ hx, hid, hactive⟩
  · exact ⟨x, ht ▸ List.mem_append_left _ hx, hid, hactive⟩
  · refine ⟨op.write now x, ?_, ?_, ?_⟩
    · rw [ht, apply_incidents]
      exact List.mem_map_of_mem hx
    · rw [write_id, hid]
    · by_cases hself : x.id = op.incidentId
      · rw [write_self hself, apply_active]
        intro hkind
        exact hne i now outcome op rfl hw hop hkind (hself.symm.trans hid)
      · rw [write_other hself]
        exact hactive

/-- What a delivery has found is open. -/
def FoundOpen (s : State) : Prop :=
  ∀ (j : Nat) e id, s.deliveries[j]? = some ⟨e, .found id⟩ → s.IsOpen id

theorem step_foundOpen (s : State) (a : Action) (t : State) (hf : FoundOpen s)
    (hu : Undisturbed s a) (h : step s a = some t) : FoundOpen t := by
  intro j e id hd
  rcases step_moved h hd with hold | hmoved
  · refine step_isOpen h (hf j e id hold) ?_
    intro i now outcome op ha hne hop hkind hid
    subst ha
    exact hu hne (some op) hop op rfl hkind _ (List.mem_of_getElem? hold) (by rw [hid])
  · obtain ⟨⟨ok, ha⟩, hopen⟩ := hmoved
    refine step_isOpen h hopen ?_
    intro i now outcome op ha'
    rw [ha] at ha'
    cases ha'

theorem init_foundOpen : FoundOpen {} := by
  intro j e id hd
  cases hd

/-- A delivery that has linked its event came through its link statement. -/
theorem linked_from (h : exec step {} as = some s)
    (hd : s.deliveries[i]? = some ⟨e, .linked id⟩) :
    ∃ earlier answer later t, as = earlier ++ .link i answer :: later ∧
      exec step {} earlier = some t ∧ t.deliveries[i]? = some ⟨e, .found id⟩ := by
  induction as using List.reverseRecOn generalizing s with
  | nil =>
    cases h
    cases hd
  | append_singleton as a ih =>
    obtain ⟨u, hu, hstep⟩ := exec_concat h
    rcases step_moved hstep hd with hold | ⟨⟨answer, ha⟩, hfound⟩
    · obtain ⟨earlier, answer, later, t, rfl, ht, hfound⟩ := ih hu hold
      exact ⟨earlier, answer, later ++ [a], t, by simp, ht, hfound⟩
    · exact ⟨as, answer, [], u, by rw [ha], hu, hfound⟩

end

/-- Where no resolve comes between a delivery's search and its link, no event ends up on an
incident that was closed before it. -/
theorem absorbed_open_of_undisturbed (as : List Action) (h : Meets step Undisturbed {} as) :
    LinksOpen as ∧ RecurrencesOpen as := by
  have hfound : ∀ before after s, as = before ++ after → exec step {} before = some s →
      FoundOpen s := by
    intro before after s hsplit hrun
    subst hsplit
    exact (always_of_meets step_foundOpen init_foundOpen h.left).last hrun
  constructor
  · intro before i outcome after s e id hsplit hrun hd
    exact hfound before _ s hsplit hrun i e id hd
  · intro before i outcome after s e id hsplit hrun hd
    obtain ⟨earlier, answer, later, t, hbefore, ht, hd⟩ := linked_from hrun hd
    refine ⟨earlier, answer, later, t, hbefore, ht, hd, ?_⟩
    refine hfound earlier (.link i answer :: later ++ .entry i outcome :: after) t ?_ ht i e id hd
    rw [hsplit, hbefore, List.append_assoc]

/-- One event opens an incident and a second of its fingerprint recurs on it. -/
def recurring : List Action :=
  [.deliver (cpuEvent "e1"), .insert 0 .committed, .check 0 true, .create 0 "i1" .committed,
   .finish 0 true, .deliver (cpuEvent "e2"), .insert 1 .committed, .check 1 true]

/-- A resolve of that incident. -/
def resolving : List Action :=
  [.operate .resolve "t" "u" none "i1", .commit 0 5 .committed]

/-- A resolve after the link leaves the recurrence where it is, and a third event opens an
incident of its own. -/
theorem resolved_after_link : ∃ as s,
    as = recurring ++ [.link 1 .committed] ++ resolving ++ [.entry 1 .committed,
      .deliver (cpuEvent "e3"), .insert 2 .committed, .check 2 true,
      .create 2 "i2" .committed] ∧
    exec step {} as = some s ∧ s.incidents.map Incident.id = ["i1", "i2"] ∧
    s.links = [(cpuEvent "e1").link "i1", (cpuEvent "e2").link "i1", (cpuEvent "e3").link "i2"] ∧
    LinksOpen as ∧ RecurrencesOpen as := by
  refine ⟨_, _, rfl, (Option.some_get (by decide)).symm, by decide, by decide, ?_⟩
  exact absorbed_open_of_undisturbed _ (by decide)

/-- The incident is resolved before the link: the event ends up on it and opens no other. -/
theorem resolved_before_link : ¬ ∀ as, LinksOpen as ∧ RecurrencesOpen as := by
  intro h
  have hrun : ∃ s ∈ exec step {} (recurring ++ resolving),
      s.deliveries[1]? = some ⟨cpuEvent "e2", .found "i1"⟩ ∧ ¬ s.IsOpen "i1" := by decide
  obtain ⟨s, hs, hd, hclosed⟩ := hrun
  exact hclosed ((h (recurring ++ resolving ++ [.link 1 .committed])).1 _ 1 .committed [] s _ "i1"
    rfl hs hd)

end WaOps.Incidents
