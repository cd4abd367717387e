import WaOps.Incidents.State

namespace WaOps.Incidents

/-- The event row is written and `openFromEvent` has not returned. -/
def DeliveryPc.working : DeliveryPc → Bool
  | .stored | .found _ | .notFound | .linked _ => true
  | _ => false

/-- No attempt fails, dies or loses its link between its event row and the end of
`openFromEvent`, and none finds the row of an event that another attempt is working on. -/
def Careful (s : State) : Action → Prop
  | .insert i outcome => ∀ d ∈ s.deliveries[i]?, d.pc = .received →
      if s.stored d.envelope.eventId then
        outcome = .committed → ∀ d' ∈ s.deliveries, d'.envelope.eventId = d.envelope.eventId →
          d'.pc.working = false
      else outcome ≠ .unanswered
  | .check i ok => ∀ d ∈ s.deliveries[i]?, d.pc = .stored → d.envelope.key ≠ none → ok = true
  | .link _ outcome => outcome ≠ .aborted
  | .entry _ outcome => outcome = .committed
  | .create _ id outcome => outcome = .committed ∧ ∀ x ∈ s.incidents, x.id ≠ id
  | .crash i => ∀ d ∈ s.deliveries[i]?, d.pc.working = false
  | _ => True

instance (s : State) (a : Action) : Decidable (Careful s a) := by
  cases a <;> unfold Careful <;> infer_instance

/-- The action writes the incident table. -/
def Writes (s : State) : Action → Prop
  | .create _ id outcome => outcome ≠ .aborted ∧ ∀ x ∈ s.incidents, x.id ≠ id
  | .commit _ _ outcome => outcome ≠ .aborted
  | _ => False

/-- All a step can do. -/
inductive Effect (s : State) : Action → State → Prop
  | deliver {e : EventEnvelope}
    (hs : ∀ d ∈ s.deliveries, d.envelope.eventId = e.eventId → d.envelope = e) :
    Effect s (.deliver e) { s with deliveries := s.deliveries ++ [{ envelope := e }] }
  | skip {i : Nat} {e : EventEnvelope} (hd : s.deliveries[i]? = some ⟨e, .received⟩)
    (hst : s.stored e.eventId = true) : Effect s (.insert i .committed) (s.complete i e)
  | store {i : Nat} {e : EventEnvelope} {outcome : Outcome} {pc : DeliveryPc}
    (hd : s.deliveries[i]? = some ⟨e, .received⟩) (hst : s.stored e.eventId = false)
    (hp : pc = .stored ∨ outcome = .unanswered) :
    Effect s (.insert i outcome) ({ s with events := s.events ++ [e.row] }.setPc i pc)
  | check {i : Nat} {e : EventEnvelope} {ok : Bool} {pc : DeliveryPc}
    (hd : s.deliveries[i]? = some ⟨e, .stored⟩)
    (hp : pc = .notFound ∨ ∃ id, pc = .found id) : Effect s (.check i ok) (s.setPc i pc)
  | keyless {i : Nat} {e : EventEnvelope} {ok : Bool} (hd : s.deliveries[i]? = some ⟨e, .stored⟩)
    (hk : e.key = none) : Effect s (.check i ok) (s.setPc i (.opened ""))
  | link {i : Nat} {e : EventEnvelope} {id : String} {outcome : Outcome}
    (hd : s.deliveries[i]? = some ⟨e, .found id⟩) :
    Effect s (.link i outcome) ((s.link e id).setPc i (.linked id))
  | unlinked {i : Nat} {id : String} : Effect s (.link i .aborted) (s.setPc i (.linked id))
  | entry {i : Nat} {e : EventEnvelope} {id : String} {outcome : Outcome} {pc : DeliveryPc}
    (hd : s.deliveries[i]? = some ⟨e, .linked id⟩)
    (hp : pc = .opened id ∨ outcome = .unanswered) :
    Effect s (.entry i outcome)
      ({ s with timeline := s.timeline ++ [e.recurrence id] }.setPc i pc)
  | create {i : Nat} {e : EventEnvelope} {id : String} {outcome : Outcome} {pc : DeliveryPc}
    (hd : s.deliveries[i]? = some ⟨e, .notFound⟩) (hf : ∀ x ∈ s.incidents, x.id ≠ id)
    (ho : outcome ≠ .aborted) (hp : pc = .opened id ∨ outcome = .unanswered) :
    Effect s (.create i id outcome) ((s.create e id).setPc i pc)
  | finish {i : Nat} {e : EventEnvelope} {id : String}
    (hd : s.deliveries[i]? = some ⟨e, .opened id⟩) : Effect s (.finish i true) (s.complete i e)
  | fail {i : Nat} {d : Delivery} (hd : s.deliveries[i]? = some d) (hne : d.pc ≠ .done)
    (hc : Careful s a → d.pc.working = false) (hw : ¬ Writes s a) :
    Effect s a (s.setPc i .failed)
  | operate (operations : List (Option Operation)) (hw : ¬ Writes s a) :
    Effect s a { s with operations }
  | apply {i : Nat} {op : Operation} {now : Int} {outcome : Outcome} (ho : outcome ≠ .aborted)
    (hop : s.operations[i]? = some (some op)) :
    Effect s (.commit i now outcome) ((s.apply op now).endOperation i)

theorem insert_effect {s t : State} {i : Nat} {outcome : Outcome}
    (h : step s (.insert i outcome) = some t) : Effect s (.insert i outcome) t := by
  simp only [step] at h
  split at h
  · rename_i e hd
    split at h
    · cases h
      exact .fail hd (by simp) (fun _ => rfl) id
    · split at h
      · rename_i hst
        cases h
        exact .skip hd hst
      · rename_i hst
        cases h
        exact .store hd (by simpa using hst) (.inl rfl)
    · split at h
      · cases h
        exact .fail hd (by simp) (fun _ => rfl) id
      · rename_i hst
        cases h
        exact .store hd (by simpa using hst) (.inr rfl)
  · contradiction

theorem check_effect {s t : State} {i : Nat} {ok : Bool} (h : step s (.check i ok) = some t) :
    Effect s (.check i ok) t := by
  simp only [step] at h
  split at h
  · rename_i e hd
    split at h
    · rename_i hk
      cases h
      exact .keyless hd hk
    · rename_i hk
      split at h
      · split at h
        · cases h
          exact .check hd (.inr ⟨_, rfl⟩)
        · cases h
          exact .check hd (.inl rfl)
      · rename_i hok
        cases h
        refine .fail hd (by simp) ?_ id
        intro hc
        exact absurd (hc _ hd rfl (by simp [hk])) hok
  · contradiction

theorem create_effect {s t : State} {i : Nat} {id : String} {outcome : Outcome}
    (h : step s (.create i id outcome) = some t) : Effect s (.create i id outcome) t := by
  simp only [step] at h
  split at h
  · rename_i e hd
    split at h
    · rename_i hany
      cases h
      obtain ⟨x, hx, hid⟩ := List.any_eq_true.mp hany
      have hid : x.id = id := by simpa using hid
      refine .fail hd (by simp) ?_ ?_
      · intro hc
        exact absurd hid (hc.2 x hx)
      · intro hw
        exact hw.2 x hx hid
    · rename_i hnew
      have hf : ∀ x ∈ s.incidents, x.id ≠ id := by simpa using hnew
      split at h
      · cases h
        refine .fail hd (by simp) ?_ ?_
        · intro hc
          exact absurd hc.1 (by simp)
        · intro hw
          exact hw.1 rfl
      · cases h
        exact .create hd hf (by simp) (.inl rfl)
      · cases h
        exact .create hd hf (by simp) (.inr rfl)
  · contradiction

theorem step_effect {s t : State} {a : Action} (h : step s a = some t) : Effect s a t := by
  cases a with
  | deliver e =>
    simp only [step] at h
    split at h
    · rename_i hall
      cases h
      refine .deliver ?_
      intro d hd heq
      have := List.all_eq_true.mp hall d hd
      simpa [heq] using this
    · contradiction
  | insert i outcome => exact insert_effect h
  | check i ok => exact check_effect h
  | link i outcome =>
    simp only [step] at h
    split at h
    · rename_i hd
      split at h
      · cases h
        exact .unlinked
      · cases h
        exact .link hd
    · contradiction
  | entry i outcome =>
    simp only [step] at h
    split at h
    · rename_i e incidentId hd
      split at h
      · cases h
        refine .fail hd (by simp) ?_ id
        intro hc
        exact absurd hc (by simp [Careful])
      · cases h
        exact .entry hd (.inl rfl)
      · cases h
        exact .entry hd (.inr rfl)
    · contradiction
  | create i id outcome => exact create_effect h
  | finish i ok =>
    simp only [step] at h
    split at h
    · rename_i e incidentId hd
      split at h
      · rename_i hok
        cases h
        subst hok
        exact .finish hd
      · cases h
        exact .fail hd (by simp) (fun _ => rfl) id
    · contradiction
  | crash i =>
    simp only [step] at h
    split at h
    · contradiction
    · contradiction
    · rename_i d hne hd
      cases h
      refine .fail hd ?_ (fun hc => hc d hd) id
      intro hdone
      exact hne d.envelope (by rw [← hdone])
  | operate kind tenantId userId note id =>
    simp only [step] at h
    split at h
    · cases h
      exact .operate s.operations not_false
    · split at h
      · split at h
        · cases h
          exact .operate _ not_false
        · cases h
          exact .operate s.operations not_false
      · cases h
        exact .operate s.operations not_false
  | commit i now outcome =>
    simp only [step] at h
    split at h
    · rename_i op hop
      split at h
      · cases h
        exact .operate _ (fun hw => hw rfl)
      · rename_i hne
        cases h
        exact .apply hne hop
    · contradiction

section
variable {s : State} {i j : Nat} {pc : DeliveryPc} {d d' : Delivery}

/-- Moving one delivery leaves the others where they are. -/
theorem setPc_at (hd : s.deliveries[i]? = some d) (h : (s.setPc i pc).deliveries[j]? = some d') :
    (j = i ∧ d' = { d with pc }) ∨ (j ≠ i ∧ s.deliveries[j]? = some d') := by
  simp only [State.setPc, List.getElem?_modify] at h
  by_cases hij : i = j
  · subst hij
    left
    simp only [hd, if_true, Option.map_eq_map, Option.map_some, Option.some.injEq] at h
    exact ⟨rfl, h.symm⟩
  · right
    simp only [hij, if_false, Option.map_eq_map, Option.map_id'] at h
    exact ⟨fun h => hij h.symm, h⟩

theorem setPc_at_self (hd : s.deliveries[i]? = some d) :
    (s.setPc i pc).deliveries[i]? = some { d with pc } := by
  simp [State.setPc, hd]

theorem setPc_at_other (hij : j ≠ i) :
    (s.setPc i pc).deliveries[j]? = s.deliveries[j]? := by
  simp [State.setPc, hij.symm]

end

end WaOps.Incidents
