import WaOps.Outbox.Effects

namespace WaOps.Outbox
open Lib.Runs Lib.Lists

/-- No row is handed over more than maxAttempts times, and one that has used its attempts up
is sent or failed once no tick works on it. -/
structure Bounded (cfg : Config) (s : State) : Prop where
  handed : ∀ id, s.handed.count id ≤ cfg.maxAttempts
  ended : ∀ r ∈ s.rows, 0 < r.attempts → cfg.maxAttempts ≤ r.attempts →
    (∀ t ∈ s.ticks, r.id ∉ t.ids) → r.status ≠ .pending

/-- A claim takes only rows with an attempt left, and no tick ends at the last attempt at a row
before it has written its verdict. -/
def Capped (cfg : Config) (s : State) (a : Action) : Prop :=
  (∀ c ∈ s.dropped a, c.attempts < cfg.maxAttempts) ∧
  match a with
  | .claim now locked => ∀ r ∈ s.picked cfg now locked, r.attempts < cfg.maxAttempts
  | _ => True

instance (cfg : Config) (s : State) (a : Action) : Decidable (Capped cfg s a) :=
  match a with
  | .claim .. | .append .. | .hand .. | .outcome .. | .markSent .. | .markFailed .. | .crash .. =>
    inferInstanceAs (Decidable (_ ∧ _))

/-- How often a row still stands in the batch of the tick. -/
def Tick.waiting (id : String) (t : Tick) : Nat :=
  t.rest.countP (fun c => c.id = id)

structure Spending (cfg : Config) (s : State) : Prop where
  unique : (s.rows.map OutboxEvent.id).Nodup
  known : ∀ id ∈ s.handed, id ∈ s.rows.map OutboxEvent.id
  held : ∀ t ∈ s.ticks, ∀ id ∈ t.ids, id ∈ s.rows.map OutboxEvent.id
  /-- Each attempt pays for handing the row over once. -/
  paid : ∀ r ∈ s.rows, s.handed.count r.id + (s.ticks.map (Tick.waiting r.id)).sum ≤ r.attempts
  capped : ∀ r ∈ s.rows, r.attempts ≤ cfg.maxAttempts
  last : ∀ r ∈ s.rows, r.status = .pending → 0 < r.attempts → cfg.maxAttempts ≤ r.attempts →
    ∃ t ∈ s.ticks, ∃ c ∈ t.holds, c.id = r.id ∧ cfg.maxAttempts ≤ c.attempts

variable {cfg : Config} {s : State} {i : Nat} {t t' : Tick} {row : Claimed}

theorem Spending.bounded (h : Spending cfg s) : Bounded cfg s := by
  constructor
  · intro id
    by_cases hid : id ∈ s.handed
    · obtain ⟨r, hr, rfl⟩ := List.mem_map.mp (h.known id hid)
      have hpaid := h.paid r hr
      have hcapped := h.capped r hr
      omega
    · simp [List.count_eq_zero_of_not_mem hid]
  · intro r hr hpos hmax hfree hpending
    obtain ⟨t, ht, c, hc, he, -⟩ := h.last r hr hpending hpos hmax
    exact hfree t ht (he ▸ List.mem_map_of_mem hc)

theorem waiting_of_not_mem {id : String} (h : id ∉ t.ids) : t.waiting id = 0 := by
  simp only [Tick.waiting, List.countP_eq_zero, decide_eq_true_eq]
  rintro c hc rfl
  apply h
  simp only [Tick.ids, Tick.holds, Tick.unaccepted]
  exact List.mem_map_of_mem (by simp [hc])

/-- A tick lets go of rows or hands some over, and keeps those it works on for the last time
while they are pending. -/
theorem Spending.move (h : Spending cfg s) (ht : s.ticks[i]? = some t)
    (hholds : t'.holds.Subperm t.holds) {handed published : List String}
    (hnew : ∀ id ∈ handed, id ∈ s.handed ∨ id ∈ t.ids)
    (hpaid : ∀ id, handed.count id + t'.waiting id ≤ s.handed.count id + t.waiting id)
    (hlast : ∀ c ∈ t.holds, cfg.maxAttempts ≤ c.attempts → c ∈ t'.holds ∨
      ∀ r ∈ s.rows, r.id = c.id → r.status ≠ .pending) :
    Spending cfg { s.setTick i t' with handed, published } := by
  have hmem := List.mem_of_getElem? ht
  refine ⟨h.unique, ?_, ?_, ?_, h.capped, ?_⟩
  · intro id hid
    rcases hnew id hid with hid | hid
    · exact h.known id hid
    · exact h.held t hmem id hid
  · intro u hu id hid
    rcases mem_set_cases hu with rfl | hu
    · exact h.held t hmem id (List.map_subset _ hholds.subset hid)
    · exact h.held u hu id hid
  · intro r hr
    have hsum := sum_map_set (Tick.waiting r.id) ht t'
    have hroom := h.paid r hr
    have hid := hpaid r.id
    simp only [State.setTick]
    omega
  · intro r hr hpending hpos hmax
    obtain ⟨u, hu, c, hc, he, hca⟩ := h.last r hr hpending hpos hmax
    obtain ⟨j, hj⟩ := List.getElem?_of_mem hu
    have hi : i < s.ticks.length := (List.getElem?_eq_some_iff.mp ht).1
    by_cases hij : j = i
    · subst hij
      cases ht.symm.trans hj
      rcases hlast c hc hca with hc | hc
      · exact ⟨t', List.mem_set hi t', c, hc, he, hca⟩
      · exact absurd hpending (hc r hr he.symm)
    · have hkept : (s.ticks.set i t')[j]? = some u := by
        rw [List.getElem?_set_ne (Ne.symm hij)]
        exact hj
      exact ⟨u, List.mem_of_getElem? hkept, c, hc, he, hca⟩

/-- A tick that lets go of rows without handing any over. -/
theorem Spending.shift (h : Spending cfg s) (ht : s.ticks[i]? = some t)
    (hholds : t'.holds.Subperm t.holds) (hrest : t'.rest.Sublist t.rest)
    (hlast : ∀ c ∈ t.holds, cfg.maxAttempts ≤ c.attempts → c ∈ t'.holds ∨
      ∀ r ∈ s.rows, r.id = c.id → r.status ≠ .pending) (published : List String) :
    Spending cfg { s.setTick i t' with published } := by
  refine h.move ht hholds (fun _ hid => .inl hid) ?_ hlast
  intro id
  exact Nat.add_le_add_left (hrest.countP_le) _

theorem Spending.hand (h : Spending cfg s) {j : Nat} (ht : s.ticks[i]? = some t)
    (hr : t.rest[j]? = some row) (hp : t.phase = .ready) :
    Spending cfg { s.setTick i (t.hand j row) with handed := s.handed ++ [row.id] } := by
  have hperm := hand_holds hr hp
  refine h.move ht hperm.subperm ?_ ?_ ?_
  · intro id hid
    rcases List.mem_append.mp hid with hid | hid
    · exact .inl hid
    · rw [List.mem_singleton.mp hid]
      refine .inr (List.mem_map_of_mem (hperm.subset ?_))
      simp [Tick.holds, Tick.unaccepted, Tick.hand, Phase.row]
  · intro id
    have hcount := (eraseIdx_perm hr).countP_eq (fun c => c.id = id)
    simp only [Tick.waiting, Tick.hand, List.count_append, List.count_singleton, List.countP_cons,
      decide_eq_true_eq, beq_iff_eq] at hcount ⊢
    omega
  · exact fun c hc _ => .inl (hperm.symm.subset hc)

/-- A verdict takes rows out of the queue. -/
theorem Spending.mark (h : Spending cfg s) (rows : List Claimed) {v : Status} (hv : v ≠ .pending)
    (sentAt : Option Int) : Spending cfg (s.mark rows v sentAt) := by
  refine ⟨?_, ?_, ?_, ?_, ?_, ?_⟩
  · rw [mark_ids]
    exact h.unique
  · rw [mark_ids]
    exact h.known
  · rw [mark_ids]
    exact h.held
  · intro r' hr'
    obtain ⟨r, hr, ⟨-, rfl⟩ | ⟨-, rfl⟩⟩ := mem_updateRows hr'
    · exact h.paid r hr
    · exact h.paid r' hr
  · intro r' hr'
    obtain ⟨r, hr, ⟨-, rfl⟩ | ⟨-, rfl⟩⟩ := mem_updateRows hr'
    · exact h.capped r hr
    · exact h.capped r' hr
  · intro r' hr' hpending
    obtain ⟨r, hr, ⟨-, rfl⟩ | ⟨-, rfl⟩⟩ := mem_updateRows hr'
    · exact absurd hpending hv
    · exact h.last r' hr hpending

theorem mark_not_pending {rows : List Claimed} {v : Status} (hv : v ≠ .pending)
    {sentAt : Option Int} {c : Claimed} (hc : c ∈ rows) :
    ∀ r ∈ (s.mark rows v sentAt).rows, r.id = c.id → r.status ≠ .pending := by
  intro r' hr' he
  obtain ⟨r, hr, ⟨-, rfl⟩ | ⟨hid, rfl⟩⟩ := mem_updateRows hr'
  · exact hv
  · exact absurd (List.mem_map.mpr ⟨c, hc, he.symm⟩) hid

theorem Spending.append (h : Spending cfg s) {r : OutboxEvent} (hfresh : ∀ r' ∈ s.rows, r'.id ≠ r.id)
    (hr : r.attempts = 0) : Spending cfg { s with rows := s.rows ++ [r] } := by
  have hnone := fresh_not_mem hfresh
  refine ⟨?_, ?_, ?_, ?_, ?_, ?_⟩
  · exact append_nodup h.unique hnone
  · intro id hid
    rw [List.map_append]
    exact List.mem_append_left _ (h.known id hid)
  · intro t ht id hid
    rw [List.map_append]
    exact List.mem_append_left _ (h.held t ht id hid)
  · intro r' hr'
    rcases List.mem_append.mp hr' with hr' | hr'
    · exact h.paid r' hr'
    · cases List.mem_singleton.mp hr'
      have hcount : s.handed.count r.id = 0 :=
        List.count_eq_zero_of_not_mem (fun hm => hnone (h.known _ hm))
      have hsum : (s.ticks.map (Tick.waiting r.id)).sum = 0 := by
        rw [List.sum_eq_zero_iff_forall_eq_nat]
        intro n hn
        obtain ⟨t, ht, rfl⟩ := List.mem_map.mp hn
        exact waiting_of_not_mem (fun hm => hnone (h.held t ht _ hm))
      change s.handed.count r.id + (s.ticks.map (Tick.waiting r.id)).sum ≤ r.attempts
      omega
  · intro r' hr'
    rcases List.mem_append.mp hr' with hr' | hr'
    · exact h.capped r' hr'
    · cases List.mem_singleton.mp hr'
      omega
  · intro r' hr' hpending hpos
    rcases List.mem_append.mp hr' with hr' | hr'
    · exact h.last r' hr' hpending hpos
    · cases List.mem_singleton.mp hr'
      omega

theorem claimed_waiting {rows : List OutboxEvent} (hn : (rows.map OutboxEvent.id).Nodup)
    (id : String) : Tick.waiting id { rest := rows.map OutboxEvent.claimed } =
      if id ∈ rows.map OutboxEvent.id then 1 else 0 := by
  have hcount := hn.count (a := id)
  rw [← hcount, List.count, List.countP_map, Tick.waiting, List.countP_map]
  apply List.countP_congr
  intro r _
  simp only [Function.comp_apply, OutboxEvent.claimed, beq_iff_eq]
  exact decide_eq_true_iff

theorem Spending.claim (h : Spending cfg s) {now : Int} {locked : List String}
    (hc : ∀ r ∈ s.picked cfg now locked, r.attempts < cfg.maxAttempts) :
    Spending cfg (s.claim cfg now locked) := by
  have hpicked : ∀ r ∈ s.rows, r.id ∈ (s.picked cfg now locked).map OutboxEvent.id →
      r ∈ s.picked cfg now locked := by
    intro r hr hm
    obtain ⟨r', hr', he⟩ := List.mem_map.mp hm
    rwa [List.inj_on_of_nodup_map h.unique (mem_picked hr').1 hr he] at hr'
  refine ⟨?_, ?_, ?_, ?_, ?_, ?_⟩
  · rw [claim_ids]
    exact h.unique
  · rw [claim_ids]
    exact h.known
  · rw [claim_ids]
    intro t ht id hid
    rcases List.mem_append.mp ht with ht | ht
    · exact h.held t ht id hid
    · rw [List.mem_singleton.mp ht, claimed_ids] at hid
      obtain ⟨r, hr, rfl⟩ := List.mem_map.mp hid
      exact List.mem_map_of_mem (mem_picked hr).1
  · intro r' hr'
    obtain ⟨r, hr, ⟨hid, rfl⟩ | ⟨hid, rfl⟩⟩ := mem_updateRows hr'
    · have hpaid := h.paid r hr
      simp only [State.claim, List.map_append, List.sum_append, List.map_cons, List.map_nil,
        List.sum_singleton, claimed_waiting (picked_nodup h.unique), if_pos hid]
      omega
    · have hpaid := h.paid r' hr
      simp only [State.claim, List.map_append, List.sum_append, List.map_cons, List.map_nil,
        List.sum_singleton, claimed_waiting (picked_nodup h.unique), if_neg hid]
      omega
  · intro r' hr'
    obtain ⟨r, hr, ⟨hid, rfl⟩ | ⟨hid, rfl⟩⟩ := mem_updateRows hr'
    · exact hc r (hpicked r hr hid)
    · exact h.capped r' hr
  · intro r' hr' hpending hpos hmax
    obtain ⟨r, hr, ⟨hid, rfl⟩ | ⟨hid, rfl⟩⟩ := mem_updateRows hr'
    · refine ⟨_, List.mem_append_right _ List.mem_cons_self, r.claimed, ?_, rfl, hmax⟩
      rw [claimed_holds]
      exact List.mem_map_of_mem (hpicked r hr hid)
    · obtain ⟨t, ht, hhold⟩ := h.last r' hr hpending hpos hmax
      exact ⟨t, List.mem_append_left _ ht, hhold⟩

/-- What a refusal lets go of has an attempt left. -/
theorem refuse_kept (hp : t.phase = .publishing row) {c : Claimed} (hc : c ∈ t.holds)
    (hlast : cfg.maxAttempts ≤ c.attempts) : c ∈ (t.settle cfg row false).holds := by
  simp only [Tick.holds, Tick.unaccepted, Phase.row, hp] at hc
  simp only [Tick.settle, Bool.false_eq_true, if_false]
  split
  · simp only [Tick.holds, Tick.unaccepted, Phase.row]
    simp only [List.mem_append, List.mem_singleton] at hc ⊢
    tauto
  · rename_i hleft
    simp only [Tick.holds, Tick.unaccepted, Phase.row]
    simp only [List.mem_append, List.mem_singleton] at hc ⊢
    rcases hc with ((rfl | hc) | hc) | hc
    · exact absurd hlast hleft
    · simp [hc]
    · simp [hc]
    · simp [hc]

/-- A tick that ends has nothing left that it works on for the last time. -/
theorem Spending.die (h : Spending cfg s) (ht : s.ticks[i]? = some t)
    (hlast : ∀ c ∈ t.holds, cfg.maxAttempts ≤ c.attempts →
      ∀ r ∈ s.rows, r.id = c.id → r.status ≠ .pending) : Spending cfg (s.setTick i .dead) :=
  h.shift ht dead_holds (List.nil_sublist _) (fun c hc hmax => .inr (hlast c hc hmax)) s.published

theorem step_spending {a : Action} {s' : State} (h : Spending cfg s) (hc : Capped cfg s a)
    (hstep : step cfg s a = some s') : Spending cfg s' := by
  cases step_effect hstep with
  | append fresh => exact h.append fresh rfl
  | claim => exact h.claim hc.2
  | hand ht hr hp => exact h.hand ht hr hp
  | accept ht hp =>
    refine h.shift ht (accept_holds hp).subperm (List.Sublist.refl _) ?_ _
    intro c hm _
    exact .inl ((accept_holds hp).symm.subset hm)
  | refuse ht hp =>
    refine h.shift ht (refuse_holds hp) ?_
      (fun c hm hlast => .inl (refuse_kept hp hm hlast)) s.published
    simp only [Tick.settle, Bool.false_eq_true, if_false]
    split <;> exact List.Sublist.refl _
  | die ht hd =>
    refine h.die ht ?_
    intro c hm hlast
    have hleft := hc.1 c (hd ▸ hm)
    omega
  | @sent _ t t' now _ ht hp hr ht' =>
    have hmark := h.mark t.sent (v := .sent) (by simp) (some now)
    rcases ht' with rfl | ⟨rfl, hd⟩
    · refine hmark.shift ht clear_holds (List.Sublist.refl _) ?_ s.published
      intro c hm _
      rcases List.mem_append.mp hm with hm | hm
      · exact .inl (List.mem_append_left _ hm)
      · exact .inr (mark_not_pending (by simp) hm)
    · refine hmark.die ht ?_
      intro c hm hlast
      rcases List.mem_append.mp hm with hm | hm
      · have hleft := hc.1 c (hd ▸ hm)
        omega
      · exact mark_not_pending (by simp) hm
  | @failed _ t _ ht hp hr hs =>
    have hmark := h.mark t.failed (v := .failed) (by simp) none
    refine hmark.die ht ?_
    intro c hm _
    apply mark_not_pending (by simp)
    simpa [Tick.holds, Tick.unaccepted, Phase.row, hp, hr, hs] using hm

theorem bounded_of_capped (cfg : Config) (as : List Action)
    (hm : Meets (step cfg) (Capped cfg) {} as) : Always (step cfg) (Bounded cfg) {} as := by
  have hinit : Spending cfg {} := by
    refine ⟨?_, ?_, ?_, ?_, ?_, ?_⟩
    all_goals simp
  have h : Always (step cfg) (Spending cfg) {} as :=
    always_of_meets (fun s a s' h hc hstep => step_spending h hc hstep) hinit hm
  exact h.mono (fun s h => h.bounded)

/-- A row whose first tick crashes is given up after the second. -/
theorem crashed_once_bounded : Always (step { maxAttempts := 2 }) (Bounded { maxAttempts := 2 }) {}
    [.append "r" "e" "t" "body" 0, .claim 1 [], .hand 0 0, .crash 0, .claim 2 [],
      .hand 1 0, .outcome 1 false, .markFailed 1 .committed, .claim 3 []] :=
  bounded_of_capped _ _ (by decide)

/-- A tick that dies between its publish and its verdict. -/
def crashed (i : Nat) : List Action :=
  [.claim 1 [], .hand i 0, .crash i]

/-- With every tick dying before its verdict the row is handed over an eleventh time. -/
theorem crashed_unbounded : ¬ ∀ as : List Action, Always (step {}) (Bounded {}) {} as := by
  intro h
  have hrun : ∃ t ∈ exec (step {}) {} (.append "r" "e" "t" "body" 0 ::
      (List.range 11).flatMap crashed), t.handed.count "r" = 11 := by
    decide
  obtain ⟨t, ht, hcount⟩ := hrun
  have hle := (h _).last ht |>.handed "r"
  rw [hcount] at hle
  contradiction

end WaOps.Outbox
