import WaOps.Outbox.Effects

namespace WaOps.Outbox
open Lib.Runs Lib.Lists

/-- A verdict once written stays, a row is sent only if a publish of it succeeded and failed
only if none did. -/
structure Settled (s : State) : Prop where
  final : ∀ r ∈ s.rows, ∀ v, (r.id, v) ∈ s.verdicts → r.status = v
  written : ∀ r ∈ s.rows, r.status ≠ .pending → (r.id, r.status) ∈ s.verdicts
  sent : ∀ id, (id, .sent) ∈ s.verdicts → id ∈ s.published
  failed : ∀ id, (id, .failed) ∈ s.verdicts → id ∉ s.published

/-- A claim takes a row for its last attempt only while no tick holds it and no tick has
published it before. -/
def LastAlone (cfg : Config) (s : State) : Action → Prop
  | .claim now locked => ∀ r ∈ s.picked cfg now locked, cfg.maxAttempts ≤ r.attempts + 1 →
      r.id ∉ s.published ∧ ∀ t ∈ s.ticks, r.id ∉ t.ids
  | _ => True

instance (cfg : Config) (s : State) : ∀ a, Decidable (LastAlone cfg s a)
  | .claim now locked => inferInstanceAs (Decidable (∀ r ∈ s.picked cfg now locked,
      cfg.maxAttempts ≤ r.attempts + 1 → r.id ∉ s.published ∧ ∀ t ∈ s.ticks, r.id ∉ t.ids))
  | .append .. | .hand .. | .outcome .. | .markSent .. | .markFailed .. | .crash .. =>
    isTrue trivial

structure Inv (cfg : Config) (s : State) : Prop extends Settled s where
  decided : ∀ id, (id, .pending) ∉ s.verdicts
  unique : (s.rows.map OutboxEvent.id).Nodup
  known : ∀ id, id ∈ s.published ∨ (∃ v, (id, v) ∈ s.verdicts) → id ∈ s.rows.map OutboxEvent.id
  counted : ∀ t ∈ s.ticks, ∀ c ∈ t.holds, ∃ r ∈ s.rows, r.id = c.id ∧ c.attempts ≤ r.attempts
  distinct : ∀ t ∈ s.ticks, t.ids.Nodup
  accepted : ∀ t ∈ s.ticks, ∀ c ∈ t.sent, c.id ∈ s.published
  refused : ∀ t ∈ s.ticks, ∀ c ∈ t.failed, cfg.maxAttempts ≤ c.attempts
  /-- A tick at the last attempt at a row has it to itself. -/
  lone : ∀ (i : Nat) (t : Tick), s.ticks[i]? = some t → ∀ c ∈ t.unaccepted,
    cfg.maxAttempts ≤ c.attempts → c.id ∉ s.published ∧
      ∀ (j : Nat) (u : Tick), s.ticks[j]? = some u → j ≠ i → c.id ∉ u.ids
  closed : ∀ id, (id, .failed) ∈ s.verdicts → ∀ t ∈ s.ticks, id ∉ t.ids

section
variable {cfg : Config} {s : State} {i : Nat} {t t' : Tick} {row : Claimed}

theorem unaccepted_holds {c : Claimed} (h : c ∈ t.unaccepted) : c ∈ t.holds :=
  List.mem_append_left _ h

theorem ids_of_subperm (h : t'.holds.Subperm t.holds) {id : String} (hid : id ∈ t'.ids) :
    id ∈ t.ids :=
  List.map_subset _ h.subset hid

theorem set_ids (ht : s.ticks[i]? = some t) (hholds : t'.holds.Subperm t.holds) {k : Nat}
    {v : Tick} (hv : (s.ticks.set i t')[k]? = some v) :
    ∃ w, s.ticks[k]? = some w ∧ ∀ id ∈ v.ids, id ∈ w.ids := by
  rcases getElem?_set_cases hv with ⟨rfl, rfl⟩ | ⟨-, hv⟩
  · exact ⟨t, ht, fun id => ids_of_subperm hholds⟩
  · exact ⟨v, hv, fun _ hid => hid⟩

/-- A tick at its last attempt at a row stays alone with it while another tick moves. -/
theorem Inv.move_lone (h : Inv cfg s) (ht : s.ticks[i]? = some t)
    (hholds : t'.holds.Subperm t.holds) (hopen : t'.unaccepted ⊆ t.unaccepted)
    {published : List String} (hnew : ∀ id ∈ published, id ∈ s.published ∨
      id ∈ t.ids ∧ id ∉ t'.unaccepted.map Claimed.id) (j : Nat) (u : Tick)
    (hu : (s.ticks.set i t')[j]? = some u) (c : Claimed) (hc : c ∈ u.unaccepted)
    (hlast : cfg.maxAttempts ≤ c.attempts) : c.id ∉ published ∧
      ∀ (k : Nat) (v : Tick), (s.ticks.set i t')[k]? = some v → k ≠ j → c.id ∉ v.ids := by
  have hother : ∀ w, s.ticks[j]? = some w → c ∈ w.unaccepted →
      ∀ (k : Nat) (v : Tick), (s.ticks.set i t')[k]? = some v → k ≠ j → c.id ∉ v.ids := by
    intro w hw hcw k v hv hk hid
    obtain ⟨x, hx, hsub⟩ := set_ids ht hholds hv
    exact (h.lone j w hw c hcw hlast).2 k x hx hk (hsub _ hid)
  obtain ⟨rfl, rfl⟩ | ⟨hj, hu⟩ := getElem?_set_cases hu
  · refine ⟨?_, hother t ht (hopen hc)⟩
    intro hm
    obtain hm | ⟨-, hm⟩ := hnew _ hm
    · exact (h.lone j t ht c (hopen hc) hlast).1 hm
    · exact hm (List.mem_map_of_mem hc)
  · refine ⟨?_, hother u hu hc⟩
    intro hm
    obtain ⟨hpub, hlone⟩ := h.lone j u hu c hc hlast
    obtain hm | ⟨hm, -⟩ := hnew _ hm
    · exact hpub hm
    · exact hlone i t ht (Ne.symm hj) hm

/-- A tick lets go of rows or moves them within itself; the publisher may accept some that the
tick then no longer counts as open. -/
theorem Inv.move (h : Inv cfg s) (ht : s.ticks[i]? = some t) (hholds : t'.holds.Subperm t.holds)
    (hopen : t'.unaccepted ⊆ t.unaccepted)
    (hfailed : ∀ c ∈ t'.failed, cfg.maxAttempts ≤ c.attempts) {handed published : List String}
    (hgrow : s.published ⊆ published)
    (hnew : ∀ id ∈ published, id ∈ s.published ∨
      id ∈ t.ids ∧ id ∉ t'.unaccepted.map Claimed.id)
    (hsent : ∀ c ∈ t'.sent, c.id ∈ published) :
    Inv cfg { s.setTick i t' with handed, published } := by
  have hmem := List.mem_of_getElem? ht
  refine ⟨⟨h.final, h.written, ?_, ?_⟩, h.decided, h.unique, ?_, ?_, ?_, ?_, ?_, ?_, ?_⟩
  · exact fun id hid => hgrow (h.sent id hid)
  · intro id hid hpub
    rcases hnew id hpub with hpub | ⟨hheld, -⟩
    · exact h.failed id hid hpub
    · exact h.closed id hid t hmem hheld
  · rintro id (hpub | hv)
    · rcases hnew id hpub with hpub | ⟨hheld, -⟩
      · exact h.known id (.inl hpub)
      · obtain ⟨c, hc, rfl⟩ := List.mem_map.mp hheld
        obtain ⟨r, hr, he, -⟩ := h.counted t hmem c hc
        exact List.mem_map.mpr ⟨r, hr, he⟩
    · exact h.known id (.inr hv)
  · intro u hu c hc
    rcases mem_set_cases hu with rfl | hu
    · exact h.counted t hmem c (hholds.subset hc)
    · exact h.counted u hu c hc
  · intro u hu
    rcases mem_set_cases hu with rfl | hu
    · exact nodup_map_of_subperm hholds (h.distinct t hmem)
    · exact h.distinct u hu
  · intro u hu c hc
    rcases mem_set_cases hu with rfl | hu
    · exact hsent c hc
    · exact hgrow (h.accepted u hu c hc)
  · intro u hu c hc
    rcases mem_set_cases hu with rfl | hu
    · exact hfailed c hc
    · exact h.refused u hu c hc
  · exact h.move_lone ht hholds hopen hnew
  · intro id hid u hu
    rcases mem_set_cases hu with rfl | hu
    · exact fun hm => h.closed id hid t hmem (ids_of_subperm hholds hm)
    · exact h.closed id hid u hu

/-- A tick lets go of rows, or moves them within itself. -/
theorem Inv.shift (h : Inv cfg s) (ht : s.ticks[i]? = some t) (hholds : t'.holds.Subperm t.holds)
    (hopen : t'.unaccepted ⊆ t.unaccepted) (hsent : t'.sent ⊆ t.sent)
    (hfailed : ∀ c ∈ t'.failed, cfg.maxAttempts ≤ c.attempts) (handed : List String) :
    Inv cfg { s.setTick i t' with handed } :=
  h.move ht hholds hopen hfailed (List.Subset.refl _) (fun _ hid => .inl hid)
    (fun c hc => h.accepted t (List.mem_of_getElem? ht) c (hsent hc))

theorem Inv.accept (h : Inv cfg s) (ht : s.ticks[i]? = some t) (hp : t.phase = .publishing row) :
    Inv cfg { s.setTick i (t.settle cfg row true) with published := s.published ++ [row.id] } := by
  have hmem := List.mem_of_getElem? ht
  have hun : t.unaccepted = row :: (t.settle cfg row true).unaccepted := accept_unaccepted hp
  have hd := h.distinct t hmem
  unfold Tick.ids Tick.holds at hd
  rw [hun, List.cons_append, List.map_cons, List.nodup_cons, List.map_append] at hd
  refine h.move ht (accept_holds hp).subperm ?_ (h.refused t hmem)
    (List.subset_append_left _ _) ?_ ?_
  · rw [hun]
    exact List.subset_cons_self _ _
  · intro id hid
    rcases List.mem_append.mp hid with hid | hid
    · exact .inl hid
    · rw [List.mem_singleton.mp hid]
      refine .inr ⟨List.mem_map_of_mem (unaccepted_holds ?_), ?_⟩
      · rw [hun]
        exact List.mem_cons_self
      · exact fun hm => hd.1 (List.mem_append_left _ hm)
  · intro c hc
    simp only [Tick.settle, if_true, List.mem_append, List.mem_singleton] at hc
    rcases hc with hc | rfl
    · exact List.mem_append_left _ (h.accepted t hmem c hc)
    · exact List.mem_append_right _ List.mem_cons_self

theorem mem_mark_verdicts {rows : List Claimed} {v w : Status} {sentAt : Option Int}
    {id : String} : (id, w) ∈ (s.mark rows v sentAt).verdicts ↔
      (id, w) ∈ s.verdicts ∨ w = v ∧ ∃ c ∈ rows, c.id = id := by
  simp only [State.mark, List.mem_append, List.map_map, List.mem_map, Function.comp_apply,
    Prod.mk.injEq]
  constructor
  · rintro (hm | ⟨c, hc, he, rfl⟩)
    · exact .inl hm
    · exact .inr ⟨rfl, c, hc, he⟩
  · rintro (hm | ⟨rfl, c, hc, he⟩)
    · exact .inl hm
    · exact .inr ⟨c, hc, he, rfl⟩

/-- A verdict on rows that no other verdict was written on. -/
theorem Inv.mark (h : Inv cfg s) {rows : List Claimed} {v : Status} (hv : v ≠ .pending)
    {sentAt : Option Int} (hknown : ∀ c ∈ rows, c.id ∈ s.rows.map OutboxEvent.id)
    (hsame : ∀ c ∈ rows, ∀ w, (c.id, w) ∈ s.verdicts → w = v)
    (hsent : v = .sent → ∀ c ∈ rows, c.id ∈ s.published)
    (hfailed : v = .failed → ∀ c ∈ rows, c.id ∉ s.published ∧ ∀ t ∈ s.ticks, c.id ∉ t.ids) :
    Inv cfg (s.mark rows v sentAt) := by
  refine ⟨⟨?_, ?_, ?_, ?_⟩, ?_, ?_, ?_, ?_, h.distinct, h.accepted, h.refused, h.lone, ?_⟩
  · intro r' hr' w hw
    obtain ⟨r, hr, ⟨hid, rfl⟩ | ⟨hid, rfl⟩⟩ := mem_updateRows hr'
    · obtain ⟨c, hc, he⟩ := List.mem_map.mp hid
      rcases mem_mark_verdicts.mp hw with hw | ⟨rfl, -⟩
      · exact (hsame c hc w (he ▸ hw)).symm
      · rfl
    · rcases mem_mark_verdicts.mp hw with hw | ⟨-, c, hc, he⟩
      · exact h.final r' hr w hw
      · exact absurd (List.mem_map.mpr ⟨c, hc, he⟩) hid
  · intro r' hr' hne
    obtain ⟨r, hr, ⟨hid, rfl⟩ | ⟨hid, rfl⟩⟩ := mem_updateRows hr'
    · obtain ⟨c, hc, he⟩ := List.mem_map.mp hid
      exact mem_mark_verdicts.mpr (.inr ⟨rfl, c, hc, he⟩)
    · exact mem_mark_verdicts.mpr (.inl (h.written r' hr hne))
  · intro id hid
    rcases mem_mark_verdicts.mp hid with hid | ⟨rfl, c, hc, rfl⟩
    · exact h.sent id hid
    · exact hsent rfl c hc
  · intro id hid
    rcases mem_mark_verdicts.mp hid with hid | ⟨rfl, c, hc, rfl⟩
    · exact h.failed id hid
    · exact (hfailed rfl c hc).1
  · intro id hid
    rcases mem_mark_verdicts.mp hid with hid | ⟨he, -⟩
    · exact h.decided id hid
    · exact hv he.symm
  · rw [mark_ids]
    exact h.unique
  · rintro id (hpub | ⟨w, hw⟩)
    · rw [mark_ids]
      exact h.known id (.inl hpub)
    · rw [mark_ids]
      rcases mem_mark_verdicts.mp hw with hw | ⟨-, c, hc, rfl⟩
      · exact h.known id (.inr ⟨w, hw⟩)
      · exact hknown c hc
  · intro t ht c hc
    obtain ⟨r, hr, he, hle⟩ := h.counted t ht c hc
    refine ⟨_, List.mem_map_of_mem hr, ?_, ?_⟩
    · split
      · exact he
      · exact he
    · split
      · exact hle
      · exact hle
  · intro id hid
    rcases mem_mark_verdicts.mp hid with hid | ⟨rfl, c, hc, rfl⟩
    · exact h.closed id hid
    · exact (hfailed rfl c hc).2

theorem Inv.append (h : Inv cfg s) {r : OutboxEvent} (hfresh : ∀ r' ∈ s.rows, r'.id ≠ r.id)
    (hr : r.status = .pending) : Inv cfg { s with rows := s.rows ++ [r] } := by
  have hnone := fresh_not_mem hfresh
  refine ⟨⟨?_, ?_, h.sent, h.failed⟩, h.decided, ?_, ?_, ?_, h.distinct, h.accepted, h.refused,
    h.lone, h.closed⟩
  · intro r' hr' v hv
    rcases List.mem_append.mp hr' with hr' | hr'
    · exact h.final r' hr' v hv
    · cases List.mem_singleton.mp hr'
      exact absurd (h.known _ (.inr ⟨v, hv⟩)) hnone
  · intro r' hr' hne
    rcases List.mem_append.mp hr' with hr' | hr'
    · exact h.written r' hr' hne
    · cases List.mem_singleton.mp hr'
      exact absurd hr hne
  · exact append_nodup h.unique hnone
  · intro id hid
    rw [List.map_append]
    exact List.mem_append_left _ (h.known id hid)
  · intro t ht c hc
    obtain ⟨r', hr', hle⟩ := h.counted t ht c hc
    exact ⟨r', List.mem_append_left _ hr', hle⟩

theorem mem_claim_ticks {now : Int} {locked : List String} (ht : t ∈ (s.claim cfg now locked).ticks) :
    t ∈ s.ticks ∨ t = { rest := (s.picked cfg now locked).map OutboxEvent.claimed } := by
  obtain ht | ht := List.mem_append.mp ht
  · exact .inl ht
  · exact .inr (List.mem_singleton.mp ht)

theorem mem_claim_rows {now : Int} {locked : List String} {r' : OutboxEvent}
    (hr' : r' ∈ (s.claim cfg now locked).rows) :
    ∃ r ∈ s.rows, r'.id = r.id ∧ r'.status = r.status := by
  obtain ⟨r, hr, ⟨-, rfl⟩ | ⟨-, rfl⟩⟩ := mem_updateRows hr'
  · exact ⟨r, hr, rfl, rfl⟩
  · exact ⟨r', hr, rfl, rfl⟩

/-- A claim counts the attempt in the row before it hands the row to its tick. -/
theorem Inv.claim_counted (h : Inv cfg s) {now : Int} {locked : List String}
    (ht : t ∈ (s.claim cfg now locked).ticks) {c : Claimed} (hc : c ∈ t.holds) :
    ∃ r ∈ (s.claim cfg now locked).rows, r.id = c.id ∧ c.attempts ≤ r.attempts := by
  obtain ht | rfl := mem_claim_ticks ht
  · obtain ⟨r, hr, he, hle⟩ := h.counted t ht c hc
    refine ⟨_, List.mem_map_of_mem hr, ?_, ?_⟩
    · split
      · exact he
      · exact he
    · split
      · exact Nat.le_succ_of_le hle
      · exact hle
  · rw [claimed_holds] at hc
    obtain ⟨r, hr, rfl⟩ := List.mem_map.mp hc
    refine ⟨_, List.mem_map_of_mem (mem_picked hr).1, ?_⟩
    rw [if_pos (List.mem_map_of_mem hr)]
    exact ⟨rfl, Nat.le_refl _⟩

/-- A claim does not take a row away from a tick at its last attempt at it. -/
theorem Inv.picked_other (h : Inv cfg s) {now : Int} {locked : List String}
    (hlast : LastAlone cfg s (.claim now locked)) (ht : t ∈ s.ticks) {c : Claimed}
    (hc : c ∈ t.unaccepted) (hmax : cfg.maxAttempts ≤ c.attempts) :
    c.id ∉ (s.picked cfg now locked).map OutboxEvent.id := by
  intro hm
  obtain ⟨r', hr', he'⟩ := List.mem_map.mp hm
  obtain ⟨r, hr, he, hle⟩ := h.counted t ht c (unaccepted_holds hc)
  have hsame : r' = r :=
    List.inj_on_of_nodup_map h.unique (mem_picked hr').1 hr (he'.trans he.symm)
  subst hsame
  have hnot := (hlast r' hr' (by omega)).2 t ht
  rw [he'] at hnot
  exact hnot (List.mem_map_of_mem (unaccepted_holds hc))

theorem Inv.claim_lone (h : Inv cfg s) {now : Int} {locked : List String}
    (hlast : LastAlone cfg s (.claim now locked)) (ht : (s.claim cfg now locked).ticks[i]? = some t)
    {c : Claimed} (hc : c ∈ t.unaccepted) (hmax : cfg.maxAttempts ≤ c.attempts) :
    c.id ∉ s.published ∧ ∀ (j : Nat) (u : Tick),
      (s.claim cfg now locked).ticks[j]? = some u → j ≠ i → c.id ∉ u.ids := by
  obtain ht | ⟨hi, rfl⟩ := getElem?_append_cases ht
  · obtain ⟨hpub, hlone⟩ := h.lone i t ht c hc hmax
    refine ⟨hpub, ?_⟩
    intro j u hu hj
    obtain hu | ⟨-, rfl⟩ := getElem?_append_cases hu
    · exact hlone j u hu hj
    · rw [claimed_ids]
      exact h.picked_other hlast (List.mem_of_getElem? ht) hc hmax
  · have hc' := unaccepted_holds hc
    rw [claimed_holds] at hc'
    obtain ⟨r, hr, rfl⟩ := List.mem_map.mp hc'
    obtain ⟨hpub, hnot⟩ := hlast r hr hmax
    refine ⟨hpub, ?_⟩
    intro j u hu hj
    obtain hu | ⟨hj', -⟩ := getElem?_append_cases hu
    · exact hnot u (List.mem_of_getElem? hu)
    · exact absurd (hj'.trans hi.symm) hj

/-- The rows of a claim that takes some for their last attempt. -/
theorem Inv.claim (h : Inv cfg s) {now : Int} {locked : List String}
    (hlast : LastAlone cfg s (.claim now locked)) : Inv cfg (s.claim cfg now locked) := by
  refine ⟨⟨?_, ?_, h.sent, h.failed⟩, h.decided, ?_, ?_, fun t ht c => h.claim_counted ht, ?_, ?_,
    ?_, fun i t ht c => h.claim_lone hlast ht, ?_⟩
  · intro r' hr' v hv
    obtain ⟨r, hr, hid, hstatus⟩ := mem_claim_rows hr'
    rw [hid] at hv
    rw [hstatus]
    exact h.final r hr v hv
  · intro r' hr' hne
    obtain ⟨r, hr, hid, hstatus⟩ := mem_claim_rows hr'
    rw [hstatus] at hne
    rw [hid, hstatus]
    exact h.written r hr hne
  · rw [claim_ids]
    exact h.unique
  · intro id hid
    rw [claim_ids]
    exact h.known id hid
  · intro t ht
    obtain ht | rfl := mem_claim_ticks ht
    · exact h.distinct t ht
    · rw [claimed_ids]
      exact picked_nodup h.unique
  · intro t ht
    obtain ht | rfl := mem_claim_ticks ht
    · exact h.accepted t ht
    · exact fun c hc => absurd hc List.not_mem_nil
  · intro t ht
    obtain ht | rfl := mem_claim_ticks ht
    · exact h.refused t ht
    · exact fun c hc => absurd hc List.not_mem_nil
  · intro id hid t ht
    obtain ht | rfl := mem_claim_ticks ht
    · exact h.closed id hid t ht
    · rw [claimed_ids]
      intro hm
      obtain ⟨r, hr, rfl⟩ := List.mem_map.mp hm
      obtain ⟨hmem, hpending⟩ := mem_picked hr
      have hfinal := h.final r hmem _ hid
      rw [hpending] at hfinal
      cases hfinal

theorem Inv.die (h : Inv cfg s) (ht : s.ticks[i]? = some t) : Inv cfg (s.setTick i .dead) := by
  exact h.shift ht dead_holds (List.nil_subset _) (List.nil_subset _)
    (fun c hc => absurd hc List.not_mem_nil) s.handed

theorem Inv.known_held (h : Inv cfg s) (ht : s.ticks[i]? = some t) {c : Claimed}
    (hc : c ∈ t.holds) : c.id ∈ s.rows.map OutboxEvent.id := by
  obtain ⟨r, hr, he, -⟩ := h.counted t (List.mem_of_getElem? ht) c hc
  exact List.mem_map.mpr ⟨r, hr, he⟩

theorem Inv.markSent (h : Inv cfg s) (ht : s.ticks[i]? = some t) {sentAt : Option Int}
    (ht' : t' = { t with sent := [] } ∨ t' = .dead) :
    Inv cfg ((s.mark t.sent .sent sentAt).setTick i t') := by
  have hmem := List.mem_of_getElem? ht
  have hmark : Inv cfg (s.mark t.sent .sent sentAt) := by
    refine h.mark (by simp) ?_ ?_ (fun _ => h.accepted t hmem) (by simp)
    · exact fun c hc => h.known_held ht (List.mem_append_right _ hc)
    · intro c hc w hw
      cases w with
      | sent => rfl
      | pending => exact absurd hw (h.decided c.id)
      | failed =>
        exact absurd (List.mem_map_of_mem (List.mem_append_right _ hc)) (h.closed c.id hw t hmem)
  rcases ht' with rfl | rfl
  · exact hmark.shift ht clear_holds (List.Subset.refl _) (List.nil_subset _) (h.refused t hmem)
      s.handed
  · exact hmark.die ht

theorem Inv.markFailed (h : Inv cfg s) (ht : s.ticks[i]? = some t) {sentAt : Option Int} :
    Inv cfg ((s.mark t.failed .failed sentAt).setTick i .dead) := by
  have hmem := List.mem_of_getElem? ht
  have hlone : ∀ c ∈ t.failed, c.id ∉ s.published ∧
      ∀ (j : Nat) (u : Tick), s.ticks[j]? = some u → j ≠ i → c.id ∉ u.ids := fun c hc =>
    h.lone i t ht c (List.mem_append_right _ hc) (h.refused t hmem c hc)
  refine (h.die ht).mark (by simp) ?_ ?_ (by simp) ?_
  · exact fun c hc => h.known_held ht (unaccepted_holds (List.mem_append_right _ hc))
  · intro c hc w hw
    cases w with
    | failed => rfl
    | pending => exact absurd hw (h.decided c.id)
    | sent => exact absurd (h.toSettled.sent c.id hw) (hlone c hc).1
  · intro _ c hc
    refine ⟨(hlone c hc).1, ?_⟩
    intro u hu
    obtain ⟨j, hj⟩ := List.getElem?_of_mem hu
    rcases getElem?_set_cases hj with ⟨-, rfl⟩ | ⟨hne, hj⟩
    · exact List.not_mem_nil
    · exact (hlone c hc).2 j u hj hne

theorem step_verdicts {a : Action} {s' : State} (h : Inv cfg s) (hc : LastAlone cfg s a)
    (hstep : step cfg s a = some s') : Inv cfg s' := by
  cases step_effect hstep with
  | append fresh => exact h.append fresh rfl
  | claim => exact h.claim hc
  | hand ht hr hp =>
    have hfailed := h.refused _ (List.mem_of_getElem? ht)
    exact h.shift ht (hand_holds hr hp).subperm (hand_unaccepted hr hp).subset
      (List.Subset.refl _) hfailed _
  | accept ht hp => exact h.accept ht hp
  | refuse ht hp =>
    refine h.shift ht (refuse_holds hp) (refuse_unaccepted hp).subset ?_ ?_ s.handed
    · rw [refuse_sent]
      exact List.Subset.refl _
    · exact refuse_failed (h.refused _ (List.mem_of_getElem? ht))
  | die ht => exact h.die ht
  | sent ht hp hr ht' =>
    rcases ht' with ht' | ⟨ht', -⟩
    · exact h.markSent ht (.inl ht')
    · exact h.markSent ht (.inr ht')
  | failed ht => exact h.markFailed ht

end

theorem settled_of_last_alone (cfg : Config) (as : List Action)
    (hm : Meets (step cfg) (LastAlone cfg) {} as) : Always (step cfg) Settled {} as := by
  have hinit : Inv cfg {} := by
    refine ⟨⟨?_, ?_, ?_, ?_⟩, ?_, ?_, ?_, ?_, ?_, ?_, ?_, ?_, ?_⟩
    all_goals simp
  have h : Always (step cfg) (Inv cfg) {} as :=
    always_of_meets (fun s a s' h hc hstep => step_verdicts h hc hstep) hinit hm
  exact h.mono (fun s h => h.toSettled)

/-- A row refused by two ticks, one after the other, and given up by the second. -/
theorem refused_twice_settled : Always (step { maxAttempts := 2 }) Settled {}
    [.append "r" "e" "t" "body" 0, .claim 1 [], .hand 0 0, .outcome 0 false, .claim 2 [],
      .hand 1 0, .outcome 1 false, .markFailed 1 .committed] :=
  settled_of_last_alone _ _ (by decide)

/-- A failed attempt of one tick. -/
def refusal (i : Nat) : List Action :=
  [.claim 1 [], .hand i 0, .outcome i false]

/-- A tick that is still publishing is overtaken by one at the last attempt, which gives the row
up: the publish succeeds afterwards and the row turns from failed to sent. -/
theorem overtaken_verdict : ¬ ∀ as : List Action, Always (step {}) Settled {} as := by
  intro h
  have hrun : ∃ t ∈ exec (step {}) {} (.append "r" "e" "t" "body" 0 ::
      (refusal 0 ++ refusal 1 ++ refusal 2 ++ refusal 3 ++ refusal 4 ++ refusal 5 ++ refusal 6 ++
        refusal 7 ++ [.claim 1 [], .claim 1 [], .hand 8 0, .hand 9 0, .outcome 9 false,
          .markFailed 9 .committed, .outcome 8 true, .markSent 8 2 .committed])),
      ∃ r ∈ t.rows, (r.id, .failed) ∈ t.verdicts ∧ r.status = .sent := by
    decide
  obtain ⟨t, ht, r, hr, hfailed, hsent⟩ := hrun
  have hfinal := (h _).last ht |>.final r hr _ hfailed
  rw [hsent] at hfinal
  cases hfinal

end WaOps.Outbox
