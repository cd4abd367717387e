import Mathlib.Data.List.Sort

namespace Lib.Sorting

variable {α : Type} {f : α → Int} {l : List α} {x y : α} {p : α → Bool}

def orderAsc (f : α → Int) (l : List α) : List α :=
  l.insertionSort (fun a b => f a ≤ f b)

def orderDesc (f : α → Int) (l : List α) : List α :=
  l.insertionSort (fun a b => f b ≤ f a)

/-- An element with a smaller field, or with the same and earlier in the list. -/
def Precedes (f : α → Int) (l : List α) (x y : α) : Prop :=
  f x < f y ∨ f x = f y ∧ [x, y].Sublist l

theorem pair_sublist (hx : x ∈ l) (hy : y ∈ l) (hne : x ≠ y) :
    [x, y].Sublist l ∨ [y, x].Sublist l := by
  induction l with
  | nil => cases hx
  | cons a l ih =>
    rcases List.mem_cons.mp hx with rfl | hxl
    · rcases List.mem_cons.mp hy with rfl | hyl
      · exact absurd rfl hne
      · exact .inl ((List.singleton_sublist.mpr hyl).cons_cons x)
    · rcases List.mem_cons.mp hy with rfl | hyl
      · exact .inr ((List.singleton_sublist.mpr hxl).cons_cons y)
      · rcases ih hxl hyl with h | h
        · exact .inl (h.cons a)
        · exact .inr (h.cons a)

theorem pair_sublist_asymm (hn : l.Nodup) (hxy : [x, y].Sublist l) : ¬ [y, x].Sublist l := by
  intro hyx
  induction l with
  | nil => cases hxy
  | cons a l ih =>
    obtain ⟨ha, hn⟩ := List.nodup_cons.mp hn
    cases hxy with
    | cons _ hxy =>
      cases hyx with
      | cons _ hyx => exact ih hn hxy hyx
      | cons_cons _ hx => exact ha (hxy.subset (by simp))
    | cons_cons _ hy =>
      cases hyx with
      | cons _ hyx => exact ha (hyx.subset (by simp))
      | cons_cons _ hx => exact ha (List.singleton_sublist.mp hx)

theorem Precedes.asymm (hn : l.Nodup) (h : Precedes f l x y) : ¬ Precedes f l y x := by
  rintro (h' | ⟨h', hyx⟩)
  · rcases h with h | ⟨h, -⟩ <;> omega
  · rcases h with h | ⟨-, hxy⟩
    · omega
    · exact pair_sublist_asymm hn hxy hyx

/-- Elements that a filter keeps stand in the same order after it. -/
theorem precedes_filter (hx : p x) (hy : p y) :
    Precedes f (l.filter p) x y ↔ Precedes f l x y := by
  have hpair : [x, y].Sublist (l.filter p) ↔ [x, y].Sublist l := by
    constructor
    · intro h
      exact h.trans List.filter_sublist
    · intro h
      simpa [hx, hy] using h.filter p
  simp only [Precedes, hpair]

theorem mem_orderAsc : x ∈ orderAsc f l ↔ x ∈ l :=
  List.mem_insertionSort _

theorem mem_orderDesc : x ∈ orderDesc f l ↔ x ∈ l :=
  List.mem_insertionSort _

theorem nodup_orderAsc (hn : l.Nodup) : (orderAsc f l).Nodup :=
  (List.perm_insertionSort _ l).nodup_iff.mpr hn

/-- The first element of the sorted list precedes all others. -/
theorem head_precedes {t : List α} (hn : l.Nodup) (h : orderAsc f l = x :: t) (hy : y ∈ l)
    (hne : y ≠ x) : Precedes f l x y := by
  have hyt : y ∈ t := by
    have := (mem_orderAsc (f := f)).mpr hy
    rw [h] at this
    exact (List.mem_cons.mp this).resolve_left hne
  have hx : x ∈ l := mem_orderAsc.mp (h ▸ List.mem_cons_self)
  have hle : f x ≤ f y := by
    have hs : (orderAsc f l).Pairwise (fun a b => f a ≤ f b) := List.pairwise_insertionSort _ l
    rw [h] at hs
    exact (List.pairwise_cons.mp hs).1 y hyt
  rcases Int.lt_or_eq_of_le hle with hlt | heq
  · exact .inl hlt
  · refine .inr ⟨heq, ?_⟩
    rcases pair_sublist hx hy hne.symm with hxy | hyx
    · exact hxy
    · -- The sort is stable, so y would have stayed before x.
      have hs : [y, x].Sublist (orderAsc f l) :=
        List.pair_sublist_insertionSort (by omega) hyx
      have hd := nodup_orderAsc (f := f) hn
      rw [h] at hs hd
      cases hs with
      | cons _ hs => exact absurd (hs.subset (by simp)) (List.nodup_cons.mp hd).1
      | cons_cons _ hs => exact absurd rfl hne

theorem take_one_of_precedes (hn : l.Nodup) (hx : x ∈ l)
    (h : ∀ y ∈ l, y ≠ x → Precedes f l x y) : (orderAsc f l).take 1 = [x] := by
  cases ho : orderAsc f l with
  | nil =>
    have := mem_orderAsc (f := f).mpr hx
    simp [ho] at this
  | cons a t =>
    have ha : a ∈ l := mem_orderAsc.mp (ho ▸ List.mem_cons_self)
    by_cases hax : a = x
    · simp [hax]
    · exact absurd (head_precedes hn ho hx (Ne.symm hax)) ((h a ha hax).asymm hn)

/-- The first element is the first that a condition keeps just when such an element precedes
each one that the condition drops. -/
theorem take_one_filter (hn : l.Nodup) :
    (orderAsc f l).take 1 = (orderAsc f (l.filter p)).take 1 ↔
      ∀ y ∈ l, ¬ p y → ∃ x ∈ l, p x ∧ Precedes f l x y := by
  cases ho : orderAsc f l with
  | nil =>
    have hl : l = [] := by
      have := (List.perm_insertionSort (fun a b => f a ≤ f b) l).length_eq
      exact List.length_eq_zero_iff.mp (this.symm.trans (congrArg List.length ho))
    simp [hl, orderAsc]
  | cons h t =>
    have hh : h ∈ l := mem_orderAsc.mp (ho ▸ List.mem_cons_self)
    simp only [List.take_succ_cons, List.take_zero]
    constructor
    · intro heq y hy hpy
      have hmem : h ∈ l.filter p := by
        have : h ∈ (orderAsc f (l.filter p)).take 1 := heq ▸ List.mem_singleton_self h
        exact mem_orderAsc.mp (List.mem_of_mem_take this)
      have hph := (List.mem_filter.mp hmem).2
      exact ⟨h, hh, hph, head_precedes hn ho hy (fun he => hpy (he ▸ hph))⟩
    · intro hall
      have hph : p h := by
        by_contra hph
        obtain ⟨x, hx, hpx, hprec⟩ := hall h hh hph
        exact hprec.asymm hn (head_precedes hn ho hx (fun he => hph (he ▸ hpx)))
      refine (take_one_of_precedes (hn.filter p) (List.mem_filter.mpr ⟨hh, hph⟩) ?_).symm
      intro y hy hne
      obtain ⟨hyl, hpy⟩ := List.mem_filter.mp hy
      exact (precedes_filter hph hpy).mpr (head_precedes hn ho hyl hne)

/-- Sorting by a field and then by a number. -/
theorem pairwise_lex {β : Type} [LinearOrder β] (f : α → β) (g : α → Int)
    [DecidableRel fun a b : α => f a < f b ∨ f a = f b ∧ g a ≤ g b] (l : List α) :
    (l.insertionSort (fun a b => f a < f b ∨ f a = f b ∧ g a ≤ g b)).Pairwise
      (fun a b => f a < f b ∨ f a = f b ∧ g a ≤ g b) := by
  have : Std.Total (fun a b : α => f a < f b ∨ f a = f b ∧ g a ≤ g b) := by
    constructor
    intro a b
    rcases lt_trichotomy (f a) (f b) with h | h | h
    · exact .inl (.inl h)
    · rcases le_total (g a) (g b) with hle | hle
      · exact .inl (.inr ⟨h, hle⟩)
      · exact .inr (.inr ⟨h.symm, hle⟩)
    · exact .inr (.inl h)
  have : IsTrans α (fun a b => f a < f b ∨ f a = f b ∧ g a ≤ g b) := by
    constructor
    rintro a b c (hab | ⟨hab, hab'⟩) hbc
    · rcases hbc with hbc | ⟨hbc, -⟩
      · exact .inl (hab.trans hbc)
      · exact .inl (hbc ▸ hab)
    · rcases hbc with hbc | ⟨hbc, hbc'⟩
      · exact .inl (hab ▸ hbc)
      · exact .inr ⟨hab.trans hbc, hab'.trans hbc'⟩
  exact List.pairwise_insertionSort _ _

end Lib.Sorting
