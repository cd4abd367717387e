import Mathlib.Algebra.Order.Ring.Nat
import Mathlib.Data.List.Nodup
import Mathlib.Data.List.Perm.Basic
import Mathlib.Data.List.Sort

namespace Lib.Thinning

variable {α : Type*}

/-- The elements at the positions that the step divides. -/
def every (step : ℕ) (l : List α) : List α :=
  (l.zipIdx.filter (fun p => p.2 % step = 0)).map Prod.fst

/-- Each element as often as its group is large. -/
def expand (size : α → ℕ) (groups : List α) : List α :=
  groups.flatMap fun a => List.replicate (size a) a

/-- How many elements the groups before a position have. -/
def before (size : α → ℕ) (groups : List α) (i : ℕ) : ℕ :=
  ((groups.take i).map size).sum

/-- The elements are those of the groups at a constant stride. -/
def AtStride (groups l : List α) : Prop :=
  ∃ stride, 1 ≤ stride ∧ ∀ j a, l[j]? = some a → groups[j * stride]? = some a

/-- Each multiple of the step falls into the group that is as many strides from the first. -/
def Aligned (size : α → ℕ) (groups : List α) (step : ℕ) : Prop :=
  ∃ stride, 1 ≤ stride ∧ ∀ j, j * step < before size groups groups.length →
    before size groups (j * stride) ≤ j * step ∧ j * step < before size groups (j * stride + 1)

variable {size : α → ℕ} {groups l : List α} {step i j m : ℕ} {a : α}

/-- Where the next position that is kept is `d` further on. -/
theorem getElem?_kept (hstep : 0 < step) {k d : ℕ} (hd : d < step) (hk : (k + d) % step = 0) :
    (((l.zipIdx k).filter (fun p => p.2 % step = 0)).map Prod.fst)[j]? = l[d + j * step]? := by
  induction l generalizing k d j with
  | nil => simp
  | cons a l ih =>
    rw [List.zipIdx_cons]
    by_cases hzero : d = 0
    · subst hzero
      rw [List.filter_cons_of_pos (by simpa using hk), List.map_cons]
      cases j with
      | zero => simp
      | succ j =>
        have hnext : (k + 1 + (step - 1)) % step = 0 := by
          rw [show k + 1 + (step - 1) = k + step by omega, Nat.add_mod_right]
          exact hk
        have hpos : 0 + (j + 1) * step = step - 1 + j * step + 1 := by
          rw [Nat.succ_mul]
          omega
        rw [List.getElem?_cons_succ, ih (by omega) hnext, hpos, List.getElem?_cons_succ]
    · have hskip : ¬ k % step = 0 := by
        intro hkept
        rw [Nat.add_mod, hkept, Nat.zero_add, Nat.mod_mod, Nat.mod_eq_of_lt hd] at hk
        exact hzero hk
      have hnext : (k + 1 + (d - 1)) % step = 0 := by
        rw [show k + 1 + (d - 1) = k + d by omega]
        exact hk
      have hpos : d + j * step = d - 1 + j * step + 1 := by omega
      rw [List.filter_cons_of_neg (by simpa using hskip), ih (by omega) hnext, hpos,
        List.getElem?_cons_succ]

theorem getElem?_every (hstep : 0 < step) : (every step l)[j]? = l[j * step]? := by
  have h := getElem?_kept (l := l) (j := j) (k := 0) (d := 0) hstep hstep (Nat.zero_mod step)
  rw [Nat.zero_add] at h
  exact h

theorem map_every {β : Type*} (f : α → β) : (every step l).map f = every step (l.map f) := by
  rw [every, every, List.zipIdx_map, List.filter_map, List.map_map, List.map_map]
  rfl

theorem length_every_le (hstep : 0 < step) (h : l.length ≤ m * step) :
    (every step l).length ≤ m := by
  by_contra hlong
  have hsome := List.getElem?_eq_getElem (not_le.mp hlong)
  rw [getElem?_every hstep, List.getElem?_eq_none h] at hsome
  cases hsome

@[simp] theorem before_zero : before size groups 0 = 0 := rfl

theorem before_cons_succ : before size (a :: groups) (i + 1) = size a + before size groups i := by
  simp [before]

theorem before_mono (h : i ≤ j) : before size groups i ≤ before size groups j := by
  induction groups generalizing i j with
  | nil => simp [before]
  | cons a groups ih =>
    cases i with
    | zero => exact Nat.zero_le _
    | succ i =>
      cases j with
      | zero => omega
      | succ j =>
        rw [before_cons_succ, before_cons_succ]
        exact Nat.add_le_add_left (ih (by omega)) _

theorem length_expand : (expand size groups).length = before size groups groups.length := by
  rw [before, List.take_length, expand, List.length_flatMap]
  simp

/-- An element belongs to the group into which its position falls. -/
theorem getElem?_expand : (expand size groups)[m]? = some a ↔
    ∃ i, groups[i]? = some a ∧ before size groups i ≤ m ∧ m < before size groups (i + 1) := by
  induction groups generalizing m with
  | nil => simp [expand]
  | cons b groups ih =>
    have hexpand : expand size (b :: groups) =
        List.replicate (size b) b ++ expand size groups := rfl
    rw [hexpand]
    by_cases hm : m < size b
    · rw [List.getElem?_append_left (by simpa using hm), List.getElem?_replicate_of_lt hm]
      constructor
      · intro hb
        exact ⟨0, hb, by simp, by simpa [before] using hm⟩
      · rintro ⟨i, hi, hlow, -⟩
        cases i with
        | zero => exact hi
        | succ i =>
          rw [before_cons_succ] at hlow
          omega
    · rw [List.getElem?_append_right (by simpa using hm), List.length_replicate, ih]
      constructor
      · rintro ⟨i, hi, hlow, hhigh⟩
        refine ⟨i + 1, hi, ?_, ?_⟩
        · rw [before_cons_succ]
          omega
        · rw [before_cons_succ]
          omega
      · rintro ⟨i, hi, hlow, hhigh⟩
        cases i with
        | zero =>
          rw [before_cons_succ, before_zero] at hhigh
          omega
        | succ i =>
          rw [before_cons_succ] at hlow hhigh
          exact ⟨i, hi, by omega, by omega⟩

/-- A position falls into one group only. -/
theorem group_unique (hi : before size groups i ≤ m) (hi' : m < before size groups (i + 1))
    (hj : before size groups j ≤ m) (hj' : m < before size groups (j + 1)) : i = j := by
  rcases lt_trichotomy i j with h | h | h
  · have hle : before size groups (i + 1) ≤ before size groups j := before_mono h
    omega
  · exact h
  · have hle : before size groups (j + 1) ≤ before size groups i := before_mono h
    omega

/-- What is kept of the groups lies at a constant stride exactly where the step is aligned with
their sizes. -/
theorem atStride_iff (hnodup : groups.Nodup) (hstep : 0 < step) :
    AtStride groups (every step (expand size groups)) ↔ Aligned size groups step := by
  constructor
  · rintro ⟨stride, hstride, hall⟩
    refine ⟨stride, hstride, ?_⟩
    intro j hj
    rw [← length_expand] at hj
    have hsome := List.getElem?_eq_getElem hj
    have hgroup := hall j _ ((getElem?_every hstep).trans hsome)
    obtain ⟨i, hi, hlow, hhigh⟩ := getElem?_expand.mp hsome
    have hlt : i < groups.length := (List.getElem?_eq_some_iff.mp hi).1
    obtain rfl : i = j * stride := (List.getElem?_inj hlt hnodup).mp (hi.trans hgroup.symm)
    exact ⟨hlow, hhigh⟩
  · rintro ⟨stride, hstride, hall⟩
    refine ⟨stride, hstride, ?_⟩
    intro j a ha
    rw [getElem?_every hstep] at ha
    have hj := (List.getElem?_eq_some_iff.mp ha).1
    rw [length_expand] at hj
    obtain ⟨hlow, hhigh⟩ := hall j hj
    obtain ⟨i, hi, hlow', hhigh'⟩ := getElem?_expand.mp ha
    rw [group_unique hlow hhigh hlow' hhigh']
    exact hi

/-- At a stride of at least one the elements of sorted groups increase. -/
theorem AtStride.increasing [LinearOrder α] (h : AtStride groups l)
    (hsorted : groups.Pairwise (· < ·)) : l.Pairwise (· < ·) := by
  obtain ⟨stride, hstride, hall⟩ := h
  rw [List.pairwise_iff_getElem]
  intro i j hi hj hij
  obtain ⟨hi', hgi⟩ := List.getElem?_eq_some_iff.mp (hall i _ (List.getElem?_eq_getElem hi))
  obtain ⟨hj', hgj⟩ := List.getElem?_eq_some_iff.mp (hall j _ (List.getElem?_eq_getElem hj))
  rw [← hgi, ← hgj]
  exact List.pairwise_iff_getElem.mp hsorted _ _ hi' hj'
    (Nat.mul_lt_mul_of_pos_right hij hstride)

theorem before_single (h : ∀ a ∈ groups, size a = 1) (hi : i ≤ groups.length) :
    before size groups i = i := by
  have hones : (groups.take i).map size = List.replicate i 1 := by
    rw [List.eq_replicate_iff]
    refine ⟨by simp [hi], ?_⟩
    intro n hn
    obtain ⟨a, ha, rfl⟩ := List.mem_map.mp hn
    exact h a (List.mem_of_mem_take ha)
  rw [before, hones]
  simp

/-- Groups of one element are thinned at the step itself. -/
theorem aligned_single (h : ∀ a ∈ groups, size a = 1) (hstep : 0 < step) :
    Aligned size groups step := by
  refine ⟨step, hstep, ?_⟩
  intro j hj
  rw [before_single h le_rfl] at hj
  rw [before_single h hj.le, before_single h hj]
  exact ⟨le_rfl, Nat.lt_succ_self _⟩

/-- Where nothing is left out, the groups have to be of one element. -/
theorem aligned_one_iff (hpos : ∀ a ∈ groups, 1 ≤ size a) :
    Aligned size groups 1 ↔ ∀ a ∈ groups, size a = 1 := by
  constructor
  · rintro ⟨stride, hstride, hall⟩ a ha
    by_contra hne
    have htwo : 2 ≤ size a := by
      have := hpos a ha
      omega
    obtain ⟨i, hi, rfl⟩ := List.getElem_of_mem ha
    have hsize : before size groups (i + 1) = before size groups i + size groups[i] := by
      rw [before, before, List.take_add_one, List.getElem?_eq_getElem hi, List.map_append,
        List.sum_append]
      simp only [Option.toList_some, List.map_singleton, List.sum_singleton]
    have htotal : before size groups (i + 1) ≤ before size groups groups.length := before_mono hi
    -- Two positions of one group would be a stride apart.
    have hfirst := hall (before size groups i) (by omega)
    have hsecond := hall (before size groups i + 1) (by omega)
    rw [Nat.mul_one] at hfirst hsecond
    have hi₁ : i = before size groups i * stride :=
      group_unique (m := before size groups i) le_rfl (by omega) hfirst.1 hfirst.2
    have hi₂ : i = (before size groups i + 1) * stride :=
      group_unique (m := before size groups i + 1) (by omega) (by omega) hsecond.1 hsecond.2
    rw [Nat.succ_mul] at hi₂
    omega
  · intro h
    exact aligned_single h Nat.one_pos

section
variable [LinearOrder α]

theorem count_expand (hnodup : groups.Nodup) (a : α) :
    (expand size groups).count a = if a ∈ groups then size a else 0 := by
  induction groups with
  | nil => simp [expand]
  | cons b groups ih =>
    obtain ⟨hb, htail⟩ := List.nodup_cons.mp hnodup
    have hexpand : expand size (b :: groups) =
        List.replicate (size b) b ++ expand size groups := rfl
    rw [hexpand, List.count_append, ih htail, List.count_replicate]
    by_cases hab : a = b
    · subst hab
      simp [hb]
    · simp [hab, Ne.symm hab]

theorem expand_sorted (hsorted : groups.Pairwise (· < ·)) :
    (expand size groups).Pairwise (· ≤ ·) := by
  rw [expand, List.pairwise_flatMap]
  constructor
  · intro a _
    exact List.pairwise_replicate.mpr (.inr le_rfl)
  · apply hsorted.imp
    intro a b hab x hx y hy
    rw [List.eq_of_mem_replicate hx, List.eq_of_mem_replicate hy]
    exact hab.le

/-- A sorted list is made of its groups. -/
theorem eq_expand (hl : l.Pairwise (· ≤ ·)) (hsorted : groups.Pairwise (· < ·))
    (hcount : ∀ a, l.count a = if a ∈ groups then size a else 0) : l = expand size groups := by
  have hperm : l.Perm (expand size groups) := by
    rw [List.perm_iff_count]
    intro a
    rw [hcount, count_expand (hsorted.imp ne_of_lt)]
  exact hperm.eq_of_pairwise (fun a b _ _ hab hba => le_antisymm hab hba) hl
    (expand_sorted hsorted)
end

end Lib.Thinning
