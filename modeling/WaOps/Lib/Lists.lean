import Mathlib.Algebra.GroupWithZero.Nat
import Mathlib.Data.List.Perm.Basic

namespace Lib.Lists

variable {α : Type*} {l : List α} {p : α → Bool} {i j : Nat} {x y : α}

/-- Where a condition, once it fails, fails for all later elements, a filter cuts the list
in two. -/
theorem filter_cut (h : l.Pairwise (fun x y => p y → p x)) :
    l = l.filter p ++ l.filter (fun x => ¬ p x) := by
  induction l with
  | nil => rfl
  | cons x xs ih =>
    obtain ⟨hx, hxs⟩ := List.pairwise_cons.mp h
    by_cases hp : p x
    · simp only [List.filter_cons, hp, if_true, not_true, decide_false, Bool.false_eq_true,
        if_false, List.cons_append]
      rw [← ih hxs]
    · have hnone : xs.filter p = [] := by
        rw [List.filter_eq_nil_iff]
        intro y hy hpy
        exact hp (hx y hy hpy)
      have hall : xs.filter (fun y => ¬ p y) = xs := by
        rw [List.filter_eq_self]
        intro y hy
        simpa using fun hpy => hp (hx y hy hpy)
      simp only [decide_not, Bool.decide_eq_true] at hall ⊢
      simp [hp, hnone, hall]

theorem getElem?_set_cases (h : (l.set i x)[j]? = some y) :
    j = i ∧ y = x ∨ j ≠ i ∧ l[j]? = some y := by
  rw [List.getElem?_set] at h
  split at h
  · rename_i hij
    split at h
    · cases h
      exact .inl ⟨hij.symm, rfl⟩
    · cases h
  · rename_i hij
    exact .inr ⟨fun he => hij he.symm, h⟩

theorem getElem?_append_cases (h : (l ++ [x])[i]? = some y) :
    l[i]? = some y ∨ i = l.length ∧ y = x := by
  rw [List.getElem?_append] at h
  split at h
  · exact .inl h
  · rename_i hi
    obtain ⟨hlen, hy⟩ := List.getElem?_eq_some_iff.mp h
    rw [List.length_singleton] at hlen
    refine .inr ⟨by omega, ?_⟩
    rw [← hy, List.getElem_singleton]

theorem mem_set_cases (h : y ∈ l.set i x) : y = x ∨ y ∈ l :=
  (List.mem_or_eq_of_mem_set h).symm

/-- Replacing an entry changes a sum by the difference of the two. -/
theorem sum_map_set (f : α → Nat) (h : l[i]? = some x) (y : α) :
    ((l.set i y).map f).sum + f x = (l.map f).sum + f y := by
  induction l generalizing i with
  | nil => cases h
  | cons a l ih =>
    cases i with
    | zero =>
      cases h
      simp only [List.set_cons_zero, List.map_cons, List.sum_cons]
      omega
    | succ i =>
      have := ih h
      simp only [List.set_cons_succ, List.map_cons, List.sum_cons]
      omega

theorem map_set_same {β : Type*} (f : α → β) (h : l[i]? = some x) (hf : f y = f x) :
    (l.set i y).map f = l.map f := by
  obtain ⟨hi, rfl⟩ := List.getElem?_eq_some_iff.mp h
  rw [List.map_set, hf, ← List.getElem_map f, List.set_getElem_self]
  simpa using hi

theorem countP_set_same (h : l[i]? = some x) (hp : p y = p x) :
    (l.set i y).countP p = l.countP p := by
  have hmap := map_set_same p h hp
  calc (l.set i y).countP p = ((l.set i y).map p).countP id := by rw [List.countP_map]; rfl
    _ = (l.map p).countP id := by rw [hmap]
    _ = l.countP p := by rw [List.countP_map]; rfl

theorem countP_set_add (h : l[i]? = some x) (hp : p x = false) :
    (l.set i y).countP p = l.countP p + if p y then 1 else 0 := by
  obtain ⟨hlt, rfl⟩ := List.getElem?_eq_some_iff.mp h
  rw [List.countP_set hlt, hp]
  rfl

theorem nodup_map_of_subperm {β : Type*} {l l' : List α} {f : α → β} (h : l.Subperm l')
    (hn : (l'.map f).Nodup) : (l.map f).Nodup := by
  obtain ⟨m, hperm, hsub⟩ := h
  exact (hperm.map f).nodup_iff.mp (hn.sublist (hsub.map f))

theorem eraseIdx_perm (h : l[i]? = some x) : (x :: l.eraseIdx i).Perm l := by
  obtain ⟨hi, rfl⟩ := List.getElem?_eq_some_iff.mp h
  exact List.getElem_cons_eraseIdx_perm hi

theorem filter_snoc (l : List α) (x : α) (p : α → Bool) :
    (l ++ [x]).filter p = if p x then l.filter p ++ [x] else l.filter p := by
  rw [List.filter_append]
  cases hx : p x with
  | true => simp [hx]
  | false => simp [hx]

/-- An entry that is taken out is missing from what a filter keeps. -/
theorem filter_eraseIdx (h : l[i]? = some x) (p : α → Bool) : ∃ as bs,
    l.filter p = as ++ (if p x then [x] else []) ++ bs ∧ (l.eraseIdx i).filter p = as ++ bs := by
  induction l generalizing i with
  | nil => cases h
  | cons y l ih =>
    cases i with
    | zero =>
      cases h
      refine ⟨[], l.filter p, ?_, rfl⟩
      rw [List.filter_cons]
      split <;> rfl
    | succ i =>
      obtain ⟨as, bs, hall, hrest⟩ := ih h
      rw [List.eraseIdx_cons_succ, List.filter_cons, List.filter_cons, hall, hrest]
      split
      · exact ⟨y :: as, bs, rfl, rfl⟩
      · exact ⟨as, bs, rfl, rfl⟩

theorem nodup_eraseDups [BEq α] [LawfulBEq α] (l : List α) : l.eraseDups.Nodup := by
  cases l with
  | nil => exact List.nodup_nil
  | cons x l =>
    rw [List.eraseDups_cons, List.nodup_cons]
    exact ⟨by simp [List.mem_eraseDups], nodup_eraseDups _⟩
  termination_by l.length
  decreasing_by exact Nat.lt_succ_of_le (List.length_filter_le _ _)

/-- The first separator of a list ends its first part. -/
theorem append_cons_inj {a : α} {xs ys ws zs : List α} (hx : a ∉ xs) (hw : a ∉ ws)
    (h : xs ++ a :: ys = ws ++ a :: zs) : xs = ws ∧ ys = zs := by
  induction xs generalizing ws with
  | nil =>
    cases ws with
    | nil => exact ⟨rfl, (List.cons.inj h).2⟩
    | cons w ws => exact absurd ((List.cons.inj h).1 ▸ List.mem_cons_self) hw
  | cons x xs ih =>
    cases ws with
    | nil => exact absurd ((List.cons.inj h).1 ▸ List.mem_cons_self) hx
    | cons w ws =>
      obtain ⟨rfl, htail⟩ := List.cons.inj h
      obtain ⟨rfl, hys⟩ := ih (fun hm => hx (List.mem_cons_of_mem x hm))
        (fun hm => hw (List.mem_cons_of_mem x hm)) htail
      exact ⟨rfl, hys⟩

end Lib.Lists
