import Mathlib.Data.List.Induction

namespace Lib.Tallies

variable {κ : Type} [DecidableEq κ]

def next (n : Nat) (b : Bool) : Nat := if b then n + 1 else 0

def bump (counts : κ → Nat) (x : κ × Bool) : κ → Nat :=
  fun k => if k = x.1 then next (counts k) x.2 else counts k

/-- How many of the last outcomes were true without a break. -/
def streak (bs : List Bool) : Nat := bs.foldl next 0

/-- The outcomes under a key. -/
def under (k : κ) (xs : List (κ × Bool)) : List Bool :=
  (xs.filter (fun x => x.1 = k)).map Prod.snd

variable {k : κ} {xs ys : List (κ × Bool)} {bs cs : List Bool} {b : Bool} {n m : Nat}

@[simp] theorem under_append : under k (xs ++ ys) = under k xs ++ under k ys := by
  simp [under]

theorem foldl_bump {counts : κ → Nat} :
    (xs.foldl bump counts) k = (under k xs).foldl next (counts k) := by
  induction xs generalizing counts with
  | nil => rfl
  | cons x xs ih =>
    rw [List.foldl_cons, ih]
    by_cases h : x.1 = k
    · simp [under, bump, h]
    · simp [under, bump, h, Ne.symm h]

/-- The counter under a key. -/
theorem count_eq_streak : (xs.foldl bump (fun _ => 0)) k = streak (under k xs) :=
  foldl_bump

@[simp] theorem streak_concat : streak (bs ++ [b]) = next (streak bs) b := by
  simp [streak]

/-- The count reaches a number when that many last outcomes are all true. -/
theorem le_streak_iff : n ≤ streak bs ↔
    ∃ earlier last, bs = earlier ++ last ∧ last.length = n ∧ ∀ b ∈ last, b = true := by
  induction bs using List.reverseRecOn generalizing n with
  | nil =>
    constructor
    · intro h
      have hn : n = 0 := Nat.le_zero.mp h
      exact ⟨[], [], rfl, hn.symm, by simp⟩
    · intro ⟨earlier, last, hbs, hlen, _⟩
      have hnil := List.append_eq_nil_iff.mp hbs.symm
      rw [← hlen, hnil.2]
      exact Nat.zero_le _
  | append_singleton bs b ih =>
    rw [streak_concat]
    cases n with
    | zero =>
      exact ⟨fun _ => ⟨bs ++ [b], [], by simp, rfl, by simp⟩, fun _ => Nat.zero_le _⟩
    | succ n =>
      constructor
      · intro h
        cases b with
        | false => simp [next] at h
        | true =>
          obtain ⟨earlier, last, rfl, hlen, hall⟩ := ih.mp (by simpa [next] using h)
          refine ⟨earlier, last ++ [true], by simp, by simp [hlen], ?_⟩
          intro b hb
          rcases List.mem_append.mp hb with hb | hb
          · exact hall b hb
          · exact List.mem_singleton.mp hb
      · intro ⟨earlier, last, hbs, hlen, hall⟩
        rcases List.eq_nil_or_concat last with rfl | ⟨last, c, rfl⟩
        · cases hlen
        · rw [List.concat_eq_append, ← List.append_assoc] at hbs
          obtain ⟨rfl, hc⟩ := List.append_inj' hbs rfl
          have hb : b = true := by
            rw [List.singleton_inj.mp hc]
            exact hall c (by simp)
          have hn : n ≤ streak (earlier ++ last) :=
            ih.mpr ⟨earlier, last, rfl, by simpa using hlen, fun d hd => hall d (by simp [hd])⟩
          simpa [next, hb] using hn

/-- What came before an outcome that was not true no longer counts. -/
theorem streak_forgets (h : false ∈ cs) : streak (bs ++ cs) = streak cs := by
  have hstart : ∀ n m : Nat, cs.foldl next n = cs.foldl next m := by
    induction cs with
    | nil => cases h
    | cons c cs ih =>
      intro n m
      cases c with
      | false => rfl
      | true => exact ih (by simpa using h) (n + 1) (m + 1)
  rw [streak, List.foldl_append]
  exact hstart _ _

theorem streak_append_true (h : ∀ c ∈ cs, c = true) :
    streak (bs ++ cs) = streak bs + cs.length := by
  induction cs generalizing bs with
  | nil => simp
  | cons c cs ih =>
    have hc : c = true := h c List.mem_cons_self
    have hcons : bs ++ c :: cs = (bs ++ [c]) ++ cs := by simp
    rw [hcons, ih fun d hd => h d (List.mem_cons_of_mem c hd), streak_concat, hc, List.length_cons]
    simp only [next, if_true]
    omega

theorem streak_true (h : ∀ c ∈ cs, c = true) : streak cs = cs.length := by
  have hstreak : streak ([] ++ cs) = streak [] + cs.length := streak_append_true h
  have hnil : streak [] = 0 := rfl
  rwa [hnil, Nat.zero_add] at hstreak

theorem one_le_streak_concat : 1 ≤ streak (bs ++ [b]) ↔ b = true := by
  rw [streak_concat]
  cases b <;> simp [next]

theorem two_le_streak_concat {c : Bool} :
    2 ≤ streak (bs ++ [b] ++ [c]) ↔ b = true ∧ c = true := by
  rw [streak_concat, streak_concat]
  cases b <;> cases c <;> simp [next]

section Shared
variable {α : Type} {pre post : List (α → Bool)} {f : α → Bool}

/-- The outcomes of one element. -/
def lap (fs : List (α → Bool)) (a : α) : List Bool := fs.map (· a)

/-- The count after `f` has counted an element. -/
def shared (pre : List (α → Bool)) (f : α → Bool) (post : List (α → Bool)) (earlier : List α)
    (a : α) : Nat :=
  streak (earlier.flatMap (lap (pre ++ f :: post)) ++ lap pre a ++ [f a])

def own (f : α → Bool) (earlier : List α) (a : α) : Nat := streak ((earlier ++ [a]).map f)

/-- The shared counter reaches the number when a counter of `f`'s own would. -/
def Agrees (n : Nat) (pre : List (α → Bool)) (f : α → Bool) (post : List (α → Bool)) : Prop :=
  ∀ earlier a, n ≤ shared pre f post earlier a ↔ n ≤ own f earlier a

theorem agrees_alone : Agrees n [] f [] := by
  intro earlier a
  have hlap : earlier.flatMap (lap [f]) = earlier.map f := by
    induction earlier with
    | nil => rfl
    | cons x xs ih => simp [lap, ih]
  simp [shared, own, hlap, lap]

/-- The outcome before an element's is the last of the lap before. -/
theorem agrees_two {q : α → Bool} (h : ∀ a, q a = f a) : Agrees 2 [] f (post ++ [q]) := by
  intro earlier a
  rcases List.eq_nil_or_concat earlier with rfl | ⟨xs, x, rfl⟩
  · have hlap : ([] : List α).flatMap (lap ([] ++ f :: (post ++ [q]))) = [] := rfl
    rw [shared, own, hlap]
    rfl
  · have hlap : lap (f :: (post ++ [q])) x = lap (f :: post) x ++ [f x] := by
      simp [lap, h]
    have hshared : shared [] f (post ++ [q]) (xs.concat x) a =
        streak (xs.flatMap (lap (f :: (post ++ [q]))) ++ lap (f :: post) x ++ [f x] ++
          [f a]) := by
      simp only [shared, List.concat_eq_append, List.flatMap_append, List.flatMap_singleton,
        List.nil_append, hlap, List.append_assoc]
      rfl
    have hown : own f (xs.concat x) a = streak (xs.map f ++ [f x] ++ [f a]) := by
      simp [own]
    rw [hshared, hown, two_le_streak_concat, two_le_streak_concat]

/-- The same element again and again, where not all of its outcomes are true. -/
theorem shared_replicate {a : α} (hfalse : false ∈ lap (pre ++ f :: post) a) (h : 0 < m) :
    shared pre f post (List.replicate m a) a = shared pre f post [a] a := by
  obtain ⟨n, rfl⟩ := Nat.exists_eq_succ_of_ne_zero (Nat.ne_of_gt h)
  have hlaps : (List.replicate (n + 1) a).flatMap (lap (pre ++ f :: post)) =
      (List.replicate n a).flatMap (lap (pre ++ f :: post)) ++ lap (pre ++ f :: post) a := by
    rw [List.replicate_succ', List.flatMap_append, List.flatMap_singleton]
  have hmem : false ∈ lap (pre ++ f :: post) a ++ (lap pre a ++ [f a]) :=
    List.mem_append_left _ hfalse
  simp only [shared, hlaps, List.flatMap_singleton, List.append_assoc]
  exact streak_forgets hmem

theorem own_replicate {a : α} (h : f a = true) : own f (List.replicate m a) a = m + 1 := by
  have hall : ∀ c ∈ (List.replicate m a ++ [a]).map f, c = true := by
    intro c hc
    obtain ⟨x, hx, rfl⟩ := List.mem_map.mp hc
    rcases List.mem_append.mp hx with hx | hx
    · rw [List.eq_of_mem_replicate hx]
      exact h
    · rw [List.mem_singleton.mp hx]
      exact h
  rw [own, streak_true hall]
  simp

/-- Three and more are counted rightly only alone. -/
theorem alone_of_agrees (h : Agrees (n + 3) pre f post) (hf : ∃ a, f a = true) :
    pre = [] ∧ post = [] := by
  obtain ⟨a, ha⟩ := hf
  by_cases hall : ∀ c ∈ lap (pre ++ f :: post) a, c = true
  · -- every lap counts each of its predicates
    have hcount : ∀ m, shared pre f post (List.replicate m a) a =
        m * (pre.length + (post.length + 1)) + pre.length + 1 := by
      intro m
      have htrue : ∀ c ∈ (List.replicate m a).flatMap (lap (pre ++ f :: post)) ++ lap pre a ++
          [f a], c = true := by
        intro c hc
        rcases List.mem_append.mp hc with hc | hc
        · rcases List.mem_append.mp hc with hc | hc
          · obtain ⟨x, hx, hm⟩ := List.mem_flatMap.mp hc
            rw [List.eq_of_mem_replicate hx] at hm
            exact hall c hm
          · exact hall c (by simp only [lap, List.map_append] at hc ⊢; simp [hc])
        · rw [List.mem_singleton.mp hc]
          exact ha
      have hlen : ((List.replicate m a).flatMap (lap (pre ++ f :: post))).length =
          m * (pre.length + (post.length + 1)) := by
        simp [List.length_flatMap, lap]
      rw [shared, streak_true htrue, List.length_append, List.length_append, hlen]
      simp [lap]
    have hearly := (h (List.replicate (n + 1) a) a).not.mpr (by rw [own_replicate ha]; omega)
    rw [hcount] at hearly
    have hzero : pre.length + post.length = 0 := by
      by_contra hpos
      have hmul : (n + 1) * 2 ≤ (n + 1) * (pre.length + (post.length + 1)) :=
        Nat.mul_le_mul_left _ (by omega)
      omega
    exact ⟨List.length_eq_zero_iff.mp (by omega), List.length_eq_zero_iff.mp (by omega)⟩
  · -- the laps after the first all leave the same count
    have hfalse : false ∈ lap (pre ++ f :: post) a := by
      obtain ⟨c, hc⟩ := not_forall.mp hall
      obtain ⟨hm, hne⟩ := Classical.not_imp.mp hc
      rw [Bool.not_eq_true] at hne
      rwa [hne] at hm
    have hsecond := (h [a] a).not.mpr (by
      have := own_replicate (m := 1) ha
      simp only [List.replicate_one] at this
      omega)
    have hlast := (h (List.replicate (n + 2) a) a).mpr (Nat.le_of_eq (own_replicate ha).symm)
    rw [shared_replicate hfalse (by omega)] at hlast
    exact absurd hlast hsecond

theorem two_le_own {a b : α} : 2 ≤ own f [a] b ↔ f a = true ∧ f b = true := by
  have hown : own f [a] b = streak ([] ++ [f a] ++ [f b]) := rfl
  rw [hown, two_le_streak_concat]

/-- Of two that agree nothing counts before the predicate. -/
theorem first_of_agrees (h : Agrees 2 pre f post) (hf : ∃ a, f a = true) : pre = [] := by
  rcases List.eq_nil_or_concat pre with rfl | ⟨ps, p, rfl⟩
  · rfl
  · have hlap : ∀ a, lap (ps.concat p) a = lap ps a ++ [p a] := by
      simp [lap]
    have hshared : ∀ earlier a, 2 ≤ shared (ps.concat p) f post earlier a →
        p a = true ∧ f a = true := by
      intro earlier a hle
      simp only [shared, hlap, ← List.append_assoc] at hle
      exact two_le_streak_concat.mp hle
    obtain ⟨a, ha⟩ := hf
    cases hp : p a with
    | true =>
      have hfirst : 2 ≤ shared (ps.concat p) f post [] a := by
        simp only [shared, hlap, ← List.append_assoc]
        exact two_le_streak_concat.mpr ⟨hp, ha⟩
      have hown := (h [] a).mp hfirst
      rw [own, List.nil_append, List.map_singleton, ha] at hown
      exact absurd hown (by decide)
    | false =>
      have hlast := (hshared [a] a ((h [a] a).mpr (two_le_own.mpr ⟨ha, ha⟩))).1
      rw [hp] at hlast
      cases hlast

/-- Of two that agree the last to count says what the predicate says. -/
theorem last_of_agrees {q : α → Bool} (h : Agrees 2 [] f (post ++ [q])) (hf : ∃ a, f a = true)
    (a : α) : q a = f a := by
  have hshared : ∀ b, 2 ≤ shared [] f (post ++ [q]) [a] b ↔ q a = true ∧ f b = true := by
    intro b
    have hlast : shared [] f (post ++ [q]) [a] b =
        streak (lap (f :: post) a ++ [q a] ++ [f b]) := by
      simp [shared, lap]
    rw [hlast, two_le_streak_concat]
  obtain ⟨b, hb⟩ := hf
  have hq : q a = true ↔ f a = true := by
    have hb' := h [a] b
    rw [hshared, two_le_own] at hb'
    simpa [hb] using hb'
  exact Bool.eq_iff_iff.mpr hq

/-- A predicate that counts alone, or that counts to two and first, where the last to count says
the same. -/
theorem agrees_of (hpost : post = [] ∨ n = 2 ∧ ∀ q ∈ post.getLast?, ∀ a, q a = f a) :
    Agrees n [] f post := by
  rcases hpost with rfl | ⟨rfl, hlast⟩
  · exact agrees_alone
  · rcases List.eq_nil_or_concat post with rfl | ⟨qs, q, rfl⟩
    · exact agrees_alone
    · rw [List.concat_eq_append]
      exact agrees_two (hlast q (by simp))

/-- From two on a shared counter is as good as the predicate's own in these cases alone. -/
theorem agrees_iff (hf : ∃ a, f a = true) (hn : 2 ≤ n) : Agrees n pre f post ↔
    pre = [] ∧ (post = [] ∨ n = 2 ∧ ∀ q ∈ post.getLast?, ∀ a, q a = f a) := by
  constructor
  · intro h
    by_cases htwo : n = 2
    · subst htwo
      have hpre := first_of_agrees h hf
      subst hpre
      refine ⟨rfl, .inr ⟨rfl, ?_⟩⟩
      intro q hq
      rcases List.eq_nil_or_concat post with rfl | ⟨qs, q', rfl⟩
      · simp at hq
      · rw [List.concat_eq_append] at h hq
        have hsame : q' = q := by simpa using hq
        subst hsame
        exact last_of_agrees h hf
    · obtain ⟨m, rfl⟩ := Nat.exists_eq_add_of_le' (show 3 ≤ n by omega)
      obtain ⟨hpre, hpost⟩ := alone_of_agrees h hf
      exact ⟨hpre, .inl hpost⟩
  · intro ⟨hpre, hpost⟩
    subst hpre
    exact agrees_of hpost

end Shared

end Lib.Tallies
