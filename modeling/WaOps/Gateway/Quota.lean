import WaOps.Gateway.Effects

namespace WaOps.Gateway
open Lib.Runs

/-- Still claimable, or being claimed. -/
def Token.pendingAt (now : Int) (tk : Token) : Bool :=
  tk.status = .active && now < tk.expiresAt || tk.status = .claiming

def State.pendingNow (s : State) (tenantId : String) : Nat :=
  s.tokens.countP (fun tk => tk.tenantId = tenantId && tk.pendingAt s.now)

def Call.mints (tenantId : String) : Call → Bool
  | .minting tenantId' _ => tenantId' = tenantId
  | _ => false

/-- The tenant's requests that have passed the count and not inserted their tokens. -/
def State.minting (s : State) (tenantId : String) : Nat :=
  s.calls.countP (Call.mints tenantId)

def validTtl (ttlMinutes : Option Nat) : Prop :=
  1 ≤ ttlMinutes.getD 15 ∧ ttlMinutes.getD 15 ≤ 60

instance validTtl.decidable (ttlMinutes : Option Nat) : Decidable (validTtl ttlMinutes) :=
  inferInstanceAs (Decidable (_ ∧ _))

/-- A request of the tenant is denied only where twenty of its tokens are pending. -/
def DenialDue (sha256 : String → String) (tenantId : String) (s : State) : Action → Prop
  | .createToken tenantId' ttlMinutes => tenantId' = tenantId → validTtl ttlMinutes →
      (∃ t, step sha256 s (.createToken tenantId ttlMinutes) = some t ∧ t.calls = s.calls) →
      maxPendingTokensPerTenant ≤ s.pendingNow tenantId
  | _ => True

/-- A token of the tenant is created only where fewer than twenty are pending. -/
def MintDue (sha256 : String → String) (tenantId : String) (s : State) : Action → Prop
  | .mint i id token => ∀ ttlMinutes, s.calls[i]? = some (.minting tenantId ttlMinutes) →
      (∃ t, step sha256 s (.mint i id token) = some t ∧ t.tokens ≠ s.tokens) →
      s.pendingNow tenantId < maxPendingTokensPerTenant
  | _ => True

/-- Where a request of the tenant counts twenty tokens, as many are pending: it counts none that
has expired in between. -/
def NotStarved (tenantId : String) (s : State) : Action → Prop
  | .createToken tenantId' ttlMinutes => tenantId' = tenantId → validTtl ttlMinutes →
      maxPendingTokensPerTenant ≤ s.pending tenantId →
      maxPendingTokensPerTenant ≤ s.pendingNow tenantId
  | _ => True

/-- Where a request of the tenant counts fewer than twenty tokens, there is room for its own next
to those that are pending and those of the requests under way. -/
def NotCrowded (tenantId : String) (s : State) : Action → Prop
  | .createToken tenantId' ttlMinutes => tenantId' = tenantId → validTtl ttlMinutes →
      s.pending tenantId < maxPendingTokensPerTenant →
      s.pendingNow tenantId + s.minting tenantId < maxPendingTokensPerTenant
  | _ => True

section
variable {sha256 : String → String} {s t : State} {i : Nat} {c : Call} {tenantId : String}

theorem minting_addCall : (s.addCall c).minting tenantId =
    s.minting tenantId + if c.mints tenantId then 1 else 0 := by
  simp only [State.minting, State.addCall, List.countP_append, List.countP_singleton]

theorem minting_setCall (hc : c.mints tenantId = false) :
    (s.setCall i c).minting tenantId ≤ s.minting tenantId := by
  simp only [State.minting, State.setCall]
  by_cases hi : i < s.calls.length
  · rw [List.countP_set hi, hc]
    simp
  · rw [List.set_eq_of_length_le (Nat.le_of_not_lt hi)]

/-- A request that ends makes room for its token. -/
theorem minting_ended {ttlMinutes : Nat}
    (hcall : s.calls[i]? = some (.minting tenantId ttlMinutes)) :
    (s.setCall i .ended).minting tenantId + 1 = s.minting tenantId := by
  obtain ⟨hi, hget⟩ := List.getElem?_eq_some_iff.mp hcall
  have hmints : Call.mints tenantId s.calls[i] = true := by simp [hget, Call.mints]
  have hpos : 0 < s.calls.countP (Call.mints tenantId) :=
    List.countP_pos_iff.mpr ⟨s.calls[i], List.getElem_mem hi, hmints⟩
  simp only [State.minting, State.setCall]
  rw [List.countP_set hi, hmints]
  simp [Call.mints]
  omega

theorem pendingAt_later {tk : Token} {now : Int} {ms : Nat} (h : tk.pendingAt (now + ms) = true) :
    tk.pendingAt now = true := by
  simp only [Token.pendingAt, Bool.or_eq_true, Bool.and_eq_true, decide_eq_true_eq] at h ⊢
  rcases h with ⟨hactive, hlt⟩ | hclaiming
  · exact .inl ⟨hactive, by omega⟩
  · exact .inr hclaiming

theorem pendingNow_tick {ms : Nat} :
    State.pendingNow { s with now := s.now + ms } tenantId ≤ s.pendingNow tenantId := by
  apply List.countP_mono_left
  intro tk _ h
  simp only [Bool.and_eq_true] at h ⊢
  exact ⟨h.1, pendingAt_later h.2⟩

/-- An update that makes no token pending again. -/
theorem pendingNow_update {p : Token → Bool} {f : Token → Token}
    (hten : ∀ tk, (f tk).tenantId = tk.tenantId)
    (hf : ∀ tk, p tk = true → (f tk).pendingAt s.now = true → tk.pendingAt s.now = true) :
    (s.updateTokens p f).pendingNow tenantId ≤ s.pendingNow tenantId := by
  simp only [State.pendingNow, State.updateTokens, List.countP_map]
  apply List.countP_mono_left
  intro tk _ h
  simp only [Function.comp_apply, Bool.and_eq_true] at h ⊢
  split at h
  · rename_i hp
    rw [hten] at h
    exact ⟨h.1, hf tk hp h.2⟩
  · exact h

/-- All a step can do to the quota. -/
inductive QuotaEffect (s : State) : Action → State → Prop
  | pass {tenantId : String} {ttlMinutes : Option Nat} (hvalid : validTtl ttlMinutes)
    (hpending : s.pending tenantId < maxPendingTokensPerTenant) :
    QuotaEffect s (.createToken tenantId ttlMinutes)
      (s.addCall (.minting tenantId (ttlMinutes.getD 15)))
  | insert {i ttlMinutes : Nat} {id token : String} {tk : Token}
    (hcall : s.calls[i]? = some (.minting tk.tenantId ttlMinutes)) :
    QuotaEffect s (.mint i id token) ({ s with tokens := s.tokens ++ [tk] }.setCall i .ended)
  | other {a : Action} {t : State} (hpending : ∀ tenantId, t.pendingNow tenantId ≤
      s.pendingNow tenantId) (hminting : ∀ tenantId, t.minting tenantId ≤ s.minting tenantId) :
    QuotaEffect s a t

theorem QuotaEffect.same {a : Action} : QuotaEffect s a s :=
  .other (fun _ => Nat.le_refl _) (fun _ => Nat.le_refl _)

theorem QuotaEffect.move {a : Action} (hc : ∀ tenantId, c.mints tenantId = false) :
    QuotaEffect s a (s.setCall i c) :=
  .other (fun _ => Nat.le_refl _) (fun tenantId => minting_setCall (hc tenantId))

theorem QuotaEffect.add {a : Action} (hc : ∀ tenantId, c.mints tenantId = false) :
    QuotaEffect s a (s.addCall c) := by
  refine .other (fun _ => Nat.le_refl _) ?_
  intro tenantId
  rw [minting_addCall, hc]
  exact Nat.le_refl _

theorem enroll_quota {tokenHash : String} {body : EnrollmentBody} {outcome : Outcome}
    {a : Action} : QuotaEffect s a (s.enroll tokenHash body outcome) := by
  have hclaim : ∀ tenantId, (s.updateTokens (Token.claimable s.now tokenHash)
      Token.claim).pendingNow tenantId ≤ s.pendingNow tenantId := by
    intro tenantId
    apply pendingNow_update
    · exact fun _ => rfl
    · intro tk hp _
      simp only [Token.claimable, Bool.and_eq_true, decide_eq_true_eq] at hp
      simp [Token.pendingAt, hp.1.2, hp.2]
  unfold State.enroll
  cases outcome with
  | aborted => exact .same
  | unanswered => exact .other hclaim (fun _ => Nat.le_refl _)
  | committed =>
    dsimp only
    split
    · refine .other hclaim ?_
      intro tenantId
      rw [minting_addCall]
      exact Nat.le_refl _
    · exact .same

/-- A claimed token that becomes the agent's is pending no longer. -/
theorem create_quota {agent : Agent} {token : Token} {u : State} {a : Action}
    (hu : s.create agent token = some u) (hc : ∀ tenantId, c.mints tenantId = false) :
    QuotaEffect s a (u.setCall i c) := by
  obtain ⟨-, -, rfl⟩ := create_spec hu
  refine .other ?_ ?_
  · intro tenantId
    refine pendingNow_update (s := { s with agents := s.agents ++ [agent] }) ?_ ?_
    · exact fun _ => rfl
    · intro tk _ h
      simp [Token.pendingAt, Token.consume] at h
  · intro tenantId
    exact minting_setCall (s := s) (hc tenantId)

/-- What is rolled back was being claimed. -/
theorem rollback_quota {tokenHash : String} {a : Action} :
    QuotaEffect s a ((s.updateTokens (fun tk => tk.tokenHash = tokenHash ∧ tk.status = .claiming)
      Token.reopen).setCall i .ended) := by
  refine .other ?_ ?_
  · intro tenantId
    refine pendingNow_update (s := s) ?_ ?_
    · exact fun _ => rfl
    · intro tk hp _
      have hclaiming : tk.status = .claiming := by
        simp only [Bool.decide_and, Bool.and_eq_true, decide_eq_true_eq] at hp
        exact hp.2
      simp [Token.pendingAt, hclaiming]
  · intro tenantId
    exact minting_setCall (s := s) rfl

theorem step_quota {a : Action} (h : step sha256 s a = some t) : QuotaEffect s a t := by
  cases a with
  | tick ms =>
    cases h
    exact .other (fun _ => pendingNow_tick) (fun _ => Nat.le_refl _)
  | createToken tenantId ttlMinutes =>
    simp only [step] at h
    split at h
    · cases h
      exact .same
    · rename_i hvalid
      split at h
      · cases h
        exact .same
      · rename_i hpending
        cases h
        refine .pass ?_ (Nat.lt_of_not_le hpending)
        unfold validTtl
        omega
  | mint i id token =>
    simp only [step] at h
    split at h
    · rename_i hcall
      split at h
      · cases h
        exact .move (fun _ => rfl)
      · cases h
        exact .insert hcall
    · cases h
  | enroll body outcome =>
    simp only [step] at h
    split at h
    · split at h
      · cases h
        exact enroll_quota
      · cases h
        exact .same
    · cases h
      exact .same
  | find i ok =>
    simp only [step] at h
    split at h
    · split at h
      · cases h
        exact .move (fun _ => rfl)
      · cases h
        exact .move (fun _ => rfl)
    · cases h
  | create i id secret outcome =>
    simp only [step] at h
    split at h
    · split at h
      · rename_i hu
        cases h
        exact create_quota hu (fun _ => rfl)
      · rename_i hu
        cases h
        exact create_quota hu (fun _ => rfl)
      · cases h
        exact .move (fun _ => rfl)
    · cases h
  | rollback i outcome =>
    simp only [step] at h
    split at h
    · split at h
      · cases h
        exact .move (fun _ => rfl)
      · cases h
        exact rollback_quota
    · cases h
  | crash i =>
    cases h
    exact .move (fun _ => rfl)
  | heartbeat header rateLimited parsed =>
    simp only [step] at h
    split at h
    · cases h
      exact .same
    · split at h
      · cases h
        exact .add (fun _ => rfl)
      · cases h
        exact .same
  | beat i outcome =>
    simp only [step] at h
    split at h
    · split at h
      · cases h
        exact .move (fun _ => rfl)
      · cases h
        exact .other (fun _ => Nat.le_refl _) (fun _ => minting_setCall (s := s) rfl)
    · cases h
  | metrics header rateLimited parsed ownId =>
    simp only [step] at h
    split at h
    · cases h
      exact .same
    · split at h
      · cases h
        exact .same
      · cases h
        exact .add (fun _ => rfl)
  | addJob i =>
    simp only [step] at h
    split at h
    · cases h
      exact .other (fun _ => Nat.le_refl _) (fun _ => minting_setCall (s := s) rfl)
    · cases h
  | bridge i hostId machineId =>
    simp only [step] at h
    split at h
    · cases h
      exact .other (fun _ => Nat.le_refl _) (fun _ => Nat.le_refl _)
    · cases h
  | revoke tenantId id =>
    simp only [step] at h
    split at h
    · cases h
      exact .add (fun _ => rfl)
    · cases h
      exact .same
  | commitRevoke i outcome =>
    simp only [step] at h
    split at h
    · split at h
      · cases h
        exact .move (fun _ => rfl)
      · cases h
        exact .other (fun _ => Nat.le_refl _) (fun _ => minting_setCall (s := s) rfl)
    · cases h

/-- The pending tokens and those of the requests under way keep to the quota. -/
def Roomy (tenantId : String) (s : State) : Prop :=
  s.pendingNow tenantId + s.minting tenantId ≤ maxPendingTokensPerTenant

theorem pendingNow_insert {tk : Token} :
    ({ s with tokens := s.tokens ++ [tk] }.setCall i .ended).pendingNow tenantId ≤
      s.pendingNow tenantId + if tk.tenantId = tenantId then 1 else 0 := by
  simp only [State.pendingNow, State.setCall, List.countP_append, List.countP_singleton]
  by_cases ht : tk.tenantId = tenantId
  · simp only [ht, ite_true]
    split <;> omega
  · simp [ht]

theorem Roomy.step (s : State) (a : Action) (t : State) (h : Roomy tenantId s)
    (hcond : NotCrowded tenantId s a) (hs : step sha256 s a = some t) : Roomy tenantId t := by
  unfold Roomy at h ⊢
  cases step_quota hs with
  | @pass tenantId' ttlMinutes hvalid hpending =>
    have hsame : (s.addCall (.minting tenantId' (ttlMinutes.getD 15))).pendingNow tenantId =
        s.pendingNow tenantId := rfl
    rw [hsame, minting_addCall]
    by_cases ht : tenantId' = tenantId
    · have hroom := hcond ht hvalid (ht ▸ hpending)
      simp only [Call.mints, ht, decide_true, ite_true]
      omega
    · simpa [Call.mints, ht] using h
  | @insert i ttlMinutes id token tk hcall =>
    have hpending : ({ s with tokens := s.tokens ++ [tk] }.setCall i .ended).pendingNow tenantId ≤
        s.pendingNow tenantId + if tk.tenantId = tenantId then 1 else 0 := pendingNow_insert
    by_cases ht : tk.tenantId = tenantId
    · rw [ht] at hcall
      have hended := minting_ended hcall
      have hminting : ({ s with tokens := s.tokens ++ [tk] }.setCall i .ended).minting tenantId =
          (s.setCall i .ended).minting tenantId := rfl
      simp only [ht, ite_true] at hpending
      omega
    · have hminting : ({ s with tokens := s.tokens ++ [tk] }.setCall i .ended).minting tenantId ≤
          s.minting tenantId := minting_setCall rfl
      simp only [ht, ite_false] at hpending
      omega
  | other hpending hminting =>
    have hp := hpending tenantId
    have hm := hminting tenantId
    omega

/-- A request under way has had its room kept. -/
theorem Roomy.mintDue {a : Action} (h : Roomy tenantId s) : MintDue sha256 tenantId s a := by
  cases a with
  | mint i id token =>
    intro ttlMinutes hcall _
    have hended := minting_ended hcall
    unfold Roomy at h
    omega
  | _ => trivial

/-- A request of the tenant is denied exactly where it counts twenty. -/
theorem denied_iff {ttlMinutes : Option Nat} (hvalid : validTtl ttlMinutes) :
    (∃ t, step sha256 s (.createToken tenantId ttlMinutes) = some t ∧ t.calls = s.calls) ↔
      maxPendingTokensPerTenant ≤ s.pending tenantId := by
  have httl : ¬ (ttlMinutes.getD 15 < 1 ∨ 60 < ttlMinutes.getD 15) := by
    unfold validTtl at hvalid
    omega
  simp only [step, if_neg httl]
  by_cases hpending : s.pending tenantId ≥ maxPendingTokensPerTenant
  · simp only [if_pos hpending]
    exact ⟨fun _ => hpending, fun _ => ⟨s, rfl, rfl⟩⟩
  · simp only [if_neg hpending]
    constructor
    · rintro ⟨t, ht, hcalls⟩
      cases ht
      simp [State.addCall] at hcalls
    · intro h
      exact absurd h hpending

theorem denialDue_iff {a : Action} : DenialDue sha256 tenantId s a ↔ NotStarved tenantId s a := by
  cases a with
  | createToken tenantId' ttlMinutes =>
    constructor
    · intro h ht hvalid hpending
      exact h ht hvalid ((denied_iff hvalid).mpr hpending)
    · intro h ht hvalid hdenied
      exact h ht hvalid ((denied_iff hvalid).mp hdenied)
  | _ => exact Iff.rfl

end

/-- A tenant's requests are denied as the quota says exactly where no expired tokens make up
their counts, and its tokens are created as the quota says, and are never more than twenty
pending ones, where no request passes the count while the others under way take up the room. -/
theorem quota_decides (sha256 : String → String) (now : Int) (tenantId : String)
    (as : List Action) :
    (Meets (step sha256) (DenialDue sha256 tenantId) { now } as ↔
      Meets (step sha256) (NotStarved tenantId) { now } as) ∧
    (Meets (step sha256) (NotCrowded tenantId) { now } as →
      Meets (step sha256) (MintDue sha256 tenantId) { now } as ∧
      Always (step sha256) (fun s => s.pendingNow tenantId ≤ maxPendingTokensPerTenant)
        { now } as) := by
  have hempty : Roomy tenantId { now } := Nat.zero_le _
  refine ⟨meets_congr fun s a t _ => denialDue_iff, ?_⟩
  intro hcond
  refine ⟨?_, ?_⟩
  · exact meets_of_meets Roomy.step (fun s a t hroomy _ _ => hroomy.mintDue) hempty hcond
  · apply (always_of_meets Roomy.step hempty hcond).mono
    intro s hroomy
    exact Nat.le_trans (Nat.le_add_right _ _) hroomy

def plainHash (text : String) : String := text

def oneMint : List Action := [.createToken "t" none, .mint 0 "1" "token"]

theorem one_mint_due : Meets (step plainHash) (MintDue plainHash "t") {} oneMint ∧
    Always (step plainHash) (fun s => s.pendingNow "t" ≤ 20) {} oneMint := by
  apply (quota_decides plainHash 0 "t" oneMint).2
  intro t _
  refine ⟨?_, fun u _ => ⟨trivial, trivial⟩⟩
  intro _ _ _
  decide

def nthText (n : Nat) : String := String.ofList (List.replicate n 'a')

/-- Twenty tokens are minted one after the other, and time passes until none is claimable. -/
def mintAndWait : List Action :=
  ((List.range 20).flatMap fun i =>
    [.createToken "t" none, .mint i (nthText i) (nthText i)]) ++ [.tick 900000]

def expiredState : State := (exec (step plainHash) {} mintAndWait).getD {}

theorem expired_run : exec (step plainHash) {} mintAndWait = some expiredState := by
  decide +kernel

/-- Twenty tokens that nobody can claim any more keep their tenant from minting. -/
theorem expired_tokens_starve : ¬ ∀ (sha256 : String → String) (now : Int) (tenantId : String)
    (as : List Action), Meets (step sha256) (DenialDue sha256 tenantId) { now } as ∧
      Meets (step sha256) (MintDue sha256 tenantId) { now } as ∧
      Always (step sha256) (fun s => s.pendingNow tenantId ≤ maxPendingTokensPerTenant)
        { now } as := by
  intro h
  obtain ⟨hdenial, -, -⟩ := h plainHash 0 "t" (mintAndWait ++ [.createToken "t" none])
  have hvalid : validTtl none := by decide
  have hpending : maxPendingTokensPerTenant ≤ expiredState.pending "t" := by decide +kernel
  have hnone : expiredState.pendingNow "t" = 0 := by decide +kernel
  obtain ⟨t, ht, hcalls⟩ := (denied_iff hvalid).mpr hpending
  have hdue := hdenial.last expired_run (ht ▸ Option.some_ne_none t)
  have hle := hdue rfl hvalid ⟨t, ht, hcalls⟩
  rw [hnone] at hle
  exact absurd hle (by decide)

end WaOps.Gateway
