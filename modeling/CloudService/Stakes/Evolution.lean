/-
  The life of a stake record between its STAKE and the next one: the fields that
  the STAKE fixed never change, and the status moves along

      ACTIVE -> UNSTAKING -> RELEASED,   ACTIVE -> SUSPENDED,   ACTIVE -> SLASHED.

  Only a RENEW leaves this order: it makes a record ACTIVE whatever its status was.
-/

import CloudService.OPoI.Effects

namespace CloudService

/-- A stake that is not RELEASED: ACTIVE, UNSTAKING, SUSPENDED or SLASHED. -/
def OPoIStake.isLive (s : OPoIStake) : Bool := s.stakeStatus != .released

def renewSafe (c : OPoICache) (tx : CTransaction) : Bool :=
  tx.opoiType != .renew ||
    !(c.mapStakes[tx.opoiMinerAddress]?).any (·.stakeStatus == .slashed)

structure StakeIdentity where
  minerAddress : String
  collateralIn : COutPoint
  amount : CAmount
  blockHeight : Nat
  txHash : Uint256
deriving Repr, DecidableEq

/-- The fields that no later transaction or pass changes. -/
def OPoIStake.identity (s : OPoIStake) : StakeIdentity :=
  ⟨s.minerAddress, s.collateralIn, s.amount, s.blockHeight, s.txHash⟩

def StakeStatus.Later (a b : StakeStatus) : Prop :=
  b = a ∨ a = .active ∨ (a = .unstaking ∧ b = .released)

theorem StakeStatus.Later.trans {a b d : StakeStatus} (h₁ : a.Later b) (h₂ : b.Later d) :
    a.Later d := by
  rcases h₁ with rfl | rfl | ⟨rfl, rfl⟩
  · exact h₂
  · exact .inr (.inl rfl)
  · rcases h₂ with rfl | hActive | ⟨hUnstaking, _⟩
    · exact .inr (.inr ⟨rfl, rfl⟩)
    · cases hActive
    · cases hUnstaking

theorem StakeStatus.Later.of_slashed {b : StakeStatus} (h : StakeStatus.slashed.Later b) :
    b = .slashed := by
  rcases h with rfl | hActive | ⟨hUnstaking, _⟩
  · rfl
  · cases hActive
  · cases hUnstaking

structure OPoIStake.Evolves (s s' : OPoIStake) : Prop where
  identity : s'.identity = s.identity
  status : s.stakeStatus.Later s'.stakeStatus

theorem OPoIStake.Evolves.refl (s : OPoIStake) : s.Evolves s := ⟨rfl, .inl rfl⟩

theorem OPoIStake.Evolves.trans {s t u : OPoIStake} (h₁ : s.Evolves t) (h₂ : t.Evolves u) :
    s.Evolves u :=
  ⟨h₂.identity.trans h₁.identity, h₁.status.trans h₂.status⟩

section Updates

variable (env : Env) (blockHeight : Nat) (s : OPoIStake)

theorem slashStake_evolves : s.Evolves (slashStake s) := by
  unfold slashStake
  split
  · rename_i hActive
    have hStatus : s.stakeStatus = .active := by simpa [OPoIStake.isActive] using hActive
    exact ⟨rfl, .inr (.inl hStatus)⟩
  · exact .refl s

theorem suspendOverdue_evolves : s.Evolves (suspendOverdue env blockHeight s) := by
  unfold suspendOverdue
  split
  · rename_i hOverdue
    have hStatus : s.stakeStatus = .active := by
      simp only [Bool.and_eq_true, OPoIStake.isActive, beq_iff_eq] at hOverdue
      exact hOverdue.1
    exact ⟨rfl, .inr (.inl hStatus)⟩
  · exact .refl s

theorem strikeCanary_evolves : s.Evolves (strikeCanary s) := by
  refine ⟨rfl, ?_⟩
  unfold strikeCanary
  split
  · rename_i hStrikes
    have hStatus : s.stakeStatus = .active := by simpa [OPoIStake.isActive] using hStrikes.2
    exact .inr (.inl hStatus)
  · exact .inl rfl

theorem strikeMissed_evolves : s.Evolves (strikeMissed blockHeight s) := by
  unfold strikeMissed
  split
  · exact .refl s
  · exact strikeCanary_evolves s

end Updates

/-! ## All records at once -/

def StakesEvolve (c c' : OPoICache) : Prop :=
  ∀ m : String, Option.Rel OPoIStake.Evolves c.mapStakes[m]? c'.mapStakes[m]?

namespace StakesEvolve

variable {c c' c'' : OPoICache} {m : String} {s s' : OPoIStake}

theorem of_eq (h : c'.mapStakes = c.mapStakes) : StakesEvolve c c' := by
  intro m
  rw [h]
  cases c.mapStakes[m]? with
  | none => exact .none
  | some s => exact .some (.refl s)

theorem refl (c : OPoICache) : StakesEvolve c c := of_eq rfl

theorem trans (h₁ : StakesEvolve c c') (h₂ : StakesEvolve c' c'') : StakesEvolve c c'' := by
  intro m
  have hFirst := h₁ m
  have hSecond := h₂ m
  generalize c.mapStakes[m]? = x at hFirst ⊢
  generalize c'.mapStakes[m]? = y at hFirst hSecond
  generalize c''.mapStakes[m]? = z at hSecond ⊢
  cases hFirst with
  | none =>
    cases hSecond with
    | none => exact .none
  | some hEarly =>
    cases hSecond with
    | some hLate => exact .some (hEarly.trans hLate)

theorem get (h : StakesEvolve c c') (hStake : c.mapStakes[m]? = some s) :
    ∃ s', c'.mapStakes[m]? = some s' ∧ s.Evolves s' := by
  have hRel := h m
  rw [hStake] at hRel
  generalize c'.mapStakes[m]? = y at hRel ⊢
  cases hRel with
  | some hEvolves => exact ⟨_, rfl, hEvolves⟩

theorem get_before (h : StakesEvolve c c') (hStake : c'.mapStakes[m]? = some s') :
    ∃ s, c.mapStakes[m]? = some s ∧ s.Evolves s' := by
  have hRel := h m
  rw [hStake] at hRel
  generalize c.mapStakes[m]? = y at hRel ⊢
  cases hRel with
  | some hEvolves => exact ⟨_, rfl, hEvolves⟩

theorem modifyStake {f : OPoIStake → OPoIStake}
    (h : ∀ s, c.mapStakes[m]? = some s → s.Evolves (f s)) : StakesEvolve c (c.modifyStake m f) := by
  intro m'
  simp only [OPoICache.modifyStake, TreeMap.getElem?_modify_eq]
  cases hStake : c.mapStakes[m']? with
  | none => simp
  | some s =>
    split
    · rename_i hEq
      subst hEq
      exact .some (h s hStake)
    · exact .some (.refl s)

theorem modifyResponderStake {r : String} {f : OPoIStake → OPoIStake}
    (h : ∀ s : OPoIStake, s.Evolves (f s)) :
    StakesEvolve c (CloudService.modifyResponderStake c r f) := by
  unfold CloudService.modifyResponderStake
  split
  · exact modifyStake fun s _ => h s
  · exact refl c

theorem mapStakes {f : OPoIStake → OPoIStake} (h : ∀ s : OPoIStake, s.Evolves (f s)) :
    StakesEvolve c { c with mapStakes := c.mapStakes.map fun _ s => f s } := by
  intro m
  rw [Std.ExtTreeMap.getElem?_map]
  cases c.mapStakes[m]? with
  | none => exact .none
  | some s => exact .some (h s)

end StakesEvolve

/-! ## Transactions and passes -/

section Steps

variable {env : Env} {chainActive : List Uint256} {blockHeight : Nat} {c c₁ : OPoICache}
  {tx : CTransaction}

theorem stakesEvolve_unstake : StakesEvolve c (applyUnstake env blockHeight c tx) := by
  unfold applyUnstake
  rw [startUnstake_eq]
  refine .modifyStake fun s _ => ?_
  split
  · rename_i hActive
    have hStatus : s.stakeStatus = .active := by simpa [OPoIStake.isActive] using hActive
    exact ⟨rfl, .inr (.inl hStatus)⟩
  · exact .refl s

theorem stakesEvolve_challengeReveal : StakesEvolve c (applyChallengeReveal env c tx) := by
  cases hCh : c.mapChallenges[tx.opoiRequestId]? with
  | none =>
    unfold applyChallengeReveal
    rw [hCh]
    exact .refl c
  | some ch =>
    rw [applyChallengeReveal_eq env c tx hCh]
    by_cases hSlashed : revealOutcome env c tx = .slashed
    · have hSlash : StakesEvolve c (modifyResponderStake c tx.opoiRequestId slashStake) :=
        .modifyResponderStake slashStake_evolves
      rw [modifyResponderStake_eq] at hSlash
      simp only [hSlashed]
      exact hSlash
    · simp only [hSlashed, if_false]
      exact .of_eq rfl

theorem lockVote_mapStakes (verifs : List AuditorVerification) (fv : AuditorVerification) :
    (c.lockVote verifs fv).mapStakes = c.mapStakes := by
  unfold OPoICache.lockVote
  split
  · rfl
  · split
    · rfl
    · rfl

theorem applyOPoITransaction_stakesEvolve (hStake : tx.opoiType ≠ .stake)
    (hRenew : tx.opoiType ≠ .renew) :
    StakesEvolve c (applyOPoITransaction env chainActive blockHeight c tx) := by
  unfold applyOPoITransaction
  cases hType : tx.opoiType with
  | stake => exact absurd hType hStake
  | renew => exact absurd hType hRenew
  | request => exact .of_eq rfl
  | response =>
    simp only
    split
    · exact .of_eq rfl
    · exact StakesEvolve.modifyStake (c := c) (m := tx.opoiMinerAddress)
        (f := fun s => { s with responsesTotal := u32 (s.responsesTotal + 1) })
        fun s _ => ⟨rfl, .inl rfl⟩
  | unstake => exact stakesEvolve_unstake
  | challenge =>
    simp only
    split
    · unfold applyChallengeCommit
      refine StakesEvolve.trans ?_ (.modifyResponderStake fun s => ⟨rfl, .inl rfl⟩)
      exact .of_eq rfl
    · exact stakesEvolve_challengeReveal
  | auditorVerify =>
    simp only [applyAuditorVerify]
    split
    · exact .of_eq (lockVote_mapStakes _ _)
    · exact .of_eq (lockVote_mapStakes _ _)
  | modelRegister => exact .of_eq rfl
  | modelVote =>
    simp only [applyModelVote, OPoICache.addModelVote]
    split
    · exact .of_eq rfl
    · exact .refl c
  | coordinatorClaim => exact .of_eq rfl
  | shardResult => exact .of_eq rfl
  | unknown => exact .refl c

theorem applyRenew_slashed_kept {m : String} {s : OPoIStake} (hStake : c.mapStakes[m]? = some s)
    (hSlashed : s.stakeStatus = .slashed)
    (hOther : ∀ t, c.mapStakes[tx.opoiMinerAddress]? = some t → t.stakeStatus ≠ .slashed) :
    (applyRenew blockHeight c tx).mapStakes[m]? = some s := by
  have hNe : tx.opoiMinerAddress ≠ m := by
    rintro rfl
    exact hOther s hStake hSlashed
  simp [applyRenew, OPoICache.modifyStake, hNe, hStake]

theorem slashed_kept {m : String} {s : OPoIStake}
    (hStake : c.mapStakes[m]? = some s) (hSlashed : s.stakeStatus = .slashed)
    (hRenew : renewSafe c tx = true)
    (hOther : ¬ (tx.opoiType = .stake ∧ tx.opoiMinerAddress = m)) :
    ∃ s', (applyOPoITransaction env chainActive blockHeight c tx).mapStakes[m]? = some s' ∧
      s'.identity = s.identity ∧ s'.stakeStatus = .slashed := by
  by_cases hTypeStake : tx.opoiType = .stake
  · have hNe : tx.opoiMinerAddress ≠ m := fun hEq => hOther ⟨hTypeStake, hEq⟩
    refine ⟨s, ?_, rfl, hSlashed⟩
    simp [applyOPoITransaction, hTypeStake, applyStake, OPoICache.addStake, OPoICache.lockUTXO,
      newStake, hNe, hStake]
  · by_cases hTypeRenew : tx.opoiType = .renew
    · refine ⟨s, ?_, rfl, hSlashed⟩
      simp only [applyOPoITransaction, hTypeRenew]
      refine applyRenew_slashed_kept hStake hSlashed fun t hGet hStatus => ?_
      simp [renewSafe, hTypeRenew, hGet, hStatus] at hRenew
    · have hEvolve : StakesEvolve c (applyOPoITransaction env chainActive blockHeight c tx) :=
        applyOPoITransaction_stakesEvolve hTypeStake hTypeRenew
      obtain ⟨s', hGet, hEvolves⟩ := hEvolve.get hStake
      have hStatus := hEvolves.status
      rw [hSlashed] at hStatus
      exact ⟨s', hGet, hEvolves.identity, hStatus.of_slashed⟩

theorem stakesEvolve_expireChallenge (key : String) :
    StakesEvolve c (expireChallenge env blockHeight c key) := by
  unfold expireChallenge
  split
  · exact .refl c
  · rename_i ch _
    split
    · split
      · exact .refl c
      · exact .of_eq rfl
    · split
      · split
        · exact .trans (.modifyResponderStake slashStake_evolves) (.of_eq rfl)
        · exact .of_eq rfl
        · exact .refl c
      · exact .refl c

theorem stakesEvolve_releaseStake (key : String) :
    StakesEvolve c (releaseStake env blockHeight c key) := by
  unfold releaseStake
  cases hStake : c.mapStakes[key]? with
  | none => exact .refl c
  | some stake =>
    simp only
    split
    · rename_i hRelease
      have hUnstaking : stake.stakeStatus = .unstaking := by
        simp only [Bool.and_eq_true, OPoIStake.isUnstaking, beq_iff_eq] at hRelease
        exact hRelease.1
      refine StakesEvolve.modifyStake (c := c) (m := key)
        (f := fun s => { s with stakeStatus := .released }) fun s hGet => ?_
      rw [hStake] at hGet
      cases hGet
      exact ⟨rfl, .inr (.inr ⟨hUnstaking, rfl⟩)⟩
    · exact .refl c

theorem stakesEvolve_assignCanary : StakesEvolve c (assignCanary env blockHeight c) := by
  unfold assignCanary
  simp only
  split
  · exact .refl c
  · split
    · exact .refl c
    · exact .modifyStake fun s _ => ⟨rfl, .inl rfl⟩

theorem stakesEvolve_resolveCanary {majority : Nat} {requestId : String} :
    StakesEvolve c (resolveCanary majority c requestId) := by
  unfold resolveCanary
  split
  · exact .refl c
  · split
    · exact .refl c
    · split
      · exact .modifyResponderStake strikeCanary_evolves
      · split
        · exact .modifyResponderStake fun s => ⟨rfl, .inl rfl⟩
        · exact .refl c

theorem stakesEvolve_resolveAuditors (requestId : String) :
    StakesEvolve c (resolveAuditors env c requestId) := by
  rcases resolveAuditors_cases env c requestId with hEq | ⟨_, _, _, _, _, hEq⟩
  · rw [hEq]
    exact .refl c
  · rw [hEq]
    refine StakesEvolve.trans ?_ stakesEvolve_resolveCanary
    exact .of_eq rfl

theorem stakesEvolve_resolveShardAuditors (key : String) :
    StakesEvolve c (resolveShardAuditors env c key) := by
  rcases resolveShardAuditors_cases env c key with hEq | ⟨_, _, _, _, _, _, _, _, _, hEq⟩
  · rw [hEq]
    exact .refl c
  · rw [hEq]
    exact .of_eq rfl

theorem passPreserved_stakesEvolve : PassPreserved env blockHeight (StakesEvolve c₁) where
  rewardPaid _ _ h := h.trans (.of_eq rfl)
  expireChallenge _ key h := h.trans (stakesEvolve_expireChallenge key)
  releaseStake _ key h := h.trans (stakesEvolve_releaseStake key)
  expireRequests _ h := h.trans (.of_eq rfl)
  closeWindows _ h := h.trans (.of_eq rfl)
  suspendOverdue _ h := h.trans (.mapStakes (suspendOverdue_evolves env blockHeight))
  strikeMissed _ h := h.trans (.mapStakes (strikeMissed_evolves blockHeight))
  assignCanary _ h := h.trans stakesEvolve_assignCanary
  manifestStatus _ _ _ _ h := h.trans (.of_eq rfl)
  shardPaid _ _ _ h := h.trans (.of_eq rfl)
  responsePaid _ _ h := h.trans (.of_eq rfl)
  resolveAuditors _ r h := h.trans (stakesEvolve_resolveAuditors r)
  resolveShardAuditors _ key h := h.trans (stakesEvolve_resolveShardAuditors key)

end Steps

end CloudService
