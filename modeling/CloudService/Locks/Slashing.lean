/-
  A slash is final. An outpoint is frozen when it is locked and only SLASHED stakes claim it; no
  step releases it, as long as no lock is taken twice and no RENEW finds its stake SLASHED.
-/

import CloudService.Locks.LiveStakes
import CloudService.Locks.Step

namespace CloudService

/-- The outpoint is locked, and nobody but SLASHED stakes has a claim on it. -/
structure Frozen (c : OPoICache) (x : COutPoint) (a : String) : Prop where
  locked : c.lockedBy x = some a
  claims : ∀ o b, c.claim o = some (x, b) → ∃ m s, o = .stake m ∧ c.mapStakes[m]? = some s ∧
    s.stakeStatus = .slashed

/-- `lockSafe` and `renewSafe` at the turn of an OPoI transaction. -/
def SlashSafe (env : Env) (_ : NodeState) (st : LoopState) (tx : CTransaction) : Prop :=
  tx.isOPoITx = true → lockSafe env st.cache tx = true ∧ renewSafe st.cache tx = true
deriving Decidable

section Slashing

variable {env : Env} {node : NodeState} {c c' : OPoICache} {tx : CTransaction} {x : COutPoint}
  {a m : String} {s : OPoIStake}

theorem SlashSafe.lockSafe {st : LoopState} (h : SlashSafe env node st tx) :
    LockSafe env node st tx := fun hOPoI => (h hOPoI).1

/-! ## Frozen outpoints -/

theorem Frozen.not_open (h : Frozen c x a) {r : String} {ch : OPoIChallenge}
    (hCh : c.mapChallenges[r]? = some ch) (hOpen : ch.isOpen = true) :
    ch.challengerCollateral ≠ x := by
  rintro rfl
  have hClaim : c.claim (.challenge r) = some (ch.challengerCollateral, ch.challengerAddress) := by
    simp [OPoICache.claim, hCh, OPoIChallenge.claim, hOpen]
  obtain ⟨m, s, hOwner, _⟩ := h.claims _ _ hClaim
  cases hOwner

theorem Frozen.drop (h : Frozen c x a) (hDrop : LockDrop c c') : Frozen c' x a where
  locked := by
    rcases hDrop.locked x with hSame | ⟨_, o, b, hOwn, _, hStake⟩
    · rw [hSame]
      exact h.locked
    · obtain ⟨m, s, hOwner, hGet, hSlashed⟩ := h.claims o b hOwn
      exact absurd hSlashed (hStake m s hOwner hGet)
  claims o b hOwn := by
    obtain ⟨m, s, hOwner, hGet, hSlashed⟩ := h.claims o b (hDrop.claims o x b hOwn)
    obtain ⟨s', hGet', hEvolves⟩ := hDrop.stakes.get hGet
    have hStatus := hEvolves.status
    rw [hSlashed] at hStatus
    exact ⟨m, s', hOwner, hGet', hStatus.of_slashed⟩

theorem LockInvariant.frozen (h : LockInvariant node.cache c) (hPre : LockDiscipline node.cache)
    (hStake : c.mapStakes[m]? = some s) (hSlashed : s.stakeStatus = .slashed) :
    Frozen c s.collateralIn m ∧
      ∀ (r : String) (ch : OPoIChallenge), node.cache.mapChallenges[r]? = some ch →
        ch.isOpen = true → ch.challengerCollateral ≠ s.collateralIn := by
  have hClaim : c.claim (.stake m) = some (s.collateralIn, m) := by
    simp [OPoICache.claim, hStake, OPoIStake.claim, OPoIStake.isLive, hSlashed,
      h.stakeKeyed m s hStake]
  refine ⟨⟨h.consistent.backed hClaim, fun o b hOwn => ?_⟩, fun r ch hCh hOpen hEq => ?_⟩
  · exact ⟨m, s, h.consistent.exclusive hOwn hClaim, hStake, hSlashed⟩
  · rw [← hEq] at hClaim
    have hOwner := h.claim_of_open hPre hCh hOpen hClaim
    cases hOwner

/-! ## One transaction -/

theorem AcceptedTx.renew_live (h : AcceptedTx env node tx) (hOPoI : tx.isOPoITx = true)
    (hInv : LockInvariant node.cache c) (hType : tx.opoiType = .renew) :
    ∃ s : OPoIStake, c.mapStakes[tx.opoiMinerAddress]? = some s ∧ s.isLive = true := by
  have hBranch := checkOPoITransaction_branch h.checked hOPoI
  rw [hType] at hBranch
  obtain ⟨s, hStake, hStatus⟩ := checkRenew_eq_ok hBranch
  refine hInv.liveKept _ s hStake ?_
  rcases hStatus with hStatus | hStatus
  · simp [OPoIStake.isLive, hStatus]
  · simp [OPoIStake.isLive, hStatus]

theorem AcceptedTx.revealedBy_open (h : AcceptedTx env node tx) (hOPoI : tx.isOPoITx = true)
    (hInv : LockInvariant node.cache c) {cur : OPoIChallenge} (hCur : c.revealedBy tx = some cur) :
    ∃ ch, node.cache.mapChallenges[tx.opoiRequestId]? = some ch ∧ ch.isOpen = true ∧
      cur.challengerCollateral = ch.challengerCollateral := by
  unfold OPoICache.revealedBy at hCur
  split at hCur
  · rename_i hReveal
    have hBranch := checkOPoITransaction_branch h.checked hOPoI
    rw [hReveal.1] at hBranch
    obtain ⟨_, _, hPhase⟩ := checkChallenge_eq_ok hBranch
    rw [if_neg hReveal.2] at hPhase
    obtain ⟨ch, hCh, hOpen, _⟩ := checkChallengeReveal_eq_ok hPhase
    obtain ⟨ch', hCh', hCollateral, _⟩ := hInv.openKept _ ch hCh hOpen
    rw [hCh'] at hCur
    cases hCur
    exact ⟨ch, hCh, hOpen, hCollateral⟩
  · cases hCur

theorem lockSafe_apart (hLock : lockSafe env c tx = true) (hLocked : c.lockedBy x = some a) :
    ∀ lock, c.lockOf tx = some lock → lock.1 ≠ x := by
  rintro lock hOf rfl
  rw [lockSafe, Bool.and_eq_true, hOf] at hLock
  have hFree := c.isLockedUTXO_eq_false.mp (by simpa using hLock.1)
  rw [hLocked] at hFree
  cases hFree

theorem Frozen.apply (h : Frozen c x a) (hInv : LockInvariant node.cache c)
    (hClosed : ∀ (r : String) (ch : OPoIChallenge), node.cache.mapChallenges[r]? = some ch →
      ch.isOpen = true → ch.challengerCollateral ≠ x)
    (hTx : AcceptedTx env node tx) (hOPoI : tx.isOPoITx = true)
    (hLock : lockSafe env c tx = true) (hRenew : renewSafe c tx = true) :
    Frozen (applyOPoITransaction env node.chainActive node.nextHeight c tx) x a := by
  have hApart := lockSafe_apart hLock h.locked
  have hNotRevealed : ∀ cur, c.revealedBy tx = some cur → cur.challengerCollateral ≠ x := by
    intro cur hCur
    obtain ⟨ch, hCh, hOpen, hCollateral⟩ := hTx.revealedBy_open hOPoI hInv hCur
    rw [hCollateral]
    exact hClosed _ ch hCh hOpen
  refine ⟨lockedBy_kept (hTx.auditor_not_null hOPoI) h.locked hApart fun cur hCur hEq =>
    absurd hEq (hNotRevealed cur hCur), fun o b hOwn => ?_⟩
  rcases claim_applyOPoITransaction (hTx.auditor_not_null hOPoI) (hTx.renew_live hOPoI hInv) hOwn
    with hOld | hOf | ⟨cur, hCur, hEq, _⟩
  · obtain ⟨m, s, rfl, hStake, hSlashed⟩ := h.claims o b hOld
    -- A STAKE of the same miner would claim its own collateral, which is another outpoint.
    have hOther : ¬ (tx.opoiType = .stake ∧ tx.opoiMinerAddress = m) := by
      rintro ⟨hType, rfl⟩
      simp only [applyOPoITransaction, hType] at hOwn
      rw [claim_applyStake, if_pos rfl] at hOwn
      refine hApart (tx.opoiCollateralIn, tx.opoiMinerAddress) ?_ (by cases hOwn; rfl)
      simp [OPoICache.lockOf, hType]
    obtain ⟨s', hGet, _, hStatus⟩ := slashed_kept hStake hSlashed hRenew hOther
    exact ⟨m, s', rfl, hGet, hStatus⟩
  · exact absurd rfl (hApart (x, b) hOf)
  · exact absurd hEq (hNotRevealed cur hCur)

/-! ## Runs -/

theorem preserved_lockInvariant_of_slashSafe :
    Preserved env (SlashSafe env) fun node c => LockInvariant node.cache c :=
  preserved_lockInvariant.mono fun _ _ _ h => h.lockSafe

theorem preservedUnder_frozen :
    PreservedUnder env (SlashSafe env) (fun node c => LockInvariant node.cache c)
      fun node c => Frozen c x a ∧
        ∀ (r : String) (ch : OPoIChallenge), node.cache.mapChallenges[r]? = some ch →
          ch.isOpen = true → ch.challengerCollateral ≠ x where
  onTx _ _ _ _ hCur hK hTx hOPoI hSafe :=
    ⟨hK.1.apply hCur hK.2 hTx hOPoI (hSafe hOPoI).1 (hSafe hOPoI).2, hK.2⟩
  onPasses node block c view _ hCur hK _ := by
    have hFrozen : Frozen (connectPasses env node.nextHeight block.vtx c) x a :=
      hK.1.drop (lockDrop_connectPasses hCur.toLockDiscipline block.vtx)
    exact ⟨hFrozen, fun _ _ hCh hOpen => hFrozen.not_open hCh hOpen⟩
  onQuiet _ _ _ _ hK := hK

theorem preservedUnder_slashed (ident : StakeIdentity) :
    PreservedUnder env
      (fun node st tx => SlashSafe env node st tx ∧
        ¬ (tx.isOPoI .stake = true ∧ tx.opoiMinerAddress = m))
      (fun node c => LockInvariant node.cache c)
      fun _ c => ∃ s', c.mapStakes[m]? = some s' ∧ s'.identity = ident ∧
        s'.stakeStatus = .slashed where
  onTx node st tx _ _ hK _ hOPoI hOk := by
    obtain ⟨s, hStake, hIdentity, hSlashed⟩ := hK
    have hOther : ¬ (tx.opoiType = .stake ∧ tx.opoiMinerAddress = m) := by
      rintro ⟨hType, hMiner⟩
      exact hOk.2 ⟨by simp [CTransaction.isOPoI, hOPoI, hType], hMiner⟩
    obtain ⟨s', hGet, hSame, hStatus⟩ := slashed_kept hStake hSlashed (hOk.1 hOPoI).2 hOther
    exact ⟨s', hGet, hSame.trans hIdentity, hStatus⟩
  onPasses node block c view _ _ hK _ := by
    obtain ⟨s, hStake, hIdentity, hSlashed⟩ := hK
    have hEvolve : StakesEvolve c (connectPasses env node.nextHeight block.vtx c) :=
      passPreserved_stakesEvolve.connectPasses (.refl c) block.vtx
    obtain ⟨s', hGet, hEvolves⟩ := hEvolve.get hStake
    have hStatus := hEvolves.status
    rw [hSlashed] at hStatus
    exact ⟨s', hGet, hEvolves.identity.trans hIdentity, hStatus.of_slashed⟩
  onQuiet _ _ _ _ hK := hK

/-- The collateral is still locked, and the record still SLASHED unless a new STAKE replaced it. -/
def SlashFinal (m : String) (s : OPoIStake) (inputs : List Input) (later : OPoICache) : Prop :=
  later.mapLockedUTXOs[s.collateralIn]? = some m ∧
    ((∃ s', later.mapStakes[m]? = some s' ∧ s'.identity = s.identity ∧ s'.stakeStatus = .slashed) ∨
      ∃ tx, Input.tx tx ∈ inputs ∧ tx.isOPoI .stake = true ∧ tx.opoiMinerAddress = m)

/-- In every run that takes no lock twice and in which no RENEW finds its stake SLASHED, every
    slash is final, also between the transactions of a block. -/
theorem slashFinal_of_run {early late : Machine} {inputs inputs' : List Input}
    (hBefore : SmallRun env (onTx (SlashSafe env)) inputs early)
    (hAfter : Run.Steps (smallStep env) (onTx (SlashSafe env)) early inputs' late)
    (hStake : early.cache.mapStakes[m]? = some s) (hSlashed : s.stakeStatus = .slashed) :
    SlashFinal m s inputs' late.cache := by
  have hSat : early.Satisfies env fun node c => LockInvariant node.cache c :=
    preserved_lockInvariant_of_slashSafe.run hBefore lockDiscipline_empty.invariant
  have hEarly : LockInvariant early.node.cache early.cache ∧
      LockDiscipline early.node.cache := by
    cases early with
    | idle node => exact ⟨hSat, hSat.toLockDiscipline⟩
    | busy node block rest st => exact ⟨hSat.1, hSat.2.1.toLockDiscipline⟩
  constructor
  · exact (preservedUnder_frozen.run preserved_lockInvariant_of_slashSafe hAfter hSat
      (hEarly.1.frozen hEarly.2 hStake hSlashed)).1.locked
  · by_cases hNew : ∃ tx, Input.tx tx ∈ inputs' ∧ tx.isOPoI .stake = true ∧ tx.opoiMinerAddress = m
    · exact .inr hNew
    · have hStrong := hAfter.strengthen (q := fun i => ∀ tx, i = .tx tx →
          ¬ (tx.isOPoI .stake = true ∧ tx.opoiMinerAddress = m)) fun i hMem tx hEq hTx =>
        hNew ⟨tx, hEq ▸ hMem, hTx⟩
      refine .inl ((preservedUnder_slashed s.identity).run
        (preserved_lockInvariant_of_slashSafe.mono fun _ _ _ h => h.1)
        (hStrong.weaken fun m i hOk => ?_) hSat ⟨s, hStake, rfl, hSlashed⟩)
      cases m with
      | idle node => trivial
      | busy node block rest st =>
        cases i with
        | start block => trivial
        | finish => trivial
        | tx tx => exact ⟨hOk.1, hOk.2 tx rfl⟩

/-- A settled challenge followed by one more block. -/
theorem slashFinal_of_settled_challenge : ∃ (early late : Machine) (s : OPoIStake),
    SmallRun sampleNet (onTx (SlashSafe sampleNet))
      ((sampleChallengedBlocks ++ [sampleSettlement []]).flatMap blockInputs) early ∧
    Run.Steps (smallStep sampleNet) (onTx (SlashSafe sampleNet))
      early (blockInputs (sampleBlock 9 [])) late ∧
    early.cache.mapStakes[sampleMiner]? = some s ∧ s.stakeStatus = .slashed ∧
    SlashFinal sampleMiner s (blockInputs (sampleBlock 9 [])) late.cache := by
  obtain ⟨early, hBefore, ⟨s, hStake, hStatus⟩, late, hAfter, _⟩ : ∃ early,
      SmallRun sampleNet (onTx (SlashSafe sampleNet))
        ((sampleChallengedBlocks ++ [sampleSettlement []]).flatMap blockInputs) early ∧
      (∃ s, early.cache.mapStakes[sampleMiner]? = some s ∧ s.stakeStatus = .slashed) ∧
      ∃ late, Run.exec (smallStep sampleNet)
        (onTx (SlashSafe sampleNet)) .other early (blockInputs (sampleBlock 9 [])) =
        .ok late ∧ True := Run.exists_steps .other (by decide +kernel)
  have hAfter := Run.Steps.of_exec hAfter
  exact ⟨early, late, s, hBefore, hAfter, hStake, hStatus,
    slashFinal_of_run hBefore hAfter hStake hStatus⟩

/-- A RENEW after the REVEAL in the same block makes the SLASHED stake ACTIVE again: it is
    checked against the cache at the start of the block, where the stake is ACTIVE. -/
theorem not_slashFinal_of_renew : ∃ (early late : Machine) (s : OPoIStake),
    SmallRun sampleNet (fun _ _ => True)
      (sampleChallengedBlocks.flatMap blockInputs ++
        [.start (sampleSettlement [sampleRenew sampleMiner 8]),
         .tx (sampleCoinbase [("miner", 5)] 8),
         .tx (sampleChallengeReveal "r" "bob" ⟨4002, 2⟩ 7)]) early ∧
    Run.Steps (smallStep sampleNet) (fun _ _ => True) early
      [.tx (sampleRenew sampleMiner 8), .finish] late ∧
    early.cache.mapStakes[sampleMiner]? = some s ∧ s.stakeStatus = .slashed ∧
    ¬ SlashFinal sampleMiner s [.tx (sampleRenew sampleMiner 8), .finish] late.cache := by
  refine ⟨_, _, _, Run.steps_value .other (by decide +kernel),
    Run.steps_value .other (by decide +kernel), Run.eq_valueOf (by decide +kernel),
    by decide +kernel, ?_⟩
  rintro ⟨_, ⟨s', hLate, _, hSlashed⟩ | ⟨tx, hMem, hStakeTx, _⟩⟩
  · have hStatus := congrArg (Option.map OPoIStake.stakeStatus) hLate
    rw [Option.map_some, hSlashed] at hStatus
    exact absurd hStatus (by decide +kernel)
  · simp only [List.mem_cons, Input.tx.injEq, reduceCtorEq, List.not_mem_nil, or_false] at hMem
    subst hMem
    exact absurd hStakeTx (by decide)

end Slashing

end CloudService
