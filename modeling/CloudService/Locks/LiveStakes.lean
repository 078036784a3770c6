/-
  The collateral of every live stake is locked under its own address, and no two
  live stakes share one: an invariant of the block boundaries, for the runs in
  which no lock is taken twice.
-/

import CloudService.Chain.Evaluate
import CloudService.Locks.Apply
import CloudService.Locks.Passes

namespace CloudService

open OPoICache

/-- The transaction is a CHALLENGE REVEAL whose outcome the auditors have not decided. -/
def isUndecidedReveal (env : Env) (c : OPoICache) (tx : CTransaction) : Bool :=
  tx.opoiType == .challenge && tx.opoiChallengePhase != 0 &&
    isVerifiableRequest c tx.opoiRequestId &&
    c.getAuditorMajorityResult tx.opoiRequestId env.params.nOPoIMinAuditors
      != some AUDITOR_VERIFY_FAIL &&
    c.getAuditorMajorityResult tx.opoiRequestId env.params.nOPoIMinAuditors
      != some AUDITOR_VERIFY_PASS

/-- Only a free outpoint is locked, and an undecided REVEAL finds its collateral still locked. -/
def lockSafe (env : Env) (c : OPoICache) (tx : CTransaction) : Bool :=
  (match c.lockOf tx with
    | some lock => !c.isLockedUTXO lock.1
    | none => true) &&
  (!isUndecidedReveal env c tx ||
    match c.mapChallenges[tx.opoiRequestId]? with
    | some ch => c.isLockedUTXO ch.challengerCollateral
    | none => true)

/-- `lockSafe` at the turn of an OPoI transaction. -/
def LockSafe (env : Env) (_ : NodeState) (st : LoopState) (tx : CTransaction) : Prop :=
  tx.isOPoITx = true → lockSafe env st.cache tx = true
deriving Decidable

section LiveStakes

variable {env : Env} {node : NodeState} {c : OPoICache} {tx : CTransaction}

/-- Every OPoI transaction of a block keeps the discipline. -/
theorem LockInvariant.apply (h : LockInvariant node.cache c) (hPre : LockDiscipline node.cache)
    (hTx : AcceptedTx env node tx) (hOPoI : tx.isOPoITx = true) (hSafe : lockSafe env c tx = true) :
    LockInvariant node.cache
      (applyOPoITransaction env node.chainActive node.nextHeight c tx) := by
  have hBranch := checkOPoITransaction_branch hTx.checked hOPoI
  rw [lockSafe, Bool.and_eq_true] at hSafe
  obtain ⟨hFree, hReveal⟩ := hSafe
  cases hType : tx.opoiType with
  | stake =>
    rw [hType] at hBranch
    obtain ⟨_, hFree₀, _⟩ := checkStake_eq_ok hBranch
    simp only [lockOf, hType, Bool.not_eq_true'] at hFree
    simp only [applyOPoITransaction, hType]
    exact h.stake (node.cache.isLockedUTXO_eq_false.mp hFree₀) (c.isLockedUTXO_eq_false.mp hFree)
  | renew =>
    rw [hType] at hBranch
    obtain ⟨s, hStake, hStatus⟩ := checkRenew_eq_ok hBranch
    have hLive : s.isLive = true := by
      rcases hStatus with hStatus | hStatus
      · simp [OPoIStake.isLive, hStatus]
      · simp [OPoIStake.isLive, hStatus]
    -- The check saw the stake before the block; it is live at this turn too.
    obtain ⟨s', hStake', hLive'⟩ := h.liveKept _ s hStake hLive
    simp only [applyOPoITransaction, hType]
    exact (sameLocks_renew hStake' hLive').invariant h
  | challenge =>
    rw [hType] at hBranch
    obtain ⟨_, _, hPhase⟩ := checkChallenge_eq_ok hBranch
    simp only [applyOPoITransaction, hType]
    split
    · rename_i hCommit
      rw [if_pos hCommit] at hPhase
      obtain ⟨hFree₀, hClosed, _⟩ := checkChallengeCommit_eq_ok hPhase
      simp only [lockOf, hType, hCommit, if_true, Bool.not_eq_true'] at hFree
      exact h.challengeCommit (node.cache.isLockedUTXO_eq_false.mp hFree₀)
        (c.isLockedUTXO_eq_false.mp hFree) hClosed
    · rename_i hNotCommit
      rw [if_neg hNotCommit] at hPhase
      obtain ⟨ch, hCh, hOpen, _⟩ := checkChallengeReveal_eq_ok hPhase
      -- Only an undecided REVEAL goes on needing the collateral.
      refine h.challengeReveal hPre hCh hOpen fun hPending => ?_
      obtain ⟨hVerifiable, hFail, hPass⟩ := revealOutcome_eq_pending.mp hPending
      obtain ⟨cur, hCur, hCollateral, _⟩ := h.openKept _ ch hCh hOpen
      have hUndecided : isUndecidedReveal env c tx = true := by
        simp [isUndecidedReveal, hType, hNotCommit, hVerifiable, hFail, hPass]
      simp only [hUndecided, hCur, Bool.not_true, Bool.false_or] at hReveal
      rw [← hCollateral]
      intro hNone
      rw [c.isLockedUTXO_eq_false.mpr hNone] at hReveal
      cases hReveal
  | auditorVerify =>
    rw [hType] at hBranch
    obtain ⟨hNull, hFree₀, _⟩ := checkAuditorVerify_eq_ok hBranch
    have hFree' : (c.votesFor tx).any (·.auditorAddress == tx.opoiAuditorAddress) = false →
        c.lockedBy tx.opoiAuditorCollateralIn = none := by
      intro hNew
      simp only [lockOf, hType, hNew, Bool.false_eq_true, if_false, Bool.not_eq_true'] at hFree
      exact c.isLockedUTXO_eq_false.mp hFree
    simp only [applyOPoITransaction, hType, applyAuditorVerify]
    unfold votesFor at hFree'
    split
    · rename_i hWhole
      rw [if_pos hWhole] at hFree'
      exact h.auditorVerification (v := newVote env node.nextHeight tx) hNull
        (node.cache.isLockedUTXO_eq_false.mp hFree₀) hFree'
    · rename_i hShard
      rw [if_neg hShard] at hFree'
      exact h.shardAuditorVerification (v := newVote env node.nextHeight tx) hNull
        (node.cache.isLockedUTXO_eq_false.mp hFree₀) hFree'
  | request | response | unstake | modelRegister | modelVote | coordinatorClaim | shardResult
    | unknown =>
    exact (applyOPoITransaction_sameLocks (by simp [hType]) (by simp [hType]) (by simp [hType])
      (by simp [hType])).invariant h

theorem preserved_lockInvariant :
    Preserved env (LockSafe env) fun node c => LockInvariant node.cache c where
  onTx _ _ _ hPre h hTx hOPoI hSafe := h.apply hPre.toLockDiscipline hTx hOPoI (hSafe hOPoI)
  onPasses _ block _ _ _ h _ := by
    rw [NodeState.extend_cache]
    exact ((lockDrop_connectPasses h.toLockDiscipline block.vtx).discipline
      h.toLockDiscipline).invariant
  onQuiet _ _ _ h := h

theorem lockDiscipline_empty : LockDiscipline {} where
  consistent := by
    have hNone : ∀ o, ({} : OPoICache).claim o = none := by
      intro o
      cases o with
      | stake m => rfl
      | challenge r => rfl
      | vote r i => rfl
      | shardVote k i => rfl
    refine ⟨fun h => ?_, fun h => ?_⟩
    · rw [hNone] at h
      cases h
    · rw [hNone] at h
      cases h
  stakeKeyed m s h := by cases h
  shardKeyed key v h := by cases h

/-- Every live stake has its collateral locked under its own address, and shares it with none. -/
def LiveStakesLocked (c : OPoICache) : Prop :=
  (∀ (m : String) (s : OPoIStake), c.mapStakes[m]? = some s → s.isLive = true →
    c.mapLockedUTXOs[s.collateralIn]? = some s.minerAddress) ∧
  ∀ (m m' : String) (s s' : OPoIStake), c.mapStakes[m]? = some s → c.mapStakes[m']? = some s' →
    s.isLive = true → s'.isLive = true → s.collateralIn = s'.collateralIn → m = m'

theorem LockDiscipline.liveStakesLocked (h : LockDiscipline c) : LiveStakesLocked c := by
  have hClaim : ∀ (m : String) (s : OPoIStake), c.mapStakes[m]? = some s → s.isLive = true →
      c.claim (.stake m) = some (s.collateralIn, s.minerAddress) := by
    intro m s hStake hLive
    simp [claim, hStake, OPoIStake.claim, hLive]
  refine ⟨fun m s hStake hLive => h.consistent.backed (hClaim m s hStake hLive), ?_⟩
  intro m m' s s' hStake hStake' hLive hLive' hSame
  have hFirst := hClaim m s hStake hLive
  rw [hSame] at hFirst
  have hOwner := h.consistent.exclusive hFirst (hClaim m' s' hStake' hLive')
  cases hOwner
  rfl

/-- In every run that takes no lock twice, the live stakes are locked at the end of every
    block. -/
theorem forwardRun_liveStakesLocked {blocks : List CBlock}
    (hRun : ForwardRun env (onBlock env (LockSafe env)) blocks node) :
    LiveStakesLocked node.cache :=
  (preserved_lockInvariant.forwardRun lockDiscipline_empty.invariant hRun).liveStakesLocked

def sampleTwoStakes (second : COutPoint) : List CBlock :=
  [sampleFunding, sampleBlock 3 [sampleStake "alice" ⟨4002, 1⟩ 1, sampleStake "bob" second 2]]

/-- Two stakes on their own outputs. -/
theorem liveStakesLocked_of_two_stakes : ∃ node,
    ForwardRun sampleNet
      (onBlock sampleNet (LockSafe sampleNet))
      (sampleTwoStakes ⟨4002, 2⟩) node ∧
    node.cache.isActiveStaker "alice" = true ∧ LiveStakesLocked node.cache := by
  exact Run.exists_steps_imp .other (·.cache.isActiveStaker "alice" = true) (by decide +kernel)
    fun _ hRun hStake => ⟨hStake, forwardRun_liveStakesLocked hRun⟩

/-- Two stakes on the same output: both STAKEs are checked against the cache at the start
    of the block, where the output is free, and both are recorded. -/
theorem not_liveStakesLocked_of_shared_collateral : ∃ node,
    PlainRun sampleNet (sampleTwoStakes ⟨4002, 1⟩) node ∧
    ¬ LiveStakesLocked node.cache := by
  refine Run.exists_steps_imp .other (fun node => ∃ s, node.cache.mapStakes["alice"]? = some s ∧
      s.isLive = true ∧ ∃ s', node.cache.mapStakes["bob"]? = some s' ∧ s'.isLive = true ∧
        s.collateralIn = s'.collateralIn) (by decide +kernel) fun _ _ h hLocked => ?_
  obtain ⟨s, hAlice, hLive, s', hBob, hLive', hSame⟩ := h
  have hEq := hLocked.2 "alice" "bob" s s' hAlice hBob hLive hLive' hSame
  exact absurd hEq (by decide)

end LiveStakes

end CloudService
