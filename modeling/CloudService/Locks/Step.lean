/-
  What one OPoI transaction does to the lock table and to the claims on it: it takes
  the lock `lockOf`, or releases the outpoint `releaseOf`, and nothing else.
-/

import CloudService.Locks.Apply

namespace CloudService

open OPoICache

variable {x : COutPoint} {a : String}

section Step

variable {env : Env} {chainActive : List Uint256} {blockHeight : Nat} {c : OPoICache}
  {tx : CTransaction}

theorem lockedBy_insert {c' : OPoICache}
    (h : c'.mapLockedUTXOs = c.mapLockedUTXOs.insert x a) (y : COutPoint) :
    c'.lockedBy y = if x = y then some a else c.lockedBy y := by
  simp [lockedBy, h]

theorem lockedBy_applyChallengeCommit (y : COutPoint) :
    (applyChallengeCommit env blockHeight c tx).lockedBy y =
      if tx.opoiChallengerCollateralIn = y then some tx.opoiRequester else c.lockedBy y := by
  unfold applyChallengeCommit
  rw [modifyResponderStake_eq]
  exact lockedBy_insert rfl y

theorem lockedBy_applyChallengeReveal {ch : OPoIChallenge}
    (hCh : c.mapChallenges[tx.opoiRequestId]? = some ch) (y : COutPoint) :
    (applyChallengeReveal env c tx).lockedBy y =
      if (revealOutcome env c tx = .slashed ∨ revealOutcome env c tx = .resolvedNoOracle) ∧
          ch.challengerCollateral = y then none
      else c.lockedBy y := by
  rw [applyChallengeReveal_eq env c tx hCh]
  unfold lockedBy
  by_cases hSettled :
      revealOutcome env c tx = .slashed ∨ revealOutcome env c tx = .resolvedNoOracle
  · simp [hSettled]
  · simp [hSettled]

theorem lockedBy_applyAuditorVerify (hNull : tx.opoiAuditorCollateralIn.isNull = false)
    (y : COutPoint) :
    (applyAuditorVerify env blockHeight c tx).lockedBy y =
      if (c.votesFor tx).any (·.auditorAddress == tx.opoiAuditorAddress) then c.lockedBy y
      else if tx.opoiAuditorCollateralIn = y then some tx.opoiAuditorAddress
      else c.lockedBy y := by
  unfold applyAuditorVerify votesFor
  split
  · rename_i hWhole
    cases hVoted : (c.getAuditorVerifications tx.opoiRequestId).any
        (·.auditorAddress == tx.opoiAuditorAddress) with
    | true =>
      rw [addAuditorVerification_of_voted (v := newVote env blockHeight tx) hVoted]
      rfl
    | false =>
      rw [addAuditorVerification_of_new (v := newVote env blockHeight tx) hVoted hNull]
      exact lockedBy_insert rfl y
  · rename_i hShard
    cases hVoted : (c.shardVerifications (shardKey tx.opoiRequestId
        tx.opoiShardIndex)).any (·.auditorAddress == tx.opoiAuditorAddress) with
    | true =>
      rw [addShardAuditorVerification_of_voted (v := newVote env blockHeight tx) hVoted]
      rfl
    | false =>
      rw [addShardAuditorVerification_of_new (v := newVote env blockHeight tx) hVoted hNull]
      exact lockedBy_insert rfl y

theorem lockedBy_applyOPoITransaction
    (hNull : tx.opoiType = .auditorVerify → tx.opoiAuditorCollateralIn.isNull = false)
    (y : COutPoint) :
    (applyOPoITransaction env chainActive blockHeight c tx).lockedBy y =
      match c.lockOf tx with
      | some lock => if lock.1 = y then some lock.2 else c.lockedBy y
      | none => if c.releaseOf env tx = some y then none else c.lockedBy y := by
  cases hType : tx.opoiType with
  | stake =>
    simp only [applyOPoITransaction, lockOf, hType]
    exact lockedBy_insert rfl y
  | challenge =>
    by_cases hCommit : tx.opoiChallengePhase = 0
    · simp only [applyOPoITransaction, lockOf, hType, hCommit, if_true]
      exact lockedBy_applyChallengeCommit y
    · simp only [applyOPoITransaction, lockOf, releaseOf, revealedBy,
        hType, hCommit, if_false, ne_eq, not_false_eq_true, and_self, if_true]
      cases hCh : c.mapChallenges[tx.opoiRequestId]? with
      | none =>
        unfold applyChallengeReveal
        simp [hCh]
      | some ch =>
        rw [lockedBy_applyChallengeReveal hCh]
        by_cases hSettled :
            revealOutcome env c tx = .slashed ∨ revealOutcome env c tx = .resolvedNoOracle
        · simp [hSettled]
        · simp [hSettled]
  | auditorVerify =>
    simp only [applyOPoITransaction, lockOf, hType]
    rw [lockedBy_applyAuditorVerify (hNull hType)]
    split
    · simp [releaseOf, revealedBy, hType]
    · rfl
  | request | response | unstake | renew | modelRegister | modelVote | coordinatorClaim
    | shardResult | unknown =>
    have hSame : (applyOPoITransaction env chainActive blockHeight c tx).lockedBy y =
        c.lockedBy y := by
      by_cases hRenew : tx.opoiType = .renew
      · simp only [applyOPoITransaction, hRenew]
        rfl
      · rw [(applyOPoITransaction_sameLocks (by simp [hType]) hRenew (by simp [hType])
          (by simp [hType])).lockedBy_eq]
    rw [hSame]
    simp [lockOf, releaseOf, revealedBy, hType]

theorem lockedBy_kept
    (hNull : tx.opoiType = .auditorVerify → tx.opoiAuditorCollateralIn.isNull = false)
    (hLocked : c.lockedBy x = some a) (hApart : ∀ lock, c.lockOf tx = some lock → lock.1 ≠ x)
    (hReveal : ∀ ch, c.revealedBy tx = some ch → ch.challengerCollateral = x →
      revealOutcome env c tx = .expired) :
    (applyOPoITransaction env chainActive blockHeight c tx).lockedBy x = some a := by
  rw [lockedBy_applyOPoITransaction hNull]
  cases hOf : c.lockOf tx with
  | some lock =>
    simp only [hApart lock hOf, if_false]
    exact hLocked
  | none =>
    have hKept : c.releaseOf env tx ≠ some x := by
      unfold releaseOf
      split
      · rename_i hSettled
        intro hRelease
        obtain ⟨ch, hCh, hEq⟩ := Option.map_eq_some_iff.mp hRelease
        rw [hReveal ch hCh hEq] at hSettled
        simp at hSettled
      · simp
    simp only [hKept, if_false]
    exact hLocked

theorem claim_applyAuditorVerify (hNull : tx.opoiAuditorCollateralIn.isNull = false) {o : Owner}
    (h : (applyAuditorVerify env blockHeight c tx).claim o = some (x, a)) :
    c.claim o = some (x, a) ∨
      ((c.votesFor tx).any (·.auditorAddress == tx.opoiAuditorAddress) = false ∧
        (tx.opoiAuditorCollateralIn, tx.opoiAuditorAddress) = (x, a)) := by
  unfold applyAuditorVerify at h
  unfold votesFor
  split at h
  · rename_i hWhole
    rw [if_pos hWhole]
    cases hVoted : (c.getAuditorVerifications tx.opoiRequestId).any
        (·.auditorAddress == tx.opoiAuditorAddress) with
    | true =>
      have hSame := sameLocks_addAuditorVerification (v := newVote env blockHeight tx) hVoted
      rw [hSame.claim_eq] at h
      exact .inl h
    | false =>
      rw [claim_addAuditorVerification (v := newVote env blockHeight tx) hNull hVoted] at h
      split at h
      · exact .inr ⟨rfl, Option.some.inj h⟩
      · exact .inl h
  · rename_i hShard
    rw [if_neg hShard]
    cases hVoted : (c.shardVerifications (shardKey tx.opoiRequestId
        tx.opoiShardIndex)).any (·.auditorAddress == tx.opoiAuditorAddress) with
    | true =>
      have hSame := sameLocks_addShardAuditorVerification (v := newVote env blockHeight tx) rfl
        hVoted
      have hOld : c.claim o = some (x, a) := by
        rw [← hSame.claim_eq]
        exact h
      exact .inl hOld
    | false =>
      have hClaim := claim_addShardAuditorVerification (v := newVote env blockHeight tx) rfl hNull
        hVoted o
      have hNew := hClaim.symm.trans h
      split at hNew
      · exact .inr ⟨rfl, Option.some.inj hNew⟩
      · exact .inl hNew

theorem claim_applyOPoITransaction
    (hNull : tx.opoiType = .auditorVerify → tx.opoiAuditorCollateralIn.isNull = false)
    (hRenew : tx.opoiType = .renew → ∃ s : OPoIStake,
      c.mapStakes[tx.opoiMinerAddress]? = some s ∧ s.isLive = true)
    {o : Owner}
    (h : (applyOPoITransaction env chainActive blockHeight c tx).claim o = some (x, a)) :
    c.claim o = some (x, a) ∨ c.lockOf tx = some (x, a) ∨
      ∃ ch, c.revealedBy tx = some ch ∧ ch.challengerCollateral = x ∧
        revealOutcome env c tx ≠ .expired := by
  cases hType : tx.opoiType with
  | stake =>
    simp only [applyOPoITransaction, hType] at h
    rw [claim_applyStake] at h
    split at h
    · exact .inr (.inl (by simpa [lockOf, hType] using h))
    · exact .inl h
  | challenge =>
    by_cases hCommit : tx.opoiChallengePhase = 0
    · simp only [applyOPoITransaction, hType, hCommit, if_true] at h
      rw [claim_applyChallengeCommit] at h
      split at h
      · exact .inr (.inl (by simpa [lockOf, hType, hCommit] using h))
      · exact .inl h
    · simp only [applyOPoITransaction, hType, hCommit, if_false] at h
      cases hCh : c.mapChallenges[tx.opoiRequestId]? with
      | none =>
        unfold applyChallengeReveal at h
        rw [hCh] at h
        exact .inl h
      | some ch =>
        rw [claim_applyChallengeReveal hCh] at h
        split at h
        · refine .inr (.inr ⟨ch, by simp [revealedBy, hType, hCommit, hCh], ?_⟩)
          unfold OPoIChallenge.claim at h
          split at h
          · rename_i hClaims
            cases h
            refine ⟨rfl, fun hExpired => ?_⟩
            simp [OPoIChallenge.isOpen, OPoIChallenge.isPendingResolution, hExpired] at hClaims
          · cases h
        · exact .inl h
  | auditorVerify =>
    simp only [applyOPoITransaction, hType] at h
    rcases claim_applyAuditorVerify (hNull hType) h with hOld | ⟨hNew, hEq⟩
    · exact .inl hOld
    · refine .inr (.inl ?_)
      simp [lockOf, hType, hNew, hEq]
  | renew =>
    obtain ⟨s, hStake, hLive⟩ := hRenew hType
    simp only [applyOPoITransaction, hType] at h
    rw [(sameLocks_renew hStake hLive).claim_eq] at h
    exact .inl h
  | request | response | unstake | modelRegister | modelVote | coordinatorClaim | shardResult
    | unknown =>
    rw [(applyOPoITransaction_sameLocks (by simp [hType]) (by simp [hType]) (by simp [hType])
      (by simp [hType])).claim_eq] at h
    exact .inl h

end Step

end CloudService
