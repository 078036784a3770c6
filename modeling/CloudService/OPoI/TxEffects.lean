/-
  What one OPoI transaction does to the challenges, to the votes and to the models: the one
  record that it writes, or nothing.
-/

import CloudService.OPoI.Effects

namespace CloudService

open OPoICache

section TxEffects

variable (env : Env) (chainActive : List Uint256) (blockHeight : Nat) (c : OPoICache)
  (tx : CTransaction)

theorem mapChallenges_cases :
    (tx.opoiType = .challenge ∧ tx.opoiChallengePhase = 0 ∧
      (applyOPoITransaction env chainActive blockHeight c tx).mapChallenges =
        c.mapChallenges.insert tx.opoiRequestId (openedChallenge env blockHeight tx)) ∨
    (tx.opoiType = .challenge ∧ tx.opoiChallengePhase ≠ 0 ∧
      (applyOPoITransaction env chainActive blockHeight c tx).mapChallenges =
        c.mapChallenges.modify tx.opoiRequestId fun ch =>
          { revealedChallenge env tx ch with challengeStatus := revealOutcome env c tx }) ∨
    (tx.opoiType ≠ .challenge ∧
      (applyOPoITransaction env chainActive blockHeight c tx).mapChallenges = c.mapChallenges) := by
  by_cases hType : tx.opoiType = .challenge
  · by_cases hCommit : tx.opoiChallengePhase = 0
    · refine .inl ⟨hType, hCommit, ?_⟩
      simp only [applyOPoITransaction, hType, hCommit, if_true]
      rw [applyChallengeCommit, modifyResponderStake_eq]
      rfl
    · refine .inr (.inl ⟨hType, hCommit, ?_⟩)
      simp only [applyOPoITransaction, hType, hCommit, if_false]
      cases hCh : c.mapChallenges[tx.opoiRequestId]? with
      | none =>
        rw [applyChallengeReveal, hCh]
        refine (TreeMap.modify_eq_self_iff.mpr fun ch hGet => ?_).symm
        rw [hCh] at hGet
        cases hGet
      | some ch => rw [applyChallengeReveal_eq env c tx hCh]
  · exact .inr (.inr ⟨hType,
      (applyOPoITransaction_txFrame env blockHeight c tx chainActive).challenges hType⟩)

theorem votes_cases :
    (tx.opoiType = .auditorVerify ∧ tx.opoiShardIndex = OPOI_AUDITOR_VERIFY_NO_SHARD ∧
      (applyOPoITransaction env chainActive blockHeight c tx).mapAuditorVerifications =
        c.mapAuditorVerifications.insert tx.opoiRequestId
          (addVote (c.getAuditorVerifications tx.opoiRequestId) (newVote env blockHeight tx)) ∧
      (applyOPoITransaction env chainActive blockHeight c tx).mapShardAuditorVerifications =
        c.mapShardAuditorVerifications) ∨
    (tx.opoiType = .auditorVerify ∧ tx.opoiShardIndex ≠ OPOI_AUDITOR_VERIFY_NO_SHARD ∧
      (applyOPoITransaction env chainActive blockHeight c tx).mapAuditorVerifications =
        c.mapAuditorVerifications ∧
      (applyOPoITransaction env chainActive blockHeight c tx).mapShardAuditorVerifications =
        c.mapShardAuditorVerifications.insert (shardKey tx.opoiRequestId tx.opoiShardIndex) (addVote
            (c.shardVerifications (shardKey tx.opoiRequestId tx.opoiShardIndex))
            (newVote env blockHeight tx))) ∨
    (tx.opoiType ≠ .auditorVerify ∧
      (applyOPoITransaction env chainActive blockHeight c tx).mapAuditorVerifications =
        c.mapAuditorVerifications ∧
      (applyOPoITransaction env chainActive blockHeight c tx).mapShardAuditorVerifications =
        c.mapShardAuditorVerifications) := by
  by_cases hType : tx.opoiType = .auditorVerify
  · simp only [applyOPoITransaction, hType, applyAuditorVerify, addAuditorVerification,
      addShardAuditorVerification]
    split
    · rename_i hWhole
      obtain ⟨_, _, hEq⟩ := lockVote_eq _ _ _
      rw [hEq]
      exact .inl ⟨trivial, hWhole, rfl, rfl⟩
    · rename_i hShard
      obtain ⟨_, _, hEq⟩ := lockVote_eq _ _ _
      rw [hEq]
      exact .inr (.inl ⟨trivial, hShard, rfl, rfl⟩)
  · exact .inr (.inr ⟨hType,
      (applyOPoITransaction_txFrame env blockHeight c tx chainActive).votes hType⟩)

theorem mapModelManifests_cases :
    (tx.opoiType = .modelRegister ∧ ∃ m : ModelManifest,
      (applyOPoITransaction env chainActive blockHeight c tx).mapModelManifests =
        c.mapModelManifests.insert tx.opoiModelId m ∧ m.isActive = false) ∨
    (applyOPoITransaction env chainActive blockHeight c tx).mapModelManifests =
      c.mapModelManifests := by
  by_cases hType : tx.opoiType = .modelRegister
  · refine .inl ⟨hType, ?_⟩
    simp only [applyOPoITransaction, hType]
    exact ⟨_, rfl, rfl⟩
  · exact .inr ((applyOPoITransaction_txFrame env blockHeight c tx chainActive).models hType)

end TxEffects

end CloudService
