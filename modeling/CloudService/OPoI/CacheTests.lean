/-
  The tests of `CheckOPoITransaction` on the cache: `standing` for the records that the
  transactions of one block leave to each other, `unclashed` for the others.
-/

import CloudService.OPoI.Accepted

namespace CloudService

section Tests

variable (env : Env) (chainActive : List Uint256) (c : OPoICache) (tx : CTransaction)

def eligible (minerAddress requestId seedSuffix : String) (vrfProof : Bytes) (threshold : Nat) :
    Bool :=
  match getOPoIRequestSeedHash chainActive c requestId with
  | none => false
  | some seedHash =>
    (checkVrfSortition env c minerAddress requestId seedHash seedSuffix vrfProof threshold).isNone

def servesModel (minerAddress : String) (req : OPoIRequest) : Bool :=
  !(!req.model.isEmpty && (c.mapStakes[minerAddress]?).any fun s =>
    !s.modelId.isEmpty && s.modelId != req.model)

def withinManifest (m : ModelManifest) : Bool :=
  !(tx.opoiTaskClass == OPOI_TASKCLASS_INTERACTIVE &&
      decide (env.params.nOPoIMaxPipelineDepth < asInt32 m.numDenseShards)) &&
    !(decide (0 < m.minRewardPerToken) && decide (tx.opoiFeePerToken < m.minRewardPerToken))

/-- The shard of a SHARD_RESULT is one of the model, and an expert shard is hosted. -/
def shardFits (manifest : ModelManifest) : Bool :=
  match (c.executionGraph env.params manifest)[tx.opoiShardIndex]? with
  | none => false
  | some d => d.shardType != .expert ||
      (isExpertShardWithinManifestBounds d manifest &&
        (c.mapStakes[tx.opoiMinerAddress]?).any (·.hostsExpert d.expertId) &&
        !tx.opoiCommitment.isNull)

def auditedShardFits (manifest : ModelManifest) : Bool :=
  isAuditorVerificationShardIndexValid tx.opoiShardIndex manifest
    (c.shouldCollapseToTitanSingleNode env.params manifest)

/-- The tests on records that the transactions of a block leave alone. -/
def standing : Bool :=
  let req := c.mapRequests[tx.opoiRequestId]?
  match tx.opoiType with
  | .request => (c.activeManifest tx.opoiModel).all (withinManifest env tx)
  | .response =>
    if tx.opoiResponsePhase = 0 then req.all fun r => !r.isExpired && !r.commitWindowClosed
    else req.any (fun r => !r.isExpired && r.commitWindowClosed) && !tx.opoiResponseNonce.isEmpty
  | .challenge =>
    (c.mapResponses[tx.opoiRequestId]?).isSome && (tx.opoiChallengePhase == 0 ||
      (c.mapChallenges[tx.opoiRequestId]?).any fun ch => ch.challengerAddress == tx.opoiRequester &&
        ch.commitHash == hexStr (env.sha256 (tx.opoiProofData ++ tx.opoiChallengeNonce)))
  | .modelVote => (c.mapModelManifests[tx.opoiModelId]?).any (·.isVoting)
  | .coordinatorClaim | .shardResult => req.isSome
  | .auditorVerify => req.any fun r =>
      tx.opoiShardIndex == OPOI_AUDITOR_VERIFY_NO_SHARD || (c.activeManifest r.model).isSome
  | .stake | .unstake | .renew | .modelRegister | .unknown => true

/-- The tests on records that an earlier transaction of the same block can change. -/
def unclashed : Bool :=
  let req := c.mapRequests[tx.opoiRequestId]?
  match tx.opoiType with
  | .request => req.isNone
  | .response =>
    c.isActiveStaker tx.opoiMinerAddress && req.all (servesModel c tx.opoiMinerAddress) &&
      if tx.opoiResponsePhase = 0 then
        !c.isHarmlessResponseCommitRedelivery tx.opoiRequestId tx.opoiMinerAddress (env.getHash tx)
      else
        req.all (fun r => !r.responseReveals.contains tx.opoiMinerAddress) &&
          c.mapResponseCommits[OPoICache.commitKey tx.opoiRequestId tx.opoiMinerAddress]? ==
            some (hexStr (revealCommitment env tx)) &&
          eligible env chainActive c tx.opoiMinerAddress tx.opoiRequestId "" tx.opoiVrfProof
            (opoiVrfThresholdForRequest env.params c tx.opoiRequestId)
  | .stake => !c.isLockedUTXO tx.opoiCollateralIn
  | .unstake => c.isActiveStaker tx.opoiMinerAddress
  | .renew => (c.mapStakes[tx.opoiMinerAddress]?).any fun s =>
      s.stakeStatus == .active || s.stakeStatus == .suspended
  | .challenge =>
    if tx.opoiChallengePhase = 0 then
      !c.isLockedUTXO tx.opoiChallengerCollateralIn &&
        !(c.mapChallenges[tx.opoiRequestId]?).any (·.isOpen)
    else (c.mapChallenges[tx.opoiRequestId]?).any (·.isOpen)
  | .modelRegister =>
    (c.mapModelManifests[tx.opoiModelId]?).isNone && c.isActiveStaker tx.opoiRequester
  | .modelVote =>
    !c.isHarmlessModelVoteRedelivery tx.opoiModelId tx.opoiRequester (env.getHash tx) &&
      c.isActiveStaker tx.opoiRequester
  | .coordinatorClaim =>
    c.isActiveStaker tx.opoiMinerAddress &&
      (c.isClaimedCoordinator tx.opoiRequestId tx.opoiMinerAddress ||
        eligible env chainActive c tx.opoiMinerAddress tx.opoiRequestId "COORD" tx.opoiVrfProof
          env.params.nOPoICoordinatorThreshold)
  | .shardResult =>
    c.isActiveStaker tx.opoiMinerAddress &&
      eligible env chainActive c tx.opoiMinerAddress tx.opoiRequestId
        ("SHARD" ++ toString tx.opoiShardIndex) tx.opoiVrfProof env.params.nOPoIShardThreshold &&
      (req.bind fun r => c.activeManifest r.model).all (shardFits env c tx)
  | .auditorVerify =>
    !c.isLockedUTXO tx.opoiAuditorCollateralIn && req.all fun r =>
      if tx.opoiShardIndex = OPOI_AUDITOR_VERIFY_NO_SHARD then
        r.isVerifiable || (c.mapResponses[tx.opoiRequestId]?).any (·.auditSelected)
      else (c.activeManifest r.model).all (auditedShardFits env c tx)
  | .unknown => true

/-- The tests on the fields and on the signature: those of the start-up verification. -/
def fieldChecks : Checked Unit := checkOPoITransaction env true [] {} tx

end Tests

section Spec

variable {env : Env} {chainActive : List Uint256} {c : OPoICache} {tx : CTransaction}

theorem requireSortition_eq_ok {minerAddress requestId seedSuffix reasonPrefix : String}
    {vrfProof : Bytes} {threshold : Nat} :
    requireSortition env chainActive c minerAddress requestId seedSuffix vrfProof threshold
        reasonPrefix = .ok () ↔
      eligible env chainActive c minerAddress requestId seedSuffix vrfProof threshold = true := by
  unfold requireSortition eligible
  cases getOPoIRequestSeedHash chainActive c requestId with
  | none => simp
  | some seedHash =>
    dsimp only
    cases checkVrfSortition env c minerAddress requestId seedHash seedSuffix vrfProof threshold with
    | none => simp
    | some reason => simp

theorem requireUnlocked_iff {out : COutPoint} {knownReason lockedReason : String} :
    requireUnlocked env false c tx out knownReason lockedReason = .ok () ↔
      c.isLockedUTXO out = false := by
  simp only [requireUnlocked, check_bind_eq_ok, rejectIf_eq_ok, Bool.not_false, Bool.true_and]
  constructor
  · exact fun h => h.2
  · intro h
    simp [h]

@[simp] theorem requireUnlocked_verifying {out : COutPoint} {knownReason lockedReason : String} :
    requireUnlocked env true c tx out knownReason lockedReason = .ok () := by
  simp [requireUnlocked, check_bind_eq_ok]

theorem checkRequest_iff :
    checkRequest env false c tx = .ok () ↔ checkRequest env true {} tx = .ok () ∧
      (c.activeManifest tx.opoiModel).all (withinManifest env tx) = true ∧
      (c.mapRequests[tx.opoiRequestId]?).isNone = true := by
  simp only [checkRequest, check_bind_eq_ok, rejectIf_eq_ok, Bool.not_false, Bool.true_and,
    Bool.not_true, Bool.false_and]
  cases c.mapRequests[tx.opoiRequestId]? with
  | some req => simp
  | none =>
    cases c.activeManifest tx.opoiModel with
    | none => simp
    | some m =>
      simp only [withinManifest, Option.any_none, Option.any_some, Option.all_some,
        Bool.and_eq_true, Bool.not_eq_true', Option.isSome_none, Option.isNone_none, true_and,
        and_true]
      tauto

theorem checkResponse_iff (hType : tx.opoiType = .response) :
    checkResponse env false chainActive c tx = .ok () ↔ checkResponse env true [] {} tx = .ok () ∧
      standing env c tx = true ∧ unclashed env chainActive c tx = true := by
  simp only [standing, unclashed, hType]
  unfold checkResponse
  by_cases hPhase : tx.opoiResponsePhase = 0
  · simp only [hPhase, if_true, check_bind_eq_ok, rejectIf_eq_ok, checkResponseCommit,
      Bool.not_false, Bool.true_and, Bool.not_true, Bool.false_and, Bool.false_eq_true, if_false]
    cases c.mapRequests[tx.opoiRequestId]? with
    | none =>
      simp
      tauto
    | some r =>
      simp only [Option.any_some, Option.any_none, Option.all_some, servesModel]
      simp
      tauto
  · simp only [hPhase, if_false, check_bind_eq_ok, rejectIf_eq_ok, checkResponseReveal,
      Bool.not_false, Bool.true_and, Bool.not_true, Bool.false_and, Bool.false_eq_true, if_true,
      unlessVerifying, requireSortition_eq_ok]
    cases c.mapRequests[tx.opoiRequestId]? with
    | none => simp
    | some r =>
      simp only [Option.any_some, Option.any_none, Option.all_some, servesModel]
      cases c.mapResponseCommits[OPoICache.commitKey tx.opoiRequestId tx.opoiMinerAddress]? with
      | none => simp
      | some hash =>
        simp
        tauto

theorem checkChallenge_iff (hType : tx.opoiType = .challenge) :
    checkChallenge env false c tx = .ok () ↔ checkChallenge env true {} tx = .ok () ∧
      standing env c tx = true ∧ unclashed env chainActive c tx = true := by
  simp only [standing, unclashed, hType]
  unfold checkChallenge
  by_cases hPhase : tx.opoiChallengePhase = 0
  · simp only [hPhase, if_true, check_bind_eq_ok, rejectIf_eq_ok, checkChallengeCommit,
      Bool.not_false, Bool.true_and, Bool.not_true, Bool.false_and, requireUnlocked_iff]
    cases c.mapResponses[tx.opoiRequestId]? with
    | none => simp
    | some resp =>
      simp
      tauto
  · simp only [hPhase, if_false, check_bind_eq_ok, rejectIf_eq_ok, checkChallengeReveal,
      Bool.not_false, Bool.true_and, Bool.not_true, Bool.false_and]
    cases c.mapResponses[tx.opoiRequestId]? with
    | none => simp
    | some resp =>
      cases c.mapChallenges[tx.opoiRequestId]? with
      | none => simp
      | some ch =>
        cases hOpen : ch.isOpen with
        | false => simp [hOpen]
        | true =>
          simp [hOpen, hPhase]
          tauto

theorem checkStake_iff :
    checkStake env false c tx = .ok () ↔ checkStake env true {} tx = .ok () ∧
      (!c.isLockedUTXO tx.opoiCollateralIn) = true := by
  simp only [checkStake, check_bind_eq_ok, rejectIf_eq_ok, requireUnlocked_iff]
  simp
  tauto

theorem checkUnstake_iff :
    checkUnstake env false c tx = .ok () ↔ checkUnstake env true {} tx = .ok () ∧
      c.isActiveStaker tx.opoiMinerAddress = true := by
  simp only [checkUnstake, check_bind_eq_ok, rejectIf_eq_ok, Bool.not_false, Bool.true_and,
    Bool.not_true, Bool.false_and]
  cases c.isActiveStaker tx.opoiMinerAddress with
  | false => simp
  | true => simp

theorem checkRenew_iff :
    checkRenew env false c tx = .ok () ↔ checkRenew env true {} tx = .ok () ∧
      ((c.mapStakes[tx.opoiMinerAddress]?).any fun s =>
        s.stakeStatus == .active || s.stakeStatus == .suspended) = true := by
  simp only [checkRenew, check_bind_eq_ok, rejectIf_eq_ok, Bool.not_false, Bool.true_and,
    Bool.not_true, Bool.false_and]
  simp
  tauto

theorem checkModelRegister_iff :
    checkModelRegister env false c tx = .ok () ↔ checkModelRegister env true {} tx = .ok () ∧
      ((c.mapModelManifests[tx.opoiModelId]?).isNone && c.isActiveStaker tx.opoiRequester) =
        true := by
  simp only [checkModelRegister, check_bind_eq_ok, rejectIf_eq_ok, Bool.not_false, Bool.true_and,
    Bool.not_true, Bool.false_and]
  cases c.mapModelManifests[tx.opoiModelId]? with
  | some m => simp
  | none =>
    simp
    tauto

theorem checkModelVote_iff :
    checkModelVote env false c tx = .ok () ↔ checkModelVote env true {} tx = .ok () ∧
      (c.mapModelManifests[tx.opoiModelId]?).any (·.isVoting) = true ∧
      (!c.isHarmlessModelVoteRedelivery tx.opoiModelId tx.opoiRequester (env.getHash tx) &&
        c.isActiveStaker tx.opoiRequester) = true := by
  simp only [checkModelVote, check_bind_eq_ok, rejectIf_eq_ok, Bool.not_false, Bool.true_and,
    Bool.not_true, Bool.false_and]
  cases c.mapModelManifests[tx.opoiModelId]? with
  | none => simp
  | some m =>
    simp
    tauto

theorem checkCoordinatorClaim_iff (hType : tx.opoiType = .coordinatorClaim) :
    checkCoordinatorClaim env false chainActive c tx = .ok () ↔
      checkCoordinatorClaim env true [] {} tx = .ok () ∧
      standing env c tx = true ∧ unclashed env chainActive c tx = true := by
  simp only [standing, unclashed, hType]
  simp only [checkCoordinatorClaim, check_bind_eq_ok, rejectIf_eq_ok, Bool.not_false, Bool.true_and,
    Bool.not_true, Bool.false_and, Bool.false_or, Bool.true_or, unlessVerifying, if_true]
  cases c.mapRequests[tx.opoiRequestId]? with
  | none => simp
  | some r =>
    cases c.isClaimedCoordinator tx.opoiRequestId tx.opoiMinerAddress with
    | true =>
      simp
      tauto
    | false =>
      simp only [Bool.false_eq_true, if_false, requireSortition_eq_ok]
      simp
      tauto

theorem checkShardOfManifest_iff {m : ModelManifest} :
    checkShardOfManifest env c tx m = .ok () ↔ shardFits env c tx m = true := by
  unfold checkShardOfManifest shardFits
  cases (c.executionGraph env.params m)[tx.opoiShardIndex]? with
  | none => simp
  | some d =>
    simp only [check_bind_eq_ok, rejectIf_eq_ok]
    cases hType : d.shardType == .expert with
    | false => simp [bne, hType]
    | true =>
      simp [bne, hType]
      tauto

theorem checkShardResult_iff (hType : tx.opoiType = .shardResult) :
    checkShardResult env false chainActive c tx = .ok () ↔
      checkShardResult env true [] {} tx = .ok () ∧
      standing env c tx = true ∧ unclashed env chainActive c tx = true := by
  simp only [standing, unclashed, hType]
  simp only [checkShardResult, check_bind_eq_ok, rejectIf_eq_ok, Bool.not_false, Bool.true_and,
    Bool.not_true, Bool.false_and, unlessVerifying, if_true, Bool.false_eq_true, if_false,
    requireSortition_eq_ok]
  cases c.mapRequests[tx.opoiRequestId]? with
  | none => simp
  | some r =>
    simp only [Option.bind_some]
    cases c.activeManifest r.model with
    | none =>
      simp
      tauto
    | some m =>
      simp only [checkShardOfManifest_iff]
      simp
      tauto

theorem checkAuditorScope_iff {r : OPoIRequest} :
    checkAuditorScope env c tx r = .ok () ↔
      (tx.opoiShardIndex == OPOI_AUDITOR_VERIFY_NO_SHARD || (c.activeManifest r.model).isSome) =
        true ∧
      (if tx.opoiShardIndex = OPOI_AUDITOR_VERIFY_NO_SHARD then
        r.isVerifiable || (c.mapResponses[tx.opoiRequestId]?).any (·.auditSelected)
      else (c.activeManifest r.model).all (auditedShardFits env c tx)) = true := by
  unfold checkAuditorScope
  split
  · rename_i hWhole
    cases r.isVerifiable with
    | true => simp [hWhole]
    | false => simp [hWhole]
  · rename_i hShard
    cases c.activeManifest r.model with
    | none => simp [hShard]
    | some m => simp [auditedShardFits]

theorem checkAuditorVerify_iff (hType : tx.opoiType = .auditorVerify) :
    checkAuditorVerify env false c tx = .ok () ↔ checkAuditorVerify env true {} tx = .ok () ∧
      standing env c tx = true ∧ unclashed env chainActive c tx = true := by
  simp only [standing, unclashed, hType]
  simp only [checkAuditorVerify, check_bind_eq_ok, rejectIf_eq_ok, unlessVerifying, if_true,
    Bool.false_eq_true, if_false, requireUnlocked_iff]
  cases c.mapRequests[tx.opoiRequestId]? with
  | none => simp
  | some r =>
    simp only [checkAuditorScope_iff, Option.any_some, Option.all_some, Bool.and_eq_true,
      Bool.not_eq_true', requireUnlocked_verifying]
    tauto

theorem checkOPoITransaction_iff (hOPoI : tx.isOPoITx = true) :
    checkOPoITransaction env false chainActive c tx = .ok () ↔
      fieldChecks env tx = .ok () ∧ standing env c tx = true ∧
        unclashed env chainActive c tx = true := by
  have hVersion := tx.nVersion_of_isOPoITx hOPoI
  unfold fieldChecks checkOPoITransaction
  simp only [hVersion, ne_eq, not_true_eq_false, if_false, check_bind_eq_ok, rejectIf_eq_ok]
  rw [and_assoc]
  refine and_congr_right fun _ => ?_
  cases hType : tx.opoiType with
  | request => simpa [standing, unclashed, hType] using checkRequest_iff
  | response => exact checkResponse_iff hType
  | stake => simpa [standing, unclashed, hType] using checkStake_iff
  | unstake => simpa [standing, unclashed, hType] using checkUnstake_iff
  | renew => simpa [standing, unclashed, hType] using checkRenew_iff
  | challenge => exact checkChallenge_iff hType
  | modelRegister => simpa [standing, unclashed, hType] using checkModelRegister_iff
  | modelVote => simpa [standing, unclashed, hType] using checkModelVote_iff
  | coordinatorClaim => exact checkCoordinatorClaim_iff hType
  | shardResult => exact checkShardResult_iff hType
  | auditorVerify => exact checkAuditorVerify_iff hType
  | unknown => simp

end Spec

end CloudService
