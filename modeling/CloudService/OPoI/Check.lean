/-
  `CheckOPoITransaction` (`opoi/opoi.cpp`), with the reject reasons of the source.
  `fIsVerifying` skips every test that reads the cache.
-/

import CloudService.OPoI.Payments

namespace CloudService

/-! ## Sortition -/

def OPOI_VRF_PROOF_SIZE : Nat := 81

/-- `GetOPoIRequestSeedHash`: the hash of the block of the request. -/
def getOPoIRequestSeedHash (chainActive : List Uint256) (c : OPoICache) (requestId : String) :
    Option Uint256 :=
  match c.mapRequests[requestId]? with
  | some req => chainActive[req.blockHeight]?
  | none => none

def opoiVrfThresholdForRequest (params : Params) (c : OPoICache) (requestId : String) : Nat :=
  match c.mapRequests[requestId]? with
  | none => params.nOPoIVrfThreshold
  | some req =>
    if params.nOPoIAdaptiveVrfHeight ≤ 0 ∨
        req.blockHeight < u32OfInt params.nOPoIAdaptiveVrfHeight then params.nOPoIVrfThreshold
    else
      let target := u32OfInt (max 1 params.nOPoIVrfTargetEligible)
      if req.vrfActiveStakers ≤ target then 2 ^ 256 - 1
      else (2 ^ 256 - 1) / req.vrfActiveStakers * target % 2 ^ 256

/-- `CheckVrfSortition`; `none` when the miner is eligible, else the reason. -/
def checkVrfSortition (env : Env) (c : OPoICache) (minerAddress requestId : String)
    (seedBlockHash : Uint256) (seedSuffix : String) (vrfProof : Bytes) (threshold : Nat) :
    Option String :=
  match c.mapStakes[minerAddress]? with
  | none => some "no-pubkey"
  | some stake =>
    if stake.minerPubKey.length ≠ 33 then some "no-pubkey"
    else if vrfProof.length ≠ OPOI_VRF_PROOF_SIZE then some "no-vrf-proof"
    else
      let seed := env.sha256 (seedBlockHash.bytes ++ strBytes requestId ++ strBytes seedSuffix)
      match env.vrfVerify stake.minerPubKey seed vrfProof with
      | none => some "vrf-invalid"
      | some output => if leNat output < threshold then none else some "miner-not-eligible"

/-- A seed must exist and the proof must be eligible. -/
def requireSortition (env : Env) (chainActive : List Uint256) (c : OPoICache)
    (minerAddress requestId seedSuffix : String) (vrfProof : Bytes) (threshold : Nat)
    (reasonPrefix : String) : Checked Unit :=
  match getOPoIRequestSeedHash chainActive c requestId with
  | none => .error (dos 10 (reasonPrefix ++ "no-seed"))
  | some seedHash =>
    match checkVrfSortition env c minerAddress requestId seedHash seedSuffix vrfProof threshold with
    | none => .ok ()
    | some reason =>
      .error (dos (if reason = "vrf-invalid" then 100 else 10) (reasonPrefix ++ reason))

section SigMsg

variable (tx : CTransaction)

/-- The messages that the transactions of each type sign. -/
def requestSigMsg : String :=
  tx.opoiRequestId ++ tx.opoiRequester ++ tx.opoiModel ++ tx.opoiPromptHash.getHex ++
    toString tx.opoiMaxTokens ++ toString tx.opoiPayment ++ toString tx.opoiFeePerToken ++
    toString tx.opoiTaskType ++ toString tx.opoiTaskClass ++ tx.opoiTestSuite.getHex ++
    toString tx.opoiPromptTokenCount ++ toString tx.opoiIsCanary
def responseCommitSigMsg : String :=
  tx.opoiRequestId ++ tx.opoiMinerAddress ++ hexStr tx.opoiResponseCommitHash
def responseRevealSigMsg : String :=
  tx.opoiRequestId ++ tx.opoiMinerAddress ++ tx.opoiResponseHash.getHex ++
    tx.opoiCommitment.getHex ++ toString tx.opoiTokenCount
def unstakeSigMsg : String := "UNSTAKE" ++ tx.opoiMinerAddress
def renewSigMsg : String := "RENEW" ++ tx.opoiMinerAddress
def challengeCommitSigMsg : String :=
  tx.opoiRequestId ++ tx.opoiRequester ++ hexStr tx.opoiCommitHash ++
    tx.opoiChallengerCollateralIn.hash.getHex ++ toString tx.opoiChallengerCollateralIn.n
def challengeRevealSigMsg : String :=
  tx.opoiRequestId ++ tx.opoiRequester ++ hexStr tx.opoiProofData ++ hexStr tx.opoiChallengeNonce
def modelRegisterSigMsg : String :=
  tx.opoiModelId ++ tx.opoiRequester ++ toString tx.opoiModelArchType ++ tx.opoiPomRoot.getHex
def modelVoteSigMsg : String :=
  tx.opoiModelId ++ tx.opoiRequester ++ toString tx.opoiModelVoteApprove
def coordinatorClaimSigMsg : String := "COORD" ++ tx.opoiRequestId ++ tx.opoiMinerAddress
def shardResultSigMsg : String :=
  "SHARD" ++ tx.opoiRequestId ++ toString tx.opoiShardIndex ++ tx.opoiMinerAddress ++
    tx.opoiResponseHash.getHex ++ tx.opoiCommitment.getHex ++ toString tx.opoiTokenCount
def auditorVerifySigMsg : String :=
  tx.opoiAuditorAddress ++ tx.opoiRequestId ++ tx.opoiAuditorCollateralIn.hash.getHex ++
    toString tx.opoiAuditorCollateralIn.n ++ toString tx.opoiShardIndex

end SigMsg

/-! ## The checks, one for each branch of the switch -/

section Checks

variable (env : Env) (fIsVerifying : Bool) (chainActive : List Uint256) (c : OPoICache)
  (tx : CTransaction)

/-- A check that is skipped while the database is verified. -/
def unlessVerifying (check : Checked Unit) : Checked Unit :=
  if fIsVerifying then .ok () else check

/-- Reject an invalid signature of an address over a message. -/
def requireSig (address message : String) (reason : String) : Checked Unit :=
  rejectIf (env.verifyOPoISig address message tx.opoiSig).isNone (dos 100 reason)

/-- Reject a collateral that is already locked; a redelivery of the locking
    transaction is harmless. -/
def requireUnlocked (out : COutPoint) (knownReason lockedReason : String) : Checked Unit := do
  rejectIf (!fIsVerifying && c.isLockedUTXO out && c.isHarmlessRedelivery out (env.getHash tx))
    (alreadyKnown knownReason)
  rejectIf (!fIsVerifying && c.isLockedUTXO out) (dos 100 lockedReason)

/-- `case OPOI_REQUEST_TX_TYPE`. -/
def checkRequest : Checked Unit := do
  let p := env.params
  let existing := c.mapRequests[tx.opoiRequestId]?
  let manifest := c.activeManifest tx.opoiModel
  let minPayment := p.nOPoIFeeBase + (tx.opoiPromptTokenCount : CAmount) * p.nOPoIFeePerToken
  rejectIf tx.opoiRequestId.isEmpty (dos 10 "bad-txns-opoi-no-request-id")
  rejectIf tx.opoiRequester.isEmpty (dos 10 "bad-txns-opoi-no-requester")
  rejectIf tx.opoiModel.isEmpty (dos 10 "bad-txns-opoi-no-model")
  rejectIf tx.opoiPromptHash.isNull (dos 10 "bad-txns-opoi-no-prompt-hash")
  rejectIf (decide (tx.opoiPayment ≤ 0)) (dos 10 "bad-txns-opoi-zero-payment")
  rejectIf (!fIsVerifying && existing.any (·.txHash == env.getHash tx))
    (alreadyKnown "bad-txns-opoi-request-already-known")
  rejectIf (!fIsVerifying && existing.isSome) (dos 10 "bad-txns-opoi-request-id-collision")
  rejectIf (tx.opoiTaskType == OPOI_TASK_VERIFIABLE && tx.opoiTestSuite.isNull)
    (dos 10 "bad-txns-opoi-request-verifiable-needs-test-suite")
  rejectIf ((decide (0 < p.nOPoIFeeBase) || decide (0 < p.nOPoIFeePerToken)) &&
      decide (tx.opoiPayment < minPayment)) (dos 10 "bad-txns-opoi-request-fee-too-low")
  rejectIf (tx.opoiIsCanary != 0 && tx.opoiTaskType != OPOI_TASK_VERIFIABLE)
    (dos 10 "bad-txns-opoi-request-canary-not-verifiable")
  rejectIf (tx.opoiIsCanary != 0 && tx.opoiTestSuite != env.canaryTestSuiteHash)
    (dos 10 "bad-txns-opoi-request-canary-wrong-test-suite")
  rejectIf (!fIsVerifying && manifest.any fun m =>
      tx.opoiTaskClass == OPOI_TASKCLASS_INTERACTIVE &&
        decide (p.nOPoIMaxPipelineDepth < asInt32 m.numDenseShards))
    (dos 10 "bad-txns-opoi-request-pipeline-too-deep-for-interactive")
  rejectIf (!fIsVerifying && manifest.any fun m =>
      decide (0 < m.minRewardPerToken) && decide (tx.opoiFeePerToken < m.minRewardPerToken))
    (dos 10 "bad-txns-opoi-request-fee-below-model-minimum")
  requireSig env tx tx.opoiRequester (requestSigMsg tx) "bad-txns-opoi-request-bad-sig"

/-- The COMMIT branch of `case OPOI_RESPONSE_TX_TYPE`. -/
def checkResponseCommit (req : Option OPoIRequest) : Checked Unit := do
  rejectIf (tx.opoiResponseCommitHash.length != 32) (dos 10 "bad-txns-opoi-response-no-commit-hash")
  rejectIf (!fIsVerifying && c.isHarmlessResponseCommitRedelivery tx.opoiRequestId
      tx.opoiMinerAddress (env.getHash tx))
    (alreadyKnown "bad-txns-opoi-response-commit-already-known")
  rejectIf (req.any (·.commitWindowClosed)) (dos 10 "bad-txns-opoi-response-commit-window-closed")
  requireSig env tx tx.opoiMinerAddress (responseCommitSigMsg tx) "bad-txns-opoi-response-bad-sig"

/-- The commitment that a RESPONSE REVEAL opens. -/
def revealCommitment : Bytes :=
  env.sha256 (tx.opoiResponseHash.bytes ++ tx.opoiCommitment.bytes ++
    strBytes (toString tx.opoiTokenCount) ++ tx.opoiResponseNonce)

/-- The REVEAL branch of `case OPOI_RESPONSE_TX_TYPE`: every phase other than 0. -/
def checkResponseReveal (req : Option OPoIRequest) : Checked Unit := do
  let committedHash :=
    c.mapResponseCommits[OPoICache.commitKey tx.opoiRequestId tx.opoiMinerAddress]?
  rejectIf tx.opoiResponseHash.isNull (dos 10 "bad-txns-opoi-no-response-hash")
  rejectIf (!fIsVerifying && !(req.any (·.commitWindowClosed)))
    (dos 10 "bad-txns-opoi-response-reveal-too-early")
  rejectIf (req.any (·.responseReveals.contains tx.opoiMinerAddress))
    (alreadyKnown "bad-txns-opoi-response-reveal-already-known")
  rejectIf (!fIsVerifying && committedHash.isNone) (dos 10 "bad-txns-opoi-response-no-commit")
  rejectIf (!fIsVerifying && tx.opoiResponseNonce.isEmpty)
    (dos 10 "bad-txns-opoi-response-no-nonce")
  rejectIf (!fIsVerifying && committedHash != some (hexStr (revealCommitment env tx)))
    (dos 100 "bad-txns-opoi-response-commit-mismatch")
  unlessVerifying fIsVerifying <|
    requireSortition env chainActive c tx.opoiMinerAddress tx.opoiRequestId "" tx.opoiVrfProof
      (opoiVrfThresholdForRequest env.params c tx.opoiRequestId) "bad-txns-opoi-response-"
  requireSig env tx tx.opoiMinerAddress (responseRevealSigMsg tx) "bad-txns-opoi-response-bad-sig"

/-- `case OPOI_RESPONSE_TX_TYPE`. -/
def checkResponse : Checked Unit := do
  let req := if fIsVerifying then none else c.mapRequests[tx.opoiRequestId]?
  rejectIf tx.opoiRequestId.isEmpty (dos 10 "bad-txns-opoi-no-request-id")
  rejectIf tx.opoiMinerAddress.isEmpty (dos 10 "bad-txns-opoi-no-miner")
  rejectIf (!fIsVerifying && !c.isActiveStaker tx.opoiMinerAddress)
    (dos 10 "bad-txns-opoi-miner-not-staked")
  rejectIf (req.any (·.isExpired)) (dos 10 "bad-txns-opoi-request-expired")
  rejectIf (req.any fun r => !r.model.isEmpty &&
      (c.mapStakes[tx.opoiMinerAddress]?).any fun s => !s.modelId.isEmpty && s.modelId != r.model)
    (dos 10 "bad-txns-opoi-response-model-mismatch")
  if tx.opoiResponsePhase = 0 then checkResponseCommit env fIsVerifying c tx req
  else checkResponseReveal env fIsVerifying chainActive c tx req

/-- `case OPOI_STAKE_TX_TYPE`. -/
def checkStake : Checked Unit := do
  rejectIf tx.opoiMinerAddress.isEmpty (dos 10 "bad-txns-opoi-stake-no-miner")
  rejectIf tx.opoiCollateralIn.isNull (dos 10 "bad-txns-opoi-stake-no-collateral")
  rejectIf (decide (tx.opoiPayment ≤ 0)) (dos 10 "bad-txns-opoi-stake-zero-amount")
  requireUnlocked env fIsVerifying c tx tx.opoiCollateralIn "bad-txns-opoi-stake-already-known"
    "bad-txns-opoi-stake-collateral-locked"
  requireSig env tx tx.opoiMinerAddress (stakeSigMsg tx) "bad-txns-opoi-stake-bad-sig"

/-- `case OPOI_UNSTAKE_TX_TYPE`. -/
def checkUnstake : Checked Unit := do
  rejectIf tx.opoiMinerAddress.isEmpty (dos 10 "bad-txns-opoi-unstake-no-miner")
  rejectIf (!fIsVerifying && !c.isActiveStaker tx.opoiMinerAddress &&
      c.isHarmlessUnstakeRedelivery tx.opoiMinerAddress (env.getHash tx))
    (alreadyKnown "bad-txns-opoi-unstake-already-known")
  rejectIf (!fIsVerifying && !c.isActiveStaker tx.opoiMinerAddress)
    (dos 100 "bad-txns-opoi-unstake-not-staked")
  requireSig env tx tx.opoiMinerAddress (unstakeSigMsg tx) "bad-txns-opoi-unstake-bad-sig"

/-- `case OPOI_RENEW_TX_TYPE`. -/
def checkRenew : Checked Unit := do
  rejectIf tx.opoiMinerAddress.isEmpty (dos 10 "bad-txns-opoi-renew-no-miner")
  rejectIf (!fIsVerifying && !((c.mapStakes[tx.opoiMinerAddress]?).any fun s =>
      s.stakeStatus == .active || s.stakeStatus == .suspended))
    (dos 10 "bad-txns-opoi-renew-not-renewable")
  requireSig env tx tx.opoiMinerAddress (renewSigMsg tx) "bad-txns-opoi-renew-bad-sig"

/-- The COMMIT branch of `case OPOI_CHALLENGE_TX_TYPE`. -/
def checkChallengeCommit : Checked Unit := do
  rejectIf (tx.opoiCommitHash.length != 32) (dos 10 "bad-txns-opoi-challenge-no-commit-hash")
  requireUnlocked env fIsVerifying c tx tx.opoiChallengerCollateralIn
    "bad-txns-opoi-challenge-already-known" "bad-txns-opoi-challenge-collateral-locked"
  rejectIf (!fIsVerifying && (c.mapChallenges[tx.opoiRequestId]?).any (·.isOpen))
    (dos 10 "bad-txns-opoi-challenge-already-open")
  requireSig env tx tx.opoiRequester (challengeCommitSigMsg tx) "bad-txns-opoi-challenge-bad-sig"

/-- The REVEAL branch of `case OPOI_CHALLENGE_TX_TYPE`: every phase other than 0. -/
def checkChallengeReveal : Checked Unit := do
  let existing := c.mapChallenges[tx.opoiRequestId]?
  rejectIf (tx.opoiProofData.isEmpty || tx.opoiChallengeNonce.isEmpty)
    (dos 10 "bad-txns-opoi-challenge-no-reveal-data")
  rejectIf (!fIsVerifying && existing.any fun ch =>
      !ch.isOpen && ch.revealTxHash == env.getHash tx)
    (alreadyKnown "bad-txns-opoi-challenge-reveal-already-known")
  rejectIf (!fIsVerifying && !(existing.any (·.isOpen)))
    (dos 10 "bad-txns-opoi-challenge-no-open-commit")
  rejectIf (!fIsVerifying && existing.any (·.challengerAddress != tx.opoiRequester))
    (dos 10 "bad-txns-opoi-challenge-challenger-mismatch")
  rejectIf (!fIsVerifying && existing.any fun ch =>
      ch.commitHash != hexStr (env.sha256 (tx.opoiProofData ++ tx.opoiChallengeNonce)))
    (dos 100 "bad-txns-opoi-challenge-reveal-mismatch")
  requireSig env tx tx.opoiRequester (challengeRevealSigMsg tx) "bad-txns-opoi-challenge-bad-sig"

/-- `case OPOI_CHALLENGE_TX_TYPE`. -/
def checkChallenge : Checked Unit := do
  rejectIf tx.opoiRequestId.isEmpty (dos 10 "bad-txns-opoi-challenge-no-request-id")
  rejectIf tx.opoiRequester.isEmpty (dos 10 "bad-txns-opoi-challenge-no-challenger")
  rejectIf tx.opoiChallengerCollateralIn.isNull (dos 10 "bad-txns-opoi-challenge-no-collateral")
  rejectIf (!fIsVerifying && (c.mapResponses[tx.opoiRequestId]?).isNone)
    (dos 10 "bad-txns-opoi-challenge-unknown-response")
  if tx.opoiChallengePhase = 0 then checkChallengeCommit env fIsVerifying c tx
  else checkChallengeReveal env fIsVerifying c tx

/-- `case OPOI_MODEL_REGISTER_TX_TYPE`. -/
def checkModelRegister : Checked Unit := do
  let existing := c.mapModelManifests[tx.opoiModelId]?
  let dense := tx.opoiModelArchType == OPOI_ARCH_DENSE
  rejectIf tx.opoiModelId.isEmpty (dos 10 "bad-txns-opoi-model-no-id")
  rejectIf tx.opoiRequester.isEmpty (dos 10 "bad-txns-opoi-model-no-proposer")
  rejectIf (!dense && tx.opoiModelArchType != OPOI_ARCH_MOE &&
      tx.opoiModelArchType != OPOI_ARCH_HYBRID) (dos 10 "bad-txns-opoi-model-bad-arch-type")
  rejectIf (dense && (tx.opoiModelNumExperts != 0 || tx.opoiModelTopKExperts != 0 ||
      !tx.opoiModelExpertPomRoots.isEmpty)) (dos 10 "bad-txns-opoi-model-dense-has-experts")
  rejectIf (!dense && (tx.opoiModelNumExperts == 0 || tx.opoiModelTopKExperts == 0 ||
      decide (tx.opoiModelNumExperts < tx.opoiModelTopKExperts)))
    (dos 10 "bad-txns-opoi-model-bad-expert-count")
  rejectIf (!dense && tx.opoiModelExpertPomRoots.length != tx.opoiModelNumExperts)
    (dos 10 "bad-txns-opoi-model-expert-root-count-mismatch")
  rejectIf (tx.opoiModelNumLayers == 0) (dos 10 "bad-txns-opoi-model-zero-layers")
  rejectIf (tx.opoiModelNumDenseShards == 0 ||
      decide (tx.opoiModelNumLayers < tx.opoiModelNumDenseShards))
    (dos 10 "bad-txns-opoi-model-bad-shard-count")
  rejectIf tx.opoiPomRoot.isNull (dos 10 "bad-txns-opoi-model-no-pom-root")
  rejectIf (!fIsVerifying && existing.any (·.txHash == env.getHash tx))
    (alreadyKnown "bad-txns-opoi-model-already-known")
  rejectIf (!fIsVerifying && existing.isSome) (dos 10 "bad-txns-opoi-model-already-registered")
  rejectIf (!fIsVerifying && !c.isActiveStaker tx.opoiRequester)
    (dos 10 "bad-txns-opoi-model-proposer-not-staked")
  requireSig env tx tx.opoiRequester (modelRegisterSigMsg tx) "bad-txns-opoi-model-bad-sig"

/-- `case OPOI_MODEL_VOTE_TX_TYPE`. -/
def checkModelVote : Checked Unit := do
  let m := c.mapModelManifests[tx.opoiModelId]?
  rejectIf tx.opoiModelId.isEmpty (dos 10 "bad-txns-opoi-model-vote-no-id")
  rejectIf tx.opoiRequester.isEmpty (dos 10 "bad-txns-opoi-model-vote-no-voter")
  rejectIf (!fIsVerifying && c.isHarmlessModelVoteRedelivery tx.opoiModelId tx.opoiRequester
      (env.getHash tx)) (alreadyKnown "bad-txns-opoi-model-vote-already-known")
  rejectIf (!fIsVerifying && m.isNone) (dos 10 "bad-txns-opoi-model-vote-unknown-model")
  rejectIf (!fIsVerifying && m.any (!·.isVoting)) (dos 10 "bad-txns-opoi-model-vote-window-closed")
  rejectIf (!fIsVerifying && !c.isActiveStaker tx.opoiRequester)
    (dos 10 "bad-txns-opoi-model-vote-not-staked")
  requireSig env tx tx.opoiRequester (modelVoteSigMsg tx) "bad-txns-opoi-model-vote-bad-sig"

/-- `case OPOI_COORDINATOR_CLAIM_TX_TYPE`. -/
def checkCoordinatorClaim : Checked Unit := do
  rejectIf tx.opoiRequestId.isEmpty (dos 10 "bad-txns-opoi-coord-no-request-id")
  rejectIf tx.opoiMinerAddress.isEmpty (dos 10 "bad-txns-opoi-coord-no-miner")
  rejectIf (!fIsVerifying && !c.isActiveStaker tx.opoiMinerAddress)
    (dos 10 "bad-txns-opoi-coord-not-staked")
  rejectIf (!fIsVerifying && (c.mapRequests[tx.opoiRequestId]?).isNone)
    (dos 10 "bad-txns-opoi-coord-unknown-request")
  -- An address that is already a recorded coordinator is not drawn again.
  unlessVerifying (fIsVerifying || c.isClaimedCoordinator tx.opoiRequestId tx.opoiMinerAddress) <|
    requireSortition env chainActive c tx.opoiMinerAddress tx.opoiRequestId "COORD"
      tx.opoiVrfProof env.params.nOPoICoordinatorThreshold "bad-txns-opoi-coord-"
  requireSig env tx tx.opoiMinerAddress (coordinatorClaimSigMsg tx) "bad-txns-opoi-coord-bad-sig"

/-- The checks of a SHARD_RESULT for a model under governance. -/
def checkShardOfManifest (manifest : ModelManifest) : Checked Unit :=
  match (c.executionGraph env.params manifest)[tx.opoiShardIndex]? with
  | none => .error (dos 10 "bad-txns-opoi-shard-index-out-of-range")
  | some d => do
    rejectIf (d.shardType == .expert && !isExpertShardWithinManifestBounds d manifest)
      (dos 100 "bad-txns-opoi-shard-expert-bounds")
    rejectIf (d.shardType == .expert &&
        !((c.mapStakes[tx.opoiMinerAddress]?).any (·.hostsExpert d.expertId)))
      (dos 10 "bad-txns-opoi-shard-expert-not-hosted")
    rejectIf (d.shardType == .expert && tx.opoiCommitment.isNull)
      (dos 10 "bad-txns-opoi-shard-expert-no-router-hash")

/-- `case OPOI_SHARD_RESULT_TX_TYPE`. -/
def checkShardResult : Checked Unit := do
  let req := c.mapRequests[tx.opoiRequestId]?
  rejectIf tx.opoiRequestId.isEmpty (dos 10 "bad-txns-opoi-shard-no-request-id")
  rejectIf tx.opoiMinerAddress.isEmpty (dos 10 "bad-txns-opoi-shard-no-miner")
  rejectIf tx.opoiResponseHash.isNull (dos 10 "bad-txns-opoi-shard-no-output-hash")
  rejectIf (!fIsVerifying && !c.isActiveStaker tx.opoiMinerAddress)
    (dos 10 "bad-txns-opoi-shard-not-staked")
  rejectIf (!fIsVerifying && req.isNone) (dos 10 "bad-txns-opoi-shard-unknown-request")
  unlessVerifying fIsVerifying <|
    requireSortition env chainActive c tx.opoiMinerAddress tx.opoiRequestId
      ("SHARD" ++ toString tx.opoiShardIndex) tx.opoiVrfProof env.params.nOPoIShardThreshold
      "bad-txns-opoi-shard-"
  unlessVerifying fIsVerifying <|
    match req.bind fun r => c.activeManifest r.model with
    | some manifest => checkShardOfManifest env c tx manifest
    | none => .ok ()
  requireSig env tx tx.opoiMinerAddress (shardResultSigMsg tx) "bad-txns-opoi-shard-bad-sig"

/-- The scope tests of an AUDITOR_VERIFY: an auditable response, or a shard of an
    active model. -/
def checkAuditorScope (req : OPoIRequest) : Checked Unit :=
  if tx.opoiShardIndex = OPOI_AUDITOR_VERIFY_NO_SHARD then
    rejectIf (!req.isVerifiable && !((c.mapResponses[tx.opoiRequestId]?).any (·.auditSelected)))
      (dos 10 "bad-txns-opoi-auditor-not-verifiable")
  else
    match c.activeManifest req.model with
    | none => .error (dos 10 "bad-txns-opoi-auditor-shard-unknown-model")
    | some manifest =>
      rejectIf (!isAuditorVerificationShardIndexValid tx.opoiShardIndex manifest
          (c.shouldCollapseToTitanSingleNode env.params manifest))
        (dos 10 "bad-txns-opoi-auditor-shard-index-out-of-range")

/-- `case OPOI_AUDITOR_VERIFY_TX_TYPE`. -/
def checkAuditorVerify : Checked Unit := do
  rejectIf tx.opoiRequestId.isEmpty (dos 10 "bad-txns-opoi-auditor-no-request-id")
  rejectIf tx.opoiAuditorAddress.isEmpty (dos 10 "bad-txns-opoi-auditor-no-address")
  rejectIf (tx.opoiAuditorVerifyResult != AUDITOR_VERIFY_PASS &&
      tx.opoiAuditorVerifyResult != AUDITOR_VERIFY_FAIL &&
      tx.opoiAuditorVerifyResult != AUDITOR_VERIFY_TIMEOUT)
    (dos 10 "bad-txns-opoi-auditor-invalid-result")
  rejectIf tx.opoiAuditorCollateralIn.isNull (dos 10 "bad-txns-opoi-auditor-no-collateral")
  unlessVerifying fIsVerifying <|
    match c.mapRequests[tx.opoiRequestId]? with
    | none => .error (dos 10 "bad-txns-opoi-auditor-not-verifiable")
    | some req => checkAuditorScope env c tx req
  requireUnlocked env fIsVerifying c tx tx.opoiAuditorCollateralIn
    "bad-txns-opoi-auditor-already-known" "bad-txns-opoi-auditor-collateral-locked"
  requireSig env tx tx.opoiAuditorAddress (auditorVerifySigMsg tx) "bad-txns-opoi-auditor-bad-sig"

def checkOPoITransaction : Checked Unit :=
  if tx.nVersion ≠ OPOI_TX_VERSION then .ok ()
  else do
    rejectIf (!(tx.vin.isEmpty && tx.vout.isEmpty && tx.vJoinSplit.isEmpty))
      (dos 10 "bad-txns-opoi-not-empty")
    match tx.opoiType with
    | .request => checkRequest env fIsVerifying c tx
    | .response => checkResponse env fIsVerifying chainActive c tx
    | .stake => checkStake env fIsVerifying c tx
    | .unstake => checkUnstake env fIsVerifying c tx
    | .renew => checkRenew env fIsVerifying c tx
    | .challenge => checkChallenge env fIsVerifying c tx
    | .modelRegister => checkModelRegister env fIsVerifying c tx
    | .modelVote => checkModelVote env fIsVerifying c tx
    | .coordinatorClaim => checkCoordinatorClaim env fIsVerifying chainActive c tx
    | .shardResult => checkShardResult env fIsVerifying chainActive c tx
    | .auditorVerify => checkAuditorVerify env fIsVerifying c tx
    | .unknown => .error (dos 10 "bad-txns-opoi-invalid-type")

end Checks

end CloudService
