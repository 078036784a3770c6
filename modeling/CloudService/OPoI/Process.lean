/-
  `ProcessOPoITransaction` (`opoi/opoi.cpp`): the effect of every OPoI
  transaction type on the cache, one definition for each branch of the apply
  path and one for each branch of the undo path.
-/

import CloudService.OPoI.Cache

namespace CloudService

open OPoICache

/-! ## Audit sortition -/

def computeOPoIAuditSampleSelected (env : Env) (commitmentHashBytes : Bytes) (seedHash : Uint256)
    (rateBp : Int) : Bool :=
  if rateBp ≤ 0 then false
  else if 10000 ≤ rateBp then true
  else if commitmentHashBytes.length ≠ 32 then false
  else
    let val := leNat (env.sha256 (commitmentHashBytes ++ seedHash.bytes))
    let threshold := ((2 ^ 256 - 1) / 10000 * rateBp.toNat) % 2 ^ 256
    decide (val < threshold)

/-- `GetOPoIAuditSampleSeedHash`: the hash of the block after the commit. -/
def getOPoIAuditSampleSeedHash (chainActive : List Uint256) (commitHeight : Nat) :
    Option Uint256 :=
  chainActive[u32 (commitHeight + 1)]?

/-- The sampling rate for a miner: the count is the one before this response. -/
def auditSampleRateBp (params : Params) (c : OPoICache) (minerAddress : String) : Int :=
  let responsesSoFar := (c.mapStakes[minerAddress]?.map OPoIStake.responsesTotal).getD 0
  if responsesSoFar < params.nOPoIAuditSampleNewMinerResponseCount then
    params.nOPoIAuditSampleRateNewMinerBp
  else params.nOPoIAuditSampleRateBp

/-- `EvaluateOPoIAuditSample`: the selection and, if selected, the deadline. -/
def evaluateOPoIAuditSample (env : Env) (chainActive : List Uint256) (c : OPoICache)
    (requestId minerAddress : String) (currentHeight : Nat) : Bool × Nat :=
  match c.mapRequests[requestId]? with
  | none => (false, 0)
  | some req =>
    if req.isVerifiable then (false, 0)
    else
      let key := commitKey requestId minerAddress
      match c.mapResponseCommitHeight[key]?, c.mapResponseCommits[key]? with
      | some commitHeight, some commitHashHex =>
        match getOPoIAuditSampleSeedHash chainActive commitHeight with
        | none => (false, 0)
        | some seedHash =>
          if computeOPoIAuditSampleSelected env (parseHex commitHashHex) seedHash
              (auditSampleRateBp env.params c minerAddress) then
            (true, u32 (currentHeight + u32OfInt (max 1 env.params.nOPoIAuditWindowBlocks)))
          else (false, 0)
      | _, _ => (false, 0)

section Apply

variable (env : Env) (chainActive : List Uint256) (blockHeight : Nat) (c : OPoICache)
  (tx : CTransaction)

def applyRequest : OPoICache :=
  c.addRequest
    { requestId := tx.opoiRequestId
      requester := tx.opoiRequester
      model := tx.opoiModel
      promptHash := tx.opoiPromptHash
      maxTokens := tx.opoiMaxTokens
      payment := tx.opoiPayment
      feePerToken := tx.opoiFeePerToken
      taskType := tx.opoiTaskType
      taskClass := tx.opoiTaskClass
      promptTokenCount := tx.opoiPromptTokenCount
      isCanary := tx.opoiIsCanary
      testSuite := tx.opoiTestSuite
      blockHeight := blockHeight
      sigTime := tx.opoiSigTime
      txHash := env.getHash tx
      status := .pending
      responseCommits := ∅
      responseReveals := ∅
      commitWindowClosed := false
      vrfActiveStakers := u32 c.countActiveStakers }

def applyResponseCommit : OPoICache :=
  c.addResponseCommit tx.opoiRequestId tx.opoiMinerAddress (hexStr tx.opoiResponseCommitHash)
    blockHeight (env.getHash tx)

/-- The record that a RESPONSE REVEAL stores. -/
def revealedResponse : OPoIResponse :=
  let sample := evaluateOPoIAuditSample env chainActive c tx.opoiRequestId tx.opoiMinerAddress
    blockHeight
  { requestId := tx.opoiRequestId
    minerAddress := tx.opoiMinerAddress
    responseHash := tx.opoiResponseHash
    commitment := tx.opoiCommitment
    tokenCount := tx.opoiTokenCount
    blockHeight := blockHeight
    sigTime := tx.opoiSigTime
    txHash := env.getHash tx
    auditSelected := sample.1
    auditDeadline := sample.2 }

def applyResponseReveal : OPoICache :=
  ((c.addResponse (revealedResponse env chainActive blockHeight c tx)).modifyStake
    tx.opoiMinerAddress fun s =>
      { s with responsesTotal := u32 (s.responsesTotal + 1) }).modifyRequest
    tx.opoiRequestId fun r =>
      { r with responseReveals := r.responseReveals.insert tx.opoiMinerAddress
                 tx.opoiResponseHash.getHex }

def stakeSigMsg : String :=
  tx.opoiMinerAddress ++ tx.opoiCollateralIn.hash.getHex ++ toString tx.opoiCollateralIn.n

/-- The record that a STAKE creates. -/
def newStake : OPoIStake :=
  { minerAddress := tx.opoiMinerAddress
    collateralIn := tx.opoiCollateralIn
    amount := tx.opoiPayment
    modelId := tx.opoiModelId
    tier := tx.opoiTier
    pomRoot := tx.opoiPomRoot
    blockHeight := blockHeight
    lastRenewalHeight := 0
    sigTime := tx.opoiSigTime
    txHash := env.getHash tx
    stakeStatus := .active
    unstakeHeight := 0
    unstakeTxHash := 0
    responsesTotal := 0
    responsesChallenged := 0
    responsesSlashed := 0
    canaryStrikes := 0
    canaryObligationDeadline := 0
    minerPubKey := (env.verifyOPoISig tx.opoiMinerAddress (stakeSigMsg tx) tx.opoiSig).getD []
    hostedExpertIds := tx.opoiHostedExpertIds
    endpoint := tx.opoiEndpoint }

def applyStake : OPoICache :=
  (c.addStake (newStake env blockHeight tx)).lockUTXO tx.opoiCollateralIn tx.opoiMinerAddress
    (env.getHash tx)

def applyUnstake : OPoICache :=
  c.startUnstake tx.opoiMinerAddress blockHeight (env.getHash tx)

/-- Apply of a RENEW: the stake becomes ACTIVE whatever its status was. -/
def applyRenew : OPoICache :=
  c.modifyStake tx.opoiMinerAddress fun s =>
    { s with lastRenewalHeight := blockHeight, canaryStrikes := 0, stakeStatus := .active }

/-- The record that a CHALLENGE COMMIT opens. -/
def openedChallenge : OPoIChallenge :=
  { requestId := tx.opoiRequestId
    challengerAddress := tx.opoiRequester
    fraudProof := []
    challengerCollateral := tx.opoiChallengerCollateralIn
    phase := 0
    commitHash := hexStr tx.opoiCommitHash
    commitHeight := blockHeight
    blockHeight := blockHeight
    sigTime := tx.opoiSigTime
    txHash := env.getHash tx
    challengeStatus := .opened
    revealTxHash := 0 }

/-- The address of the miner whose response to a request is recorded. -/
def responder (requestId : String) : Option String :=
  c.mapResponses[requestId]?.map OPoIResponse.minerAddress

/-- Assignment to the stake of the responder of a request, when both exist. -/
def modifyResponderStake (requestId : String) (f : OPoIStake → OPoIStake) : OPoICache :=
  match responder c requestId with
  | some m => c.modifyStake m f
  | none => c

def applyChallengeCommit : OPoICache :=
  modifyResponderStake
    ((c.addChallenge (openedChallenge env blockHeight tx)).lockUTXO tx.opoiChallengerCollateralIn
      tx.opoiRequester (env.getHash tx))
    tx.opoiRequestId fun s => { s with responsesChallenged := u32 (s.responsesChallenged + 1) }

/-- The slash of a proven challenge: only an ACTIVE stake is touched. -/
def slashStake (s : OPoIStake) : OPoIStake :=
  if s.isActive then
    { s with stakeStatus := .slashed, responsesSlashed := u32 (s.responsesSlashed + 1) }
  else s

/-- A challenge proven by the auditors: slash the responder, return the collateral. -/
def proveChallenge (requestId : String) (ch : OPoIChallenge) : OPoICache :=
  ((modifyResponderStake c requestId slashStake).unlockUTXO ch.challengerCollateral)

/-- The record after the disclosure of a REVEAL, before its resolution. -/
def revealedChallenge (ch : OPoIChallenge) : OPoIChallenge :=
  { ch with phase := 1, fraudProof := tx.opoiProofData, revealTxHash := env.getHash tx }

/-- Whether the auditors are the oracle of a challenge on this request. -/
def isVerifiableRequest (requestId : String) : Bool :=
  match c.mapRequests[requestId]? with
  | some req => req.isVerifiable
  | none => false

/-- The status that a REVEAL resolves a challenge to. -/
def revealOutcome : ChallengeStatus :=
  if isVerifiableRequest c tx.opoiRequestId then
    match c.getAuditorMajorityResult tx.opoiRequestId env.params.nOPoIMinAuditors with
    | some 1 => .slashed
    | some 0 => .expired
    | _ => .revealedPending
  else .resolvedNoOracle

def applyChallengeReveal : OPoICache :=
  match c.mapChallenges[tx.opoiRequestId]? with
  | none => c
  | some ch =>
    let outcome := revealOutcome env c tx
    let resolved :=
      match outcome with
      | .slashed => proveChallenge c tx.opoiRequestId ch
      | .resolvedNoOracle => c.unlockUTXO ch.challengerCollateral
      | _ => c
    resolved.modifyChallenge tx.opoiRequestId fun ch =>
      { revealedChallenge env tx ch with challengeStatus := outcome }

def applyModelRegister : OPoICache :=
  let m : ModelManifest :=
    { modelId := tx.opoiModelId
      archType := tx.opoiModelArchType
      totalParams := tx.opoiModelTotalParams
      activeParamsPerToken := tx.opoiModelActiveParamsPerToken
      numLayers := tx.opoiModelNumLayers
      numDenseShards := tx.opoiModelNumDenseShards
      numExperts := tx.opoiModelNumExperts
      topKExperts := tx.opoiModelTopKExperts
      backbonePomRoot := tx.opoiPomRoot
      expertPomRoots := tx.opoiModelExpertPomRoots
      minRewardPerToken := tx.opoiModelMinRewardPerToken
      totalSizeBytes := tx.opoiModelTotalSizeBytes
      proposer := tx.opoiRequester
      proposedHeight := blockHeight
      voteWindowEndHeight := u32 (blockHeight + u32OfInt env.params.nOPoIModelVoteWindowBlocks)
      activationHeight := 0
      txHash := env.getHash tx
      status := .voting
      shardTopologyHash := 0 }
  c.addModelManifest { m with shardTopologyHash := env.computeShardTopologyHash m }

def applyModelVote : OPoICache :=
  c.addModelVote tx.opoiModelId
    { voterAddress := tx.opoiRequester
      approve := tx.opoiModelVoteApprove != 0
      weight := match c.mapStakes[tx.opoiRequester]? with
        | some s => if s.isActive then s.amount else 0
        | none => 0
      blockHeight := blockHeight
      txHash := env.getHash tx }

def applyCoordinatorClaim : OPoICache :=
  c.addCoordinatorClaim
    { requestId := tx.opoiRequestId
      minerAddress := tx.opoiMinerAddress
      blockHeight := blockHeight
      txHash := env.getHash tx }

def applyShardResult : OPoICache :=
  c.addShardResult tx.opoiRequestId tx.opoiShardIndex
    { minerAddress := tx.opoiMinerAddress
      boundaryOutputHash := tx.opoiResponseHash
      routerLogitsHash := tx.opoiCommitment
      tokenCount := tx.opoiTokenCount
      blockHeight := blockHeight
      txHash := env.getHash tx }

/-- The record of an AUDITOR_VERIFY. -/
def newVote : AuditorVerification :=
  { requestId := tx.opoiRequestId
    auditorAddress := tx.opoiAuditorAddress
    result := tx.opoiAuditorVerifyResult
    auditorCollateral := tx.opoiAuditorCollateralIn
    blockHeight := blockHeight
    txHash := env.getHash tx
    status := .pending
    shardIndex := tx.opoiShardIndex }

/-- Apply of an AUDITOR_VERIFY: on the whole response, or on one shard. -/
def applyAuditorVerify : OPoICache :=
  if tx.opoiShardIndex = OPOI_AUDITOR_VERIFY_NO_SHARD then
    c.addAuditorVerification (newVote env blockHeight tx)
  else
    c.addShardAuditorVerification tx.opoiRequestId tx.opoiShardIndex (newVote env blockHeight tx)

/-- `ProcessOPoITransaction` with `fUndo = false`. -/
def applyOPoITransaction : OPoICache :=
  match tx.opoiType with
  | .request => applyRequest env blockHeight c tx
  | .response =>
    if tx.opoiResponsePhase = 0 then applyResponseCommit env blockHeight c tx
    else applyResponseReveal env chainActive blockHeight c tx
  | .stake => applyStake env blockHeight c tx
  | .unstake => applyUnstake env blockHeight c tx
  | .renew => applyRenew blockHeight c tx
  | .challenge =>
    if tx.opoiChallengePhase = 0 then applyChallengeCommit env blockHeight c tx
    else applyChallengeReveal env c tx
  | .modelRegister => applyModelRegister env blockHeight c tx
  | .modelVote => applyModelVote env blockHeight c tx
  | .coordinatorClaim => applyCoordinatorClaim env blockHeight c tx
  | .shardResult => applyShardResult env blockHeight c tx
  | .auditorVerify => applyAuditorVerify env blockHeight c tx
  | .unknown => c

end Apply

section Undo

variable (c : OPoICache) (tx : CTransaction)

def undoRequest : OPoICache := { c with mapRequests := c.mapRequests.erase tx.opoiRequestId }

def undoResponseCommit : OPoICache :=
  let key := commitKey tx.opoiRequestId tx.opoiMinerAddress
  { c with
    mapResponseCommits := c.mapResponseCommits.erase key
    mapResponseCommitTxHash := c.mapResponseCommitTxHash.erase key
    mapResponseCommitHeight := c.mapResponseCommitHeight.erase key }.modifyRequest
    tx.opoiRequestId fun r =>
      { r with responseCommits := r.responseCommits.erase tx.opoiMinerAddress }

def undoResponseReveal : OPoICache :=
  ((({ c with mapResponses := c.mapResponses.erase tx.opoiRequestId }.modifyRequest
    tx.opoiRequestId fun r =>
      { r with status := .pending
               responseReveals := r.responseReveals.erase tx.opoiMinerAddress }).unmarkResponsePaid
    tx.opoiRequestId).modifyStake tx.opoiMinerAddress fun s =>
      if 0 < s.responsesTotal then { s with responsesTotal := s.responsesTotal - 1 } else s)

def undoStake : OPoICache :=
  { c with mapStakes := c.mapStakes.erase tx.opoiMinerAddress }.unlockUTXO tx.opoiCollateralIn

def undoUnstake : OPoICache :=
  c.modifyStake tx.opoiMinerAddress fun s =>
    { s with stakeStatus := .active, unstakeHeight := 0, unstakeTxHash := 0 }

def undoChallengeCommit : OPoICache :=
  let unlocked := c.unlockUTXO tx.opoiChallengerCollateralIn
  { unlocked with mapChallenges := unlocked.mapChallenges.erase tx.opoiRequestId }

def undoChallengeReveal : OPoICache :=
  match c.mapChallenges[tx.opoiRequestId]? with
  | none => c
  | some ch =>
    let reverted :=
      match ch.challengeStatus with
      | .slashed =>
        ((modifyResponderStake c tx.opoiRequestId fun s =>
            { s with stakeStatus := .active }).lockUTXO ch.challengerCollateral
          ch.challengerAddress ch.txHash).unmarkChallengerRewardPaid tx.opoiRequestId
      | .resolvedNoOracle =>
        c.lockUTXO ch.challengerCollateral ch.challengerAddress ch.txHash
      | _ => c
    reverted.modifyChallenge tx.opoiRequestId fun ch =>
      { ch with phase := 0, fraudProof := [], challengeStatus := .opened, revealTxHash := 0 }

def undoModelRegister : OPoICache :=
  { c with
    mapModelManifests := c.mapModelManifests.erase tx.opoiModelId
    mapModelVotes := c.mapModelVotes.erase tx.opoiModelId }

def undoModelVote : OPoICache :=
  { c with mapModelVotes := c.mapModelVotes.modify tx.opoiModelId (·.erase tx.opoiRequester) }

def undoCoordinatorClaim : OPoICache :=
  { c with
    mapCoordinatorClaims := c.mapCoordinatorClaims.modify tx.opoiRequestId fun claims =>
      claims.filter fun claim => claim.minerAddress != tx.opoiMinerAddress }

def undoShardResult : OPoICache :=
  { c with
    mapShardResults :=
      c.mapShardResults.modify (shardKey tx.opoiRequestId tx.opoiShardIndex) fun subs =>
        subs.filter fun s => s.minerAddress != tx.opoiMinerAddress }.unmarkShardPaid
    tx.opoiRequestId tx.opoiShardIndex

/-- The status of the auditor's vote in a list, PENDING when there is none. -/
def voteStatus (verifs : List AuditorVerification) (auditorAddress : String) : AuditorStatus :=
  match verifs.find? (·.auditorAddress == auditorAddress) with
  | some v => v.status
  | none => .pending

/-- The vote list without the votes of one auditor. -/
def removeVotes (auditorAddress : String) (verifs : List AuditorVerification) :
    List AuditorVerification :=
  verifs.filter fun v => v.auditorAddress != auditorAddress

/-- The release of the collateral when a vote is undone: a burned vote keeps its lock. -/
def unlockUnlessSlashed (status : AuditorStatus) (out : COutPoint) : OPoICache :=
  if status = .slashed then c else c.unlockUTXO out

def undoAuditorVerify : OPoICache :=
  if tx.opoiShardIndex = OPOI_AUDITOR_VERIFY_NO_SHARD then
    let status := voteStatus (c.mapAuditorVerifications.getD tx.opoiRequestId [])
      tx.opoiAuditorAddress
    (unlockUnlessSlashed
      { c with
        mapAuditorVerifications := c.mapAuditorVerifications.modify tx.opoiRequestId
          (removeVotes tx.opoiAuditorAddress) }
      status tx.opoiAuditorCollateralIn).unmarkAuditorResolved tx.opoiRequestId
  else
    let key := shardKey tx.opoiRequestId tx.opoiShardIndex
    let status := voteStatus (c.mapShardAuditorVerifications.getD key []) tx.opoiAuditorAddress
    (unlockUnlessSlashed
      { c with
        mapShardAuditorVerifications := c.mapShardAuditorVerifications.modify key
          (removeVotes tx.opoiAuditorAddress) }
      status tx.opoiAuditorCollateralIn).unmarkShardAuditorResolved tx.opoiRequestId
      tx.opoiShardIndex

/-- `ProcessOPoITransaction` with `fUndo = true`. The undo of a RENEW does nothing. -/
def undoOPoITransaction : OPoICache :=
  match tx.opoiType with
  | .request => undoRequest c tx
  | .response =>
    if tx.opoiResponsePhase = 0 then undoResponseCommit c tx else undoResponseReveal c tx
  | .stake => undoStake c tx
  | .unstake => undoUnstake c tx
  | .renew => c
  | .challenge =>
    if tx.opoiChallengePhase = 0 then undoChallengeCommit c tx else undoChallengeReveal c tx
  | .modelRegister => undoModelRegister c tx
  | .modelVote => undoModelVote c tx
  | .coordinatorClaim => undoCoordinatorClaim c tx
  | .shardResult => undoShardResult c tx
  | .auditorVerify => undoAuditorVerify c tx
  | .unknown => c

end Undo

def processOPoITransaction (env : Env) (chainActive : List Uint256) (tx : CTransaction)
    (blockHeight : Nat) (fUndo : Bool) (c : OPoICache) : OPoICache :=
  if tx.nVersion ≠ OPOI_TX_VERSION then c
  else if fUndo then undoOPoITransaction c tx
  else applyOPoITransaction env chainActive blockHeight c tx

end CloudService
