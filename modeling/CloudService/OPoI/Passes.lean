/-
  The per-block state transitions (`opoi/opoi.cpp`). A loop that only rewrites its entry is a
  map over the entries, any other a fold over the keys.
-/

import CloudService.OPoI.Payments

namespace CloudService

section Passes

variable (env : Env) (blockHeight : Nat) (vtx : List CTransaction) (c : OPoICache)

/-! ## Challenges and unstaking -/

/-- Assignment of the status of a challenge. -/
def setChallengeStatus (c : OPoICache) (key : String) (status : ChallengeStatus) : OPoICache :=
  c.modifyChallenge key fun ch => { ch with challengeStatus := status }

/-- The body of the challenge loop of `ProcessExpiredChallenges`. -/
def expireChallenge (c : OPoICache) (key : String) : OPoICache :=
  match c.mapChallenges[key]? with
  | none => c
  | some ch =>
    if ch.isOpen then
      if asInt32 (subU32 blockHeight ch.commitHeight)
          < env.params.nOPoIChallengeCommitRevealBlocks then c
      else setChallengeStatus c key .expired
    else if ch.isPendingResolution then
      match c.getAuditorMajorityResult ch.requestId env.params.nOPoIMinAuditors with
      | some 1 => setChallengeStatus (proveChallenge c ch.requestId ch) key .slashed
      | some 0 => setChallengeStatus c key .expired
      | _ => c
    else c

/-- The stake loop of `ProcessExpiredChallenges`: only `mapLockedUTXOs` is updated. -/
def releaseStake (c : OPoICache) (key : String) : OPoICache :=
  match c.mapStakes[key]? with
  | none => c
  | some stake =>
    if stake.isUnstaking && decide (env.params.nOPoIUnstakeCooldownBlocks
        ≤ asInt32 (subU32 blockHeight stake.unstakeHeight)) then
      { c with
        mapStakes := c.mapStakes.modify key fun s => { s with stakeStatus := .released }
        mapLockedUTXOs := c.mapLockedUTXOs.erase stake.collateralIn }
    else c

def processExpiredChallenges : OPoICache :=
  let resolved := c.mapChallenges.keys.foldl (expireChallenge env blockHeight) c
  resolved.mapStakes.keys.foldl (releaseStake env blockHeight) resolved

/-! ## Requests -/

/-- The body of the loop of `ProcessExpiredRequests`. -/
def expireRequest (req : OPoIRequest) : OPoIRequest :=
  if req.isPending && decide (env.params.nOPoIRequestExpiryBlocks
      ≤ asInt32 (subU32 blockHeight req.blockHeight)) then
    { req with status := .expired }
  else req

def processExpiredRequests : OPoICache :=
  if env.params.nOPoIRequestExpiryBlocks ≤ 0 then c
  else { c with mapRequests := c.mapRequests.map fun _ req => expireRequest env blockHeight req }

/-- The body of the loop of `ProcessResponseCommitWindows`. -/
def closeCommitWindow (req : OPoIRequest) : OPoIRequest :=
  if req.commitWindowClosed = false ∧
      u32OfInt env.params.nOPoIResponseCommitWindowBlocks ≤ subU32 blockHeight req.blockHeight then
    { req with commitWindowClosed := true }
  else req

def processResponseCommitWindows : OPoICache :=
  if env.params.nOPoIResponseCommitWindowBlocks ≤ 0 then c
  else
    { c with mapRequests := c.mapRequests.map fun _ req => closeCommitWindow env blockHeight req }

/-! ## Stake renewals and canary audits -/

/-- The body of the loop of `ProcessStakeRenewals`. -/
def suspendOverdue (stake : OPoIStake) : OPoIStake :=
  if stake.isActive && decide (u32OfInt env.params.nOPoIStakeRenewalBlocks
      ≤ subU32 blockHeight (max stake.blockHeight stake.lastRenewalHeight)) then
    { stake with stakeStatus := .suspended }
  else stake

def processStakeRenewals : OPoICache :=
  if env.params.nOPoIStakeRenewalBlocks ≤ 0 then c
  else { c with mapStakes := c.mapStakes.map fun _ s => suspendOverdue env blockHeight s }

/-- A canary strike: the obligation is discharged and the third strike suspends. -/
def strikeCanary (stake : OPoIStake) : OPoIStake :=
  { stake with
    canaryObligationDeadline := 0
    canaryStrikes := incU8 stake.canaryStrikes
    stakeStatus := if OPOI_MAX_CANARY_STRIKES ≤ incU8 stake.canaryStrikes ∧ stake.isActive then
      .suspended else stake.stakeStatus }

/-- The first sweep of `ProcessCanaryAudits`: strike a missed obligation. -/
def strikeMissed (stake : OPoIStake) : OPoIStake :=
  if stake.canaryObligationDeadline = 0 ∨ blockHeight ≤ stake.canaryObligationDeadline then stake
  else strikeCanary stake

/-- The second sweep of `ProcessCanaryAudits`: one ACTIVE staker gets an obligation. -/
def assignCanary (c : OPoICache) : OPoICache :=
  let frequency := u32OfInt env.params.nOPoICanaryAuditFrequency
  if blockHeight % frequency ≠ 0 then c
  else
    let activeAddrs := (c.mapStakes.toList.filter (·.2.isActive)).map (·.1)
    match activeAddrs[blockHeight / frequency % activeAddrs.length]? with
    | none => c
    | some chosen =>
      c.modifyStake chosen fun s =>
        { s with
          canaryObligationDeadline :=
            u32 (blockHeight + u32OfInt (max 1 env.params.nOPoICanaryResponseWindow)) }

def processCanaryAudits : OPoICache :=
  if env.params.nOPoICanaryAuditFrequency ≤ 0 then c
  else assignCanary env blockHeight
    { c with mapStakes := c.mapStakes.map fun _ s => strikeMissed blockHeight s }

/-! ## Model governance -/

/-- The nearest double to an integer, ties to even: exact up to 53 bits. -/
def roundDouble (i : Int) : Int :=
  let n := i.natAbs
  if n < 2 ^ 53 then i
  else
    let unit := 2 ^ (Nat.log2 n - 52)
    let quotient := n / unit
    let rounded :=
      if n % unit * 2 < unit ∨ (n % unit * 2 = unit ∧ quotient % 2 = 0) then quotient
      else quotient + 1
    i.sign * (rounded * unit : Nat)

/-- The approval test: a comparison of products computed in `double`. -/
def modelApproved (yesWeight totalActiveStake : CAmount) (approvalPct : Int) : Bool :=
  decide (0 < totalActiveStake) &&
    decide (roundDouble (roundDouble totalActiveStake * approvalPct)
      ≤ roundDouble (roundDouble yesWeight * 100))

/-- The tally of one manifest whose voting window has closed. -/
def tallyManifest (c : OPoICache) (m : ModelManifest) : OPoICache :=
  if modelApproved (c.tallyModelVotes m.modelId).1 c.totalActiveStake
      env.params.nOPoIModelApprovalPct then
    c.setModelManifestStatus m.modelId .approved
      (u32 (blockHeight + u32OfInt env.params.nOPoIModelActivationDelayBlocks))
  else c.setModelManifestStatus m.modelId .rejected

/-- The activation of one approved manifest. -/
def activateManifest (c : OPoICache) (m : ModelManifest) : OPoICache :=
  if 0 < m.activationHeight ∧ m.activationHeight ≤ blockHeight then
    c.setModelManifestStatus m.modelId .active
  else c

def processModelVotingWindows : OPoICache :=
  let tallied := (c.listManifestsDueForTally blockHeight).foldl (tallyManifest env blockHeight) c
  ((TreeMap.vals tallied.mapModelManifests).filter (·.status == .approved)).foldl
    (activateManifest blockHeight) tallied

/-! ## Paid marks -/

def processShardPayments : OPoICache :=
  (getShardPaymentsForBlock env c vtx).foldl
    (fun c p => c.markShardPaid p.requestId p.shardIndex) c

def processVerifiableResponsePayments : OPoICache :=
  (getVerifiablePaymentsForBlock env c vtx).foldl (fun c p => c.markResponsePaid p.requestId) c

def processAuditSampledOpenResponsePayments : OPoICache :=
  (getAuditSampledOpenPaymentsForBlock env c vtx blockHeight).foldl
    (fun c p => c.markResponsePaid p.requestId) c

def processChallengerRewardPayments : OPoICache :=
  (getChallengerRewardsAtHeight env c vtx).foldl
    (fun c r => c.markChallengerRewardPaid r.requestId) c

/-! ## Auditor resolution -/

/-- The verdict on one vote: COMPLETE with the majority, SLASHED against it. -/
def resolveVote (majority : Nat) (fv : AuditorVerification) : AuditorVerification :=
  { fv with status := if fv.result = majority then .complete else .slashed }

/-- The release of the collateral of the votes with the majority. -/
def unlockMajority (majority : Nat) (c : OPoICache) (verifs : List AuditorVerification) :
    OPoICache :=
  verifs.foldl (fun c fv => if fv.result = majority then c.unlockUTXO fv.auditorCollateral else c) c

/-- The effect of a resolved canary on the responding miner. -/
def resolveCanary (majority : Nat) (c : OPoICache) (requestId : String) : OPoICache :=
  match c.mapRequests[requestId]? with
  | none => c
  | some req =>
    if req.isCanary = 0 then c
    else if majority = AUDITOR_VERIFY_FAIL then modifyResponderStake c requestId strikeCanary
    else if majority = AUDITOR_VERIFY_PASS then
      modifyResponderStake c requestId fun s => { s with canaryObligationDeadline := 0 }
    else c

/-- The body of the whole-response loop of `ProcessAuditorVerifications`. -/
def resolveAuditors (c : OPoICache) (requestId : String) : OPoICache :=
  if c.isAuditorResolved requestId then c
  else
    match c.getAuditorMajorityResult requestId env.params.nOPoIMinAuditors with
    | none => c
    | some majority =>
      let unlocked := unlockMajority majority c (c.getAuditorVerifications requestId)
      resolveCanary majority
        ({ unlocked with
           mapAuditorVerifications := unlocked.mapAuditorVerifications.modify requestId
             (·.map (resolveVote majority)) }.markAuditorResolved requestId) requestId

/-- The body of the shard loop of `ProcessAuditorVerifications`. -/
def resolveShardAuditors (c : OPoICache) (key : String) : OPoICache :=
  match c.mapShardAuditorVerifications[key]? with
  | none => c
  | some verifs =>
    match verifs.head? with
    | none => c
    | some front =>
      if c.isShardAuditorResolved front.requestId front.shardIndex then c
      else
        match computeAuditorMajority verifs env.params.nOPoIMinAuditors with
        | none => c
        | some majority =>
          let unlocked := unlockMajority majority c verifs
          { unlocked with
            mapShardAuditorVerifications := unlocked.mapShardAuditorVerifications.modify key
              (·.map (resolveVote majority)) }.markShardAuditorResolved front.requestId
            front.shardIndex

def processAuditorVerifications : OPoICache :=
  let resolved := c.mapAuditorVerifications.keys.foldl (resolveAuditors env) c
  resolved.mapShardAuditorVerifications.keys.foldl (resolveShardAuditors env) resolved

/-! ## The sequence of passes -/

/-- The passes that both `ConnectBlock` and `RebuildOPoICache` run, in order. -/
def blockPasses : OPoICache :=
  let c := processExpiredChallenges env blockHeight c
  let c := processExpiredRequests env blockHeight c
  let c := processResponseCommitWindows env blockHeight c
  let c := processStakeRenewals env blockHeight c
  let c := processCanaryAudits env blockHeight c
  let c := processModelVotingWindows env blockHeight c
  let c := processShardPayments env vtx c
  let c := processVerifiableResponsePayments env vtx c
  let c := processAuditSampledOpenResponsePayments env blockHeight vtx c
  processAuditorVerifications env c

/-- The per-block transitions of `ConnectBlock`: the reward marks come first. -/
def connectPasses : OPoICache :=
  blockPasses env blockHeight vtx (processChallengerRewardPayments env vtx c)

end Passes

end CloudService
