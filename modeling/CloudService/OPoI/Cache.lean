/-
  `OPoICache` and its member functions (`opoi/opoi.h`): the in-memory index that
  every node derives from the chain, without the relay data that consensus code
  never reads.
-/

import CloudService.Consensus.Params

namespace CloudService

open TreeMap

/-- `OPoICache`. `mapLockingTxHash` only serves to recognise redelivered transactions. -/
structure OPoICache where
  mapRequests : StrMap OPoIRequest := ∅
  mapResponses : StrMap OPoIResponse := ∅
  mapResponseCommits : StrMap String := ∅
  mapResponseCommitTxHash : StrMap Uint256 := ∅
  mapResponseCommitHeight : StrMap Nat := ∅
  mapStakes : StrMap OPoIStake := ∅
  mapChallenges : StrMap OPoIChallenge := ∅
  mapLockedUTXOs : Std.ExtTreeMap COutPoint String := ∅
  mapLockingTxHash : Std.ExtTreeMap COutPoint Uint256 := ∅
  mapAuditorVerifications : StrMap (List AuditorVerification) := ∅
  mapShardAuditorVerifications : StrMap (List AuditorVerification) := ∅
  mapModelManifests : StrMap ModelManifest := ∅
  mapModelVotes : StrMap (StrMap ModelVoteRecord) := ∅
  mapCoordinatorClaims : StrMap (List ShardCoordinatorClaim) := ∅
  mapShardResults : StrMap (List ShardResultSubmission) := ∅
  setPaidShards : StrSet := ∅
  setResolvedAuditorVerifications : StrSet := ∅
  setResolvedShardAuditorVerifications : StrSet := ∅
  setPaidResponses : StrSet := ∅
  setPaidChallengerRewards : StrSet := ∅
deriving DecidableEq

/-! ## Majorities -/

/-- The number of votes with the given result. -/
def countResult (verifs : List AuditorVerification) (result : Nat) : Nat :=
  verifs.countP fun fv => fv.result == result

/-- `ComputeAuditorMajority`; `none` stands for `-1`. -/
def computeAuditorMajority (verifs : List AuditorVerification) (minVerifiers : Int) :
    Option Nat :=
  let pass := countResult verifs AUDITOR_VERIFY_PASS
  let fail := countResult verifs AUDITOR_VERIFY_FAIL
  let timeout := countResult verifs AUDITOR_VERIFY_TIMEOUT
  let revealed := pass + fail + timeout
  if (revealed : Int) < minVerifiers then none
  else if revealed / 2 < pass then some AUDITOR_VERIFY_PASS
  else if revealed / 2 < fail then some AUDITOR_VERIFY_FAIL
  else if revealed / 2 < timeout then some AUDITOR_VERIFY_TIMEOUT
  else none

/-- The grouping key of `ComputeShardMajority`. -/
def ShardResultSubmission.key (s : ShardResultSubmission) : Uint256 × Nat :=
  (s.boundaryOutputHash, s.tokenCount)

/-- The result of `ComputeShardMajority` when a strict majority exists. -/
structure ShardMajority where
  majorityHash : Uint256
  majorityTokenCount : Nat
  agreeing : List String
  divergent : List String
deriving Repr, DecidableEq

/-- The source compares the hashes bytewise; the order only decides between equal counts. -/
def shardKeyCmp : Uint256 × Nat → Uint256 × Nat → Ordering :=
  compareLex (compareOn Prod.fst) (compareOn Prod.snd)

instance : Std.TransCmp shardKeyCmp :=
  inferInstanceAs (Std.TransCmp (compareLex (compareOn Prod.fst) (compareOn Prod.snd)))

/-- How often each key occurs. -/
def shardCounts (subs : List ShardResultSubmission) :
    Std.ExtTreeMap (Uint256 × Nat) Nat shardKeyCmp :=
  subs.foldl (fun counts s => counts.alter s.key fun n => some (n.getD 0 + 1)) ∅

/-- `ComputeShardMajority`; `none` stands for `false`. -/
def computeShardMajority (subs : List ShardResultSubmission) (minSubmissions : Int) :
    Option ShardMajority :=
  if (subs.length : Int) < minSubmissions then none
  else
    let best := (shardCounts subs).foldl
      (fun (best : (Uint256 × Nat) × Nat) k n => if best.2 < n then (k, n) else best)
      ((0, 0), 0)
    if best.2 * 2 ≤ subs.length then none
    else some
      { majorityHash := best.1.1
        majorityTokenCount := best.1.2
        agreeing := (subs.filter fun s => s.key == best.1).map (·.minerAddress)
        divergent := (subs.filter fun s => !(s.key == best.1)).map (·.minerAddress) }

namespace OPoICache

variable (c : OPoICache)

/-- `SetNull`. The source leaves `mapLockingTxHash` as it is. -/
def setNull : OPoICache := { mapLockingTxHash := c.mapLockingTxHash }

/-! ## Shard results and claims -/

def shardKey (requestId : String) (shardIndex : Nat) : String :=
  requestId ++ ":" ++ toString shardIndex

/-- The key `requestId + ":" + minerAddress` of the response commits. -/
def commitKey (requestId minerAddress : String) : String := requestId ++ ":" ++ minerAddress

def listShardResults (requestId : String) (shardIndex : Nat) : List ShardResultSubmission :=
  c.mapShardResults.getD (shardKey requestId shardIndex) []

/-- `AddShardResult`: one submission for each miner, the first one wins. -/
def addShardResult (requestId : String) (shardIndex : Nat) (sub : ShardResultSubmission) :
    OPoICache :=
  let subs := c.listShardResults requestId shardIndex
  { c with
    mapShardResults := c.mapShardResults.insert (shardKey requestId shardIndex)
      (if subs.any (·.minerAddress == sub.minerAddress) then subs else subs ++ [sub]) }

section Paid

variable (requestId : String) (shardIndex : Nat)

/-- `IsShardPaid`, `MarkShardPaid` and `UnmarkShardPaid`. -/
def isShardPaid : Bool :=
  c.setPaidShards.contains (shardKey requestId shardIndex)
def markShardPaid : OPoICache :=
  { c with setPaidShards := c.setPaidShards.insert (shardKey requestId shardIndex) }
def unmarkShardPaid : OPoICache :=
  { c with setPaidShards := c.setPaidShards.erase (shardKey requestId shardIndex) }

/-- `IsResponsePaid`, `MarkResponsePaid` and `UnmarkResponsePaid`. -/
def isResponsePaid : Bool := c.setPaidResponses.contains requestId
def markResponsePaid : OPoICache :=
  { c with setPaidResponses := c.setPaidResponses.insert requestId }
def unmarkResponsePaid : OPoICache :=
  { c with setPaidResponses := c.setPaidResponses.erase requestId }

/-- `IsChallengerRewardPaid`, `MarkChallengerRewardPaid` and `UnmarkChallengerRewardPaid`. -/
def isChallengerRewardPaid : Bool :=
  c.setPaidChallengerRewards.contains requestId
def markChallengerRewardPaid : OPoICache :=
  { c with setPaidChallengerRewards := c.setPaidChallengerRewards.insert requestId }
def unmarkChallengerRewardPaid : OPoICache :=
  { c with setPaidChallengerRewards := c.setPaidChallengerRewards.erase requestId }

end Paid

/-- `AddCoordinatorClaim`: a second claim of the same miner is ignored. -/
def addCoordinatorClaim (claim : ShardCoordinatorClaim) : OPoICache :=
  let claims := c.mapCoordinatorClaims.getD claim.requestId []
  { c with
    mapCoordinatorClaims := c.mapCoordinatorClaims.insert claim.requestId
      (if claims.any (·.minerAddress == claim.minerAddress) then claims
       else claims ++ [claim]) }

def isClaimedCoordinator (requestId minerAddress : String) : Bool :=
  (c.mapCoordinatorClaims.getD requestId []).any (·.minerAddress == minerAddress)

/-! ## Stakes -/

/-- The stakes that carry votes. -/
def activeStakes : List OPoIStake := (vals c.mapStakes).filter OPoIStake.isActive

def totalActiveStake : CAmount := sumInt64 (c.activeStakes.map OPoIStake.amount)

def countActiveStakers : Nat := (vals c.mapStakes).countP OPoIStake.isActive

def countActiveExpertHosts (expertId : Nat) : Nat :=
  (vals c.mapStakes).countP fun s => s.isActive && s.hostsExpert expertId

def hasActiveTitanStaker : Bool :=
  (vals c.mapStakes).any fun s => s.isActive && s.tier == OPOI_TIER_TITAN

def isActiveStaker (minerAddress : String) : Bool :=
  match c.mapStakes[minerAddress]? with
  | some s => s.isActive
  | none => false

def addStake (stake : OPoIStake) : OPoICache :=
  { c with mapStakes := c.mapStakes.insert stake.minerAddress stake }

/-- Assignment through `mapStakes.find(minerAddress)` when the entry exists. -/
def modifyStake (minerAddress : String) (f : OPoIStake → OPoIStake) : OPoICache :=
  { c with mapStakes := c.mapStakes.modify minerAddress f }

def startUnstake (minerAddress : String) (height : Nat) (txHash : Uint256) : OPoICache :=
  if c.isActiveStaker minerAddress then
    c.modifyStake minerAddress fun s =>
      { s with stakeStatus := .unstaking, unstakeHeight := height, unstakeTxHash := txHash }
  else c

def isHarmlessUnstakeRedelivery (minerAddress : String) (txHash : Uint256) : Bool :=
  match c.mapStakes[minerAddress]? with
  | some s => s.isUnstaking && s.unstakeTxHash == txHash
  | none => false

/-! ## Model governance -/

def addModelManifest (m : ModelManifest) : OPoICache :=
  { c with mapModelManifests := c.mapModelManifests.insert m.modelId m }

/-- `AddModelVote`: recorded only for a known model; a new vote replaces the old one. -/
def addModelVote (modelId : String) (rec : ModelVoteRecord) : OPoICache :=
  if c.mapModelManifests.contains modelId then
    { c with
      mapModelVotes := c.mapModelVotes.insert modelId
        ((c.mapModelVotes.getD modelId ∅).insert rec.voterAddress rec) }
  else c

def isHarmlessModelVoteRedelivery (modelId voterAddress : String) (txHash : Uint256) : Bool :=
  match (c.mapModelVotes.getD modelId ∅)[voterAddress]? with
  | some rec => rec.txHash == txHash
  | none => false

/-- `TallyModelVotes`: the weights of the yes votes and of the no votes. -/
def tallyModelVotes (modelId : String) : CAmount × CAmount :=
  let votes := vals (c.mapModelVotes.getD modelId ∅)
  (sumInt64 ((votes.filter (·.approve)).map (·.weight)),
   sumInt64 ((votes.filter (!·.approve)).map (·.weight)))

def listManifestsDueForTally (blockHeight : Nat) : List ModelManifest :=
  (vals c.mapModelManifests).filter fun m =>
    m.isVoting && decide (m.voteWindowEndHeight ≤ blockHeight)

def setModelManifestStatus (modelId : String) (status : ModelStatus)
    (activationHeight : Nat := 0) : OPoICache :=
  { c with mapModelManifests := c.mapModelManifests.modify modelId fun m =>
      { m with
        status := status
        activationHeight := if 0 < activationHeight then activationHeight
          else m.activationHeight } }

/-! ## Collateral locks -/

def lockUTXO (out : COutPoint) (minerAddress : String) (txHash : Uint256) : OPoICache :=
  { c with
    mapLockedUTXOs := c.mapLockedUTXOs.insert out minerAddress
    mapLockingTxHash := c.mapLockingTxHash.insert out txHash }

def unlockUTXO (out : COutPoint) : OPoICache :=
  { c with
    mapLockedUTXOs := c.mapLockedUTXOs.erase out
    mapLockingTxHash := c.mapLockingTxHash.erase out }

def isLockedUTXO (out : COutPoint) : Bool := c.mapLockedUTXOs.contains out

/-- `IsHarmlessRedelivery`: the outpoint was locked by this very transaction. -/
def isHarmlessRedelivery (collateral : COutPoint) (txHash : Uint256) : Bool :=
  c.mapLockingTxHash[collateral]? == some txHash

/-! ## Requests and responses -/

def addRequest (req : OPoIRequest) : OPoICache :=
  { c with mapRequests := c.mapRequests.insert req.requestId req }

/-- Assignment through `mapRequests.find(requestId)` when the entry exists. -/
def modifyRequest (requestId : String) (f : OPoIRequest → OPoIRequest) : OPoICache :=
  { c with mapRequests := c.mapRequests.modify requestId f }

/-- `AddResponse`: store the (revealed) response and mark its request fulfilled. -/
def addResponse (resp : OPoIResponse) : OPoICache :=
  { c with mapResponses := c.mapResponses.insert resp.requestId resp }.modifyRequest
    resp.requestId fun r => { r with status := .fulfilled }

def addResponseCommit (requestId minerAddress commitHash : String) (blockHeight : Nat)
    (txHash : Uint256) : OPoICache :=
  let key := commitKey requestId minerAddress
  { c with
    mapResponseCommits := c.mapResponseCommits.insert key commitHash
    mapResponseCommitTxHash := c.mapResponseCommitTxHash.insert key txHash
    mapResponseCommitHeight := c.mapResponseCommitHeight.insert key blockHeight }.modifyRequest
    requestId fun r =>
      { r with responseCommits := r.responseCommits.insert minerAddress commitHash }

def isHarmlessResponseCommitRedelivery (requestId minerAddress : String) (txHash : Uint256) :
    Bool :=
  c.mapResponseCommitTxHash[commitKey requestId minerAddress]? == some txHash

/-! ## Auditor votes and challenges -/

/-- The vote list after one more vote: one vote for each auditor. -/
def addVote (verifs : List AuditorVerification) (fv : AuditorVerification) :
    List AuditorVerification :=
  if verifs.any (·.auditorAddress == fv.auditorAddress) then verifs else verifs ++ [fv]

/-- The lock that a recorded vote takes on the auditor's collateral. -/
def lockVote (verifs : List AuditorVerification) (fv : AuditorVerification) : OPoICache :=
  if verifs.any (·.auditorAddress == fv.auditorAddress) then c
  else if fv.auditorCollateral.isNull then c
  else c.lockUTXO fv.auditorCollateral fv.auditorAddress fv.txHash

def addAuditorVerification (fv : AuditorVerification) : OPoICache :=
  let verifs := c.mapAuditorVerifications.getD fv.requestId []
  { c with mapAuditorVerifications :=
      c.mapAuditorVerifications.insert fv.requestId (addVote verifs fv) }.lockVote verifs fv

def addShardAuditorVerification (requestId : String) (shardIndex : Nat)
    (fv : AuditorVerification) : OPoICache :=
  let key := shardKey requestId shardIndex
  let verifs := c.mapShardAuditorVerifications.getD key []
  { c with mapShardAuditorVerifications :=
      c.mapShardAuditorVerifications.insert key (addVote verifs fv) }.lockVote verifs fv

def getAuditorVerifications (requestId : String) : List AuditorVerification :=
  c.mapAuditorVerifications.getD requestId []

def getAuditorMajorityResult (requestId : String) (minVerifiers : Int) : Option Nat :=
  match c.mapAuditorVerifications[requestId]? with
  | some verifs => computeAuditorMajority verifs minVerifiers
  | none => none

section Resolved

variable (requestId : String) (shardIndex : Nat)

/-- `IsAuditorResolved`, `MarkAuditorResolved` and `UnmarkAuditorResolved`. -/
def isAuditorResolved : Bool :=
  c.setResolvedAuditorVerifications.contains requestId
def markAuditorResolved : OPoICache :=
  { c with setResolvedAuditorVerifications :=
      c.setResolvedAuditorVerifications.insert requestId }
def unmarkAuditorResolved : OPoICache :=
  { c with setResolvedAuditorVerifications :=
      c.setResolvedAuditorVerifications.erase requestId }

/-- `IsShardAuditorResolved`, `MarkShardAuditorResolved` and `UnmarkShardAuditorResolved`. -/
def isShardAuditorResolved : Bool :=
  c.setResolvedShardAuditorVerifications.contains (shardKey requestId shardIndex)
def markShardAuditorResolved : OPoICache :=
  { c with setResolvedShardAuditorVerifications :=
      c.setResolvedShardAuditorVerifications.insert (shardKey requestId shardIndex) }
def unmarkShardAuditorResolved : OPoICache :=
  { c with setResolvedShardAuditorVerifications :=
      c.setResolvedShardAuditorVerifications.erase (shardKey requestId shardIndex) }

end Resolved

def addChallenge (ch : OPoIChallenge) : OPoICache :=
  { c with mapChallenges := c.mapChallenges.insert ch.requestId ch }

/-- Assignment through `mapChallenges.find(requestId)` when the entry exists. -/
def modifyChallenge (requestId : String) (f : OPoIChallenge → OPoIChallenge) : OPoICache :=
  { c with mapChallenges := c.mapChallenges.modify requestId f }

end OPoICache

end CloudService
