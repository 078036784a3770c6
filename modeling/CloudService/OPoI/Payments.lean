/-
  What a block owes for OPoI work and what its coinbase must pay
  (`opoi/opoi.cpp`): the obligation lists, computed from a cache and the block's
  own transactions, and the two coinbase checks.
-/

import CloudService.Consensus.Validation
import CloudService.OPoI.Process
import CloudService.OPoI.Shard

namespace CloudService

/-- The block's OPoI transactions of one type, without the coinbase. -/
def blockTxs (vtx : List CTransaction) (t : OPoITxType) : List CTransaction :=
  vtx.tail.filter (·.isOPoI t)

/-- Base fee plus per-token fee. -/
def totalPayment (req : OPoIRequest) (tokenCount : Nat) : CAmount :=
  if 0 < req.feePerToken ∧ 0 < tokenCount then
    req.payment + (tokenCount : CAmount) * req.feePerToken
  else req.payment

/-! ## Shard payments -/

structure OPoIShardPayment where
  requestId : String
  shardIndex : Nat
  minerAddress : String
  amount : CAmount
deriving Repr, DecidableEq

/-- The order of `std::set<std::pair<std::string, uint32_t>>`. -/
def touchedCmp : String × Nat → String × Nat → Ordering :=
  compareLex (compareOn Prod.fst) (compareOn Prod.snd)

instance : Std.TransCmp touchedCmp :=
  inferInstanceAs (Std.TransCmp (compareLex (compareOn Prod.fst) (compareOn Prod.snd)))

/-- The shards touched by a SHARD_RESULT of the block, in order. -/
def touchedShards (vtx : List CTransaction) : List (String × Nat) :=
  ((blockTxs vtx .shardResult).foldl
    (fun touched tx => touched.insert (tx.opoiRequestId, tx.opoiShardIndex))
    (∅ : Std.ExtTreeSet (String × Nat) touchedCmp)).toList

/-- The submission that a SHARD_RESULT of the block counts for. -/
def submissionOf (tx : CTransaction) : ShardResultSubmission :=
  { minerAddress := tx.opoiMinerAddress
    boundaryOutputHash := tx.opoiResponseHash
    tokenCount := tx.opoiTokenCount }

/-- The cached submissions with the block's own: one for each miner, the first one wins. -/
def mergeShardResults (vtx : List CTransaction) (requestId : String) (shardIndex : Nat)
    (subs : List ShardResultSubmission) : List ShardResultSubmission :=
  ((blockTxs vtx .shardResult).filter fun tx =>
    tx.opoiRequestId == requestId && tx.opoiShardIndex == shardIndex).foldl
    (fun subs tx =>
      if subs.any (·.minerAddress == tx.opoiMinerAddress) then subs
      else subs ++ [submissionOf tx]) subs

/-- The weight of a node of the graph. -/
def shardWeight (d : ShardDescriptor) : Nat :=
  if d.shardType = .dense then subU32 d.layerEnd d.layerStart else 1

section Owed

variable (env : Env) (c : OPoICache) (vtx : List CTransaction)

/-- The share of the base payment of one shard; `none` when the index is out of range. -/
def shardShare (req : OPoIRequest) (shardIndex : Nat) : Option CAmount :=
  match c.activeManifest req.model with
  | none => some req.payment
  | some manifest =>
    let meg := c.executionGraph env.params manifest
    let totalWeight := (meg.map shardWeight).sum
    match meg.reverse.find? (·.shardIndex == shardIndex) with
    | none => none
    | some d =>
      if totalWeight = 0 then none
      else some ((mulInt64 req.payment (shardWeight d)).tdiv totalWeight)

/-- The amount that each miner of a resolved majority gets for a shard. -/
def perMinerAmount (req : OPoIRequest) (share : CAmount) (majority : ShardMajority) : CAmount :=
  let perShardTotal :=
    if 0 < req.feePerToken ∧ 0 < majority.majorityTokenCount then
      addInt64 share (mulInt64 majority.majorityTokenCount req.feePerToken)
    else share
  perShardTotal.tdiv majority.agreeing.length

/-- The body of the loop of `GetShardPaymentsForBlock` for one touched shard. -/
def shardPaymentsFor (requestId : String) (shardIndex : Nat) : List OPoIShardPayment :=
  if c.isShardPaid requestId shardIndex then []
  else
    match c.mapRequests[requestId]? with
    | none => []
    | some req =>
      if req.payment ≤ 0 then []
      else
        let subs := mergeShardResults vtx requestId shardIndex
          (c.listShardResults requestId shardIndex)
        match computeShardMajority subs
            (c.getEffectiveShardMinSubmissions env.params req shardIndex),
          shardShare env c req shardIndex with
        | some majority, some share =>
          if majority.agreeing.isEmpty ∨ share ≤ 0 ∨ perMinerAmount req share majority ≤ 0 then []
          else majority.agreeing.map fun addr =>
            ⟨requestId, shardIndex, addr, perMinerAmount req share majority⟩
        | _, _ => []

def getShardPaymentsForBlock : List OPoIShardPayment :=
  (touchedShards vtx).flatMap fun key => shardPaymentsFor env c vtx key.1 key.2

/-! ## Response payments -/

structure OPoIResponsePayment where
  requestId : String
  minerAddress : String
  amount : CAmount
deriving Repr, DecidableEq

/-- The cached votes with those of the block. Only the request id is compared, so votes on shards
    count. -/
def mergeVotes (requestId : String) (verifs : List AuditorVerification) :
    List AuditorVerification :=
  ((blockTxs vtx .auditorVerify).filter (·.opoiRequestId == requestId)).foldl
    (fun verifs tx =>
      if verifs.any (·.auditorAddress == tx.opoiAuditorAddress) then verifs
      else verifs ++ [{ auditorAddress := tx.opoiAuditorAddress
                        result := tx.opoiAuditorVerifyResult }]) verifs

/-- The majority on a request over the cached votes and the block's own. -/
def mergedMajority (requestId : String) : Option Nat :=
  computeAuditorMajority (mergeVotes vtx requestId (c.getAuditorVerifications requestId))
    env.params.nOPoIMinAuditors

/-- The payment of a response to its miner. -/
def responsePayment (req : OPoIRequest) (resp : OPoIResponse) : OPoIResponsePayment :=
  ⟨resp.requestId, resp.minerAddress, totalPayment req resp.tokenCount⟩

def getVerifiablePaymentsForBlock : List OPoIResponsePayment :=
  (TreeMap.vals c.mapResponses).filterMap fun resp =>
    if c.isResponsePaid resp.requestId then none
    else
      match c.mapRequests[resp.requestId]? with
      | none => none
      | some req =>
        if req.isVerifiable = false ∨ req.payment ≤ 0 then none
        else if mergedMajority env c vtx resp.requestId = some AUDITOR_VERIFY_PASS then
          some (responsePayment req resp)
        else none

/-- A PASS majority, or no majority past the deadline. -/
def auditSampledPayNow (currentHeight : Nat) (resp : OPoIResponse) : Bool :=
  match mergedMajority env c vtx resp.requestId with
  | some 0 => true
  | some _ => false
  | none => decide (0 < resp.auditDeadline) && decide (resp.auditDeadline < currentHeight)

def getAuditSampledOpenPaymentsForBlock (currentHeight : Nat) : List OPoIResponsePayment :=
  (TreeMap.vals c.mapResponses).filterMap fun resp =>
    if resp.auditSelected = false ∨ c.isResponsePaid resp.requestId then none
    else
      match c.mapRequests[resp.requestId]? with
      | none => none
      | some req =>
        if req.isVerifiable ∨ req.payment ≤ 0 then none
        else if auditSampledPayNow env c vtx currentHeight resp then
          some (responsePayment req resp)
        else none

/-- Only phase 1, only OPEN requests, and only if the audit sortition does not select it. -/
def immediatePayment (chainActive : List Uint256) (nHeight : Nat) (tx : CTransaction) :
    Option OPoIResponsePayment :=
  if tx.opoiResponsePhase ≠ 1 then none
  else
    match c.mapRequests[tx.opoiRequestId]? with
    | none => none
    | some req =>
      if req.payment ≤ 0 ∨ req.isVerifiable then none
      else if (evaluateOPoIAuditSample env chainActive c tx.opoiRequestId tx.opoiMinerAddress
          nHeight).1 then none
      else some ⟨tx.opoiRequestId, tx.opoiMinerAddress, totalPayment req tx.opoiTokenCount⟩

/-- The immediate payments of the block, in transaction order. -/
def immediatePayments (chainActive : List Uint256) (nHeight : Nat) : List OPoIResponsePayment :=
  (blockTxs vtx .response).filterMap (immediatePayment env c chainActive nHeight)

/-! ## CheckOPoIPayments -/

/-- The four groups of obligations, in the order in which they are checked. -/
inductive PaymentGroup where
  | response
  | shard
  | verifiable
  | auditSample
deriving Repr, DecidableEq

/-- The reject reasons of a group: invalid address, missing output. -/
def PaymentGroup.invalidReason : PaymentGroup → String
  | .response => "bad-cb-opoi-invalid-miner-addr"
  | .shard => "bad-cb-opoi-invalid-shard-miner-addr"
  | .verifiable => "bad-cb-opoi-invalid-verifiable-miner-addr"
  | .auditSample => "bad-cb-opoi-invalid-audit-sample-miner-addr"
def PaymentGroup.missingReason : PaymentGroup → String
  | .response => "bad-cb-opoi-missing-payment"
  | .shard => "bad-cb-opoi-missing-shard-payment"
  | .verifiable => "bad-cb-opoi-missing-verifiable-payment"
  | .auditSample => "bad-cb-opoi-missing-audit-sample-payment"

/-- One obligation of the coinbase: an amount owed to an address. -/
structure Obligation where
  group : PaymentGroup
  address : String
  amount : CAmount
deriving Repr, DecidableEq

/-- The shard payments summed for each miner, in address order. -/
def aggregateShardPayments (payments : List OPoIShardPayment) : List (String × CAmount) :=
  (payments.foldl (fun (aggregated : StrMap CAmount) p =>
    aggregated.insert p.minerAddress (aggregated.getD p.minerAddress 0 + p.amount)) ∅).toList

/-- Everything the block owes, in the order of the checks. -/
def obligations (chainActive : List Uint256) (nHeight : Nat) : List Obligation :=
  (immediatePayments env c vtx chainActive nHeight).map
      (fun p => ⟨.response, p.minerAddress, p.amount⟩) ++
    (aggregateShardPayments (getShardPaymentsForBlock env c vtx)).map
      (fun p => ⟨.shard, p.1, p.2⟩) ++
    (getVerifiablePaymentsForBlock env c vtx).map
      (fun p => ⟨.verifiable, p.minerAddress, p.amount⟩) ++
    (getAuditSampledOpenPaymentsForBlock env c vtx nHeight).map
      (fun p => ⟨.auditSample, p.minerAddress, p.amount⟩)

/-- `findAndClaimOutput`: mark the first unused output with this script and value. -/
def claimOutput (script : CScript) (amount : CAmount) :
    List (CTxOut × Bool) → Option (List (CTxOut × Bool))
  | [] => none
  | (out, used) :: rest =>
    if used = false ∧ out.scriptPubKey = script ∧ out.nValue = amount then
      some ((out, true) :: rest)
    else (claimOutput script amount rest).map ((out, used) :: ·)

/-- The local variables of `CheckOPoIPayments`. -/
structure PaymentCheck where
  outputs : List (CTxOut × Bool)
  totalPaymentsChecked : CAmount

/-- Skipped past the budget, else it must find an output of its own. -/
def checkObligation (opoiBudget : CAmount) (st : PaymentCheck) (o : Obligation) :
    Checked PaymentCheck :=
  if opoiBudget < st.totalPaymentsChecked + o.amount then .ok st
  else if isValidDestination (env.decodeDestination o.address) = false then
    .error (dos 100 o.group.invalidReason)
  else
    match claimOutput (getScriptForDestination (env.decodeDestination o.address)) o.amount
        st.outputs with
    | none => .error (dos 100 o.group.missingReason)
    | some outputs => .ok ⟨outputs, st.totalPaymentsChecked + o.amount⟩

def checkOPoIPayments (chainActive : List Uint256) (nHeight : Nat) : Checked Unit :=
  match vtx with
  | [] => .ok ()
  | coinbase :: _ => do
    let _ ← (obligations env c vtx chainActive nHeight).foldlM
      (checkObligation env (env.opoiBudget nHeight))
      ⟨coinbase.vout.map (·, false), 0⟩
    return ()

/-! ## Challenger rewards -/

structure OPoIChallengerReward where
  challengerAddress : String
  rewardAmount : CAmount
  requestId : String
  treasuryAmount : CAmount
deriving Repr, DecidableEq

/-- The stake that the reward for a request is taken from. -/
def rewardStake (requestId : String) : Option OPoIStake :=
  match responder c requestId with
  | some m => c.mapStakes[m]?
  | none => none

/-- `tryReward` of `GetChallengerRewardsAtHeight`. -/
def tryReward (requestId challengerAddress : String) : Option OPoIChallengerReward :=
  if c.isChallengerRewardPaid requestId then none
  else
    match rewardStake c requestId with
    | none => none
    | some stake =>
      let reward := (stake.amount * env.params.nOPoIChallengerRewardPct).tdiv 100
      let treasuryReward := (stake.amount * env.params.nOPoITreasuryRewardPct).tdiv 100
      if reward ≤ 0 ∧ treasuryReward ≤ 0 then none
      else some ⟨challengerAddress, reward, requestId, treasuryReward⟩

/-- Case 2: a REVEAL (phase 1) of the block that the cached majority proves. -/
def revealReward (tx : CTransaction) : Option OPoIChallengerReward :=
  if tx.opoiChallengePhase ≠ 1 then none
  else
    match c.mapChallenges[tx.opoiRequestId]? with
    | none => none
    | some ch =>
      if ch.isOpen && isVerifiableRequest c tx.opoiRequestId &&
          c.getAuditorMajorityResult tx.opoiRequestId env.params.nOPoIMinAuditors
            == some AUDITOR_VERIFY_FAIL then
        tryReward env c tx.opoiRequestId tx.opoiRequester
      else none

/-- `GetChallengerRewardsAtHeight`: the challenges already proven, then the block's
    own REVEALs. -/
def getChallengerRewardsAtHeight : List OPoIChallengerReward :=
  if env.params.nOPoIChallengerRewardPct ≤ 0 ∧ env.params.nOPoITreasuryRewardPct ≤ 0 then []
  else
    ((TreeMap.vals c.mapChallenges).filterMap fun ch =>
      if ch.challengeStatus = .slashed then tryReward env c ch.requestId ch.challengerAddress
      else none) ++
    (blockTxs vtx .challenge).filterMap (revealReward env c)

/-- Skipped past the coinbase value, else some output must carry it. -/
def checkReward (vout : List CTxOut) (totalCoinbaseValue : CAmount) (checkedTotal : CAmount)
    (reward : OPoIChallengerReward) : Checked CAmount :=
  if totalCoinbaseValue < checkedTotal + reward.rewardAmount then .ok checkedTotal
  else
    let dest := env.decodeDestination reward.challengerAddress
    if isValidDestination dest = false then
      .error (dos 100 "bad-cb-opoi-invalid-challenger-addr")
    else if vout.any fun out =>
        out.scriptPubKey == getScriptForDestination dest && out.nValue == reward.rewardAmount then
      .ok (checkedTotal + reward.rewardAmount)
    else .error (dos 100 "bad-cb-opoi-missing-challenger-reward")

/-- The treasury part of `CheckOPoIChallengerRewards`: one output for the sum. -/
def checkTreasury (vout : List CTxOut) (totalCoinbaseValue checkedTotal : CAmount)
    (totalTreasuryReward : CAmount) : Checked Unit :=
  if totalTreasuryReward ≤ 0 then .ok ()
  else if totalCoinbaseValue < checkedTotal + totalTreasuryReward then .ok ()
  else
    let dest := env.decodeDestination env.treasuryAddress
    if isValidDestination dest = false then .error (dos 100 "bad-cb-opoi-invalid-treasury-addr")
    else if vout.any fun out =>
        out.scriptPubKey == getScriptForDestination dest && out.nValue == totalTreasuryReward then
      .ok ()
    else .error (dos 100 "bad-cb-opoi-missing-treasury-reward")

def checkOPoIChallengerRewards : Checked Unit :=
  match vtx with
  | [] => .ok ()
  | coinbase :: _ => do
    let rewards := getChallengerRewardsAtHeight env c vtx
    let checkedTotal ← rewards.foldlM (checkReward env coinbase.vout coinbase.getValueOut) 0
    checkTreasury env coinbase.vout coinbase.getValueOut checkedTotal
      (rewards.map (·.treasuryAmount)).sum

end Owed

def checkOPoIBlockCaps (params : Params) (vtx : List CTransaction) : Checked Unit := do
  let nRequests := vtx.countP (·.isOPoI .request)
  let nResponses := vtx.countP (·.isOPoI .response)
  rejectIf (decide (0 < params.nOPoIMaxRequestsPerBlock) &&
      decide (params.nOPoIMaxRequestsPerBlock < (nRequests : Int)))
    (dos 10 "bad-cb-opoi-too-many-requests")
  rejectIf (decide (0 < params.nOPoIMaxResponsesPerBlock) &&
      decide (params.nOPoIMaxResponsesPerBlock < (nResponses : Int)))
    (dos 10 "bad-cb-opoi-too-many-responses")

end CloudService
