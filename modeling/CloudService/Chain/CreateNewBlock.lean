/-
  `CreateNewBlock` (`miner.cpp`): the coinbase of a template. The OPoI outputs are taken from
  the share of the miner.
-/

import CloudService.OPoI.Payments

namespace CloudService

/-- What the template takes from outside the OPoI code. -/
structure CoinbaseTemplate where
  scriptPubKeyIn : CScript
  blockValue : CAmount
  fluxnodePayouts : List CTxOut
  funds : List CTxOut := []
  nFees : CAmount := 0
  payouts_nonneg : ∀ out ∈ fluxnodePayouts, 0 ≤ out.nValue := by simp
  payouts_le : (fluxnodePayouts.map CTxOut.nValue).sum ≤ blockValue
  funds_nonneg : ∀ out ∈ funds, 0 ≤ out.nValue := by simp
  nFees_nonneg : 0 ≤ nFees := by decide

/-- `vout[0].nValue` after `FillBlockPayeeWithDeterministicPayouts`. -/
def CoinbaseTemplate.minerReward (t : CoinbaseTemplate) : CAmount :=
  t.blockValue - (t.fluxnodePayouts.map CTxOut.nValue).sum

/-- The outputs pushed by a loop, and its running total. -/
structure PayoutLoop where
  vout : List CTxOut
  total : CAmount

/-- Skipped for an invalid address, past the budget, and past the share of the miner. -/
def payObligation (env : Env) (opoiBudget available : CAmount) (st : PayoutLoop) (o : Obligation) :
    PayoutLoop :=
  let minerDest := env.decodeDestination o.address
  if isValidDestination minerDest = false then st
  else if opoiBudget < st.total + o.amount then st
  else if available < st.total + o.amount then st
  else ⟨st.vout ++ [⟨o.amount, getScriptForDestination minerDest⟩], st.total + o.amount⟩

/-- Skipped past what is left of the share of the miner, and for an invalid address. -/
def payReward (env : Env) (available : CAmount) (st : PayoutLoop) (reward : OPoIChallengerReward) :
    PayoutLoop :=
  if available < st.total + reward.rewardAmount then st
  else
    let dest := env.decodeDestination reward.challengerAddress
    if isValidDestination dest = false then st
    else ⟨st.vout ++ [⟨reward.rewardAmount, getScriptForDestination dest⟩],
      st.total + reward.rewardAmount⟩

section Template

variable (env : Env) (c : OPoICache) (chainActive : List Uint256) (nHeight : Nat)
  (t : CoinbaseTemplate) (vtx : List CTransaction)

/-- The outputs of the coinbase, for a block whose first transaction is a placeholder. -/
def coinbaseOutputs : List CTxOut :=
  let base := t.fluxnodePayouts ++ t.funds
  if env.params.opoiActive nHeight then
    let paid := (obligations env c vtx chainActive nHeight).foldl
      (payObligation env (env.opoiBudget nHeight) t.minerReward) ⟨base, 0⟩
    let left := t.minerReward - paid.total
    let rewards := getChallengerRewardsAtHeight env c vtx
    let rewarded := rewards.foldl (payReward env left) ⟨paid.vout, 0⟩
    let left := left - rewarded.total
    let totalTreasuryReward := (rewards.map (·.treasuryAmount)).sum
    let treasuryDest := env.decodeDestination env.treasuryAddress
    if 0 < totalTreasuryReward ∧ totalTreasuryReward ≤ left ∧
        isValidDestination treasuryDest = true then
      ⟨left - totalTreasuryReward + t.nFees, t.scriptPubKeyIn⟩ :: rewarded.vout ++
        [⟨totalTreasuryReward, getScriptForDestination treasuryDest⟩]
    else ⟨left + t.nFees, t.scriptPubKeyIn⟩ :: rewarded.vout
  else ⟨t.minerReward + t.nFees, t.scriptPubKeyIn⟩ :: base

/-- `CreateNewBlock`: the transactions of the template, with the coinbase in front. -/
def createNewBlock (txs : List CTransaction) : List CTransaction :=
  { vin := [⟨{}⟩], vout := coinbaseOutputs env c chainActive nHeight t ({} :: txs) } :: txs

end Template

end CloudService
