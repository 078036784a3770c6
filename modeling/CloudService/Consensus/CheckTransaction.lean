/-
  `CheckTransactionWithoutProofVerification` and `CheckTxInputs` (`main.cpp`). Left to the
  environment: versions, expiry, sizes, signatures and scripts.
-/

import CloudService.Consensus.Subsidy
import CloudService.Consensus.Validation
import CloudService.Primitives.Coins

namespace CloudService

def COINBASE_MATURITY : Int := 100

/-- The range of the tiers of `csnode.h` (`IsTierValid`, `IsCoinTierValid`). -/
def isTierValid (nTier : Int) : Bool := decide (0 < nTier) && decide (nTier < 5)

/-- `FLUXNODE_CONFIRM_TX_IP_ADDRESS_SIZE_V1` and `_V2`, by the time of the benchmark. -/
def maxIpAddressSize (benchmarkSigTime : Nat) : Nat :=
  if 1647262800 ≤ benchmarkSigTime then 60 else 40

section CheckTransaction

variable (tx : CTransaction)

/-- The transaction has inputs and outputs, or is one of the three kinds without. -/
def checkTransactionParts : Checked Unit := do
  rejectIf (!tx.isFluxnodeTx && !tx.isCSAppTx && !tx.isOPoITx &&
    (tx.vin.isEmpty && tx.vJoinSplit.isEmpty && tx.vShieldedSpend.isEmpty))
    (dos 10 "bad-txns-vin-empty")
  rejectIf (!tx.isFluxnodeTx && !tx.isCSAppTx && !tx.isOPoITx &&
    (tx.vout.isEmpty && tx.vJoinSplit.isEmpty && tx.vShieldedOutput.isEmpty))
    (dos 10 "bad-txns-vout-empty")

def checkFluxnodeTransaction : Checked Unit := do
  rejectIf (!tx.vout.isEmpty || !tx.vJoinSplit.isEmpty || !tx.vShieldedOutput.isEmpty ||
    !tx.vin.isEmpty || !tx.vShieldedSpend.isEmpty) (dos 10 "bad-txns-fluxnode-tx-not-empty")
  rejectIf (tx.nType != FLUXNODE_START_TX_TYPE && tx.nType != FLUXNODE_CONFIRM_TX_TYPE)
    (dos 10 "bad-txns-fluxnode-tx-invalid-type")
  rejectIf tx.collateralIn.isNull (dos 10 "bad-txns-fluxnode-tx-null-prevout")
  if tx.nType = FLUXNODE_CONFIRM_TX_TYPE then
    rejectIf (!isTierValid tx.benchmarkTier) (dos 10 "bad-txns-fluxnode-tx-invalid-benchmark-tier")
    rejectIf (decide (maxIpAddressSize tx.benchmarkSigTime < (strBytes tx.ip).length))
      (dos 100 "bad-txns-fluxnode-tx-ip-address-to-large")
    rejectIf (tx.nUpdateType != INITIAL_CONFIRM && tx.nUpdateType != UPDATE_CONFIRM)
      (dos 10 "bad-txns-fluxnode-tx-invalid-update-type")

/-- The CSApp part. Neither the signature nor the owner of an existing app is looked at. -/
def checkCSAppTransaction : Checked Unit := do
  rejectIf (!tx.vout.isEmpty || !tx.vin.isEmpty || !tx.vJoinSplit.isEmpty)
    (dos 10 "bad-txns-csapp-tx-not-empty")
  rejectIf tx.csappDeploymentId.isEmpty (dos 10 "bad-txns-csapp-tx-no-deployment-id")
  rejectIf tx.csappOwner.isEmpty (dos 10 "bad-txns-csapp-tx-no-owner")
  rejectIf (tx.nType != CSAPP_REGISTER_TX_TYPE && tx.nType != CSAPP_UPDATE_TX_TYPE &&
    tx.nType != CSAPP_STOP_TX_TYPE) (dos 10 "bad-txns-csapp-tx-invalid-type")

/-- `CheckTransactionWithoutProofVerification` up to `CheckOPoITransaction`. -/
def checkTransactionKind : Checked Unit := do
  checkTransactionParts tx
  if tx.isFluxnodeTx then checkFluxnodeTransaction tx
  if tx.isCSAppTx then checkCSAppTransaction tx

/-- One output in the loop over `vout`, with the total so far. -/
def checkOutput (nValueOut : CAmount) (txout : CTxOut) : Checked CAmount := do
  rejectIf (decide (txout.nValue < 0)) (dos 100 "bad-txns-vout-negative")
  rejectIf (decide (MAX_MONEY < txout.nValue)) (dos 100 "bad-txns-vout-toolarge")
  rejectIf (!moneyRange (nValueOut + txout.nValue)) (dos 100 "bad-txns-txouttotal-toolarge")
  return nValueOut + txout.nValue

/-- One joinsplit in the loop over the values that leave the transparent pool. -/
def checkJoinSplitOut (nValueOut : CAmount) (joinsplit : JSDescription) : Checked CAmount := do
  rejectIf (decide (joinsplit.vpubOld < 0)) (dos 100 "bad-txns-vpub_old-negative")
  rejectIf (decide (joinsplit.vpubNew < 0)) (dos 100 "bad-txns-vpub_new-negative")
  rejectIf (decide (MAX_MONEY < joinsplit.vpubOld)) (dos 100 "bad-txns-vpub_old-toolarge")
  rejectIf (decide (MAX_MONEY < joinsplit.vpubNew)) (dos 100 "bad-txns-vpub_new-toolarge")
  rejectIf (joinsplit.vpubNew != 0 && joinsplit.vpubOld != 0)
    (dos 100 "bad-txns-vpubs-both-nonzero")
  rejectIf (!moneyRange (nValueOut + joinsplit.vpubOld)) (dos 100 "bad-txns-txouttotal-toolarge")
  return nValueOut + joinsplit.vpubOld

/-- One joinsplit in the loop over the values that enter the transparent pool. -/
def checkJoinSplitIn (nValueIn : CAmount) (joinsplit : JSDescription) : Checked CAmount := do
  rejectIf (!moneyRange joinsplit.vpubNew || !moneyRange (nValueIn + joinsplit.vpubNew))
    (dos 100 "bad-txns-txintotal-toolarge")
  return nValueIn + joinsplit.vpubNew

/-- Each addend is bounded before it is added, so that no sum overflows. -/
def checkTransactionValues : Checked Unit := do
  let nValueOut ← tx.vout.foldlM checkOutput 0
  rejectIf (tx.vShieldedSpend.isEmpty && tx.vShieldedOutput.isEmpty && tx.valueBalance != 0 &&
    !tx.isFluxnodeTx) (dos 100 "bad-txns-valuebalance-nonzero")
  rejectIf (decide (MAX_MONEY < tx.valueBalance) || decide (tx.valueBalance < -MAX_MONEY))
    (dos 100 "bad-txns-valuebalance-toolarge")
  let nValueOut := if tx.valueBalance ≤ 0 then nValueOut + -tx.valueBalance else nValueOut
  rejectIf (decide (tx.valueBalance ≤ 0) && !moneyRange nValueOut)
    (dos 100 "bad-txns-txouttotal-toolarge")
  let _ ← tx.vJoinSplit.foldlM checkJoinSplitOut nValueOut
  let nValueIn ← tx.vJoinSplit.foldlM checkJoinSplitIn 0
  rejectIf (decide (0 ≤ tx.valueBalance) && !moneyRange (nValueIn + tx.valueBalance))
    (dos 100 "bad-txns-txintotal-toolarge")

/-- Nothing is spent twice within the transaction, and only a coinbase spends the null
    outpoint. -/
def checkTransactionInputs : Checked Unit := do
  rejectIf (!decide (tx.vin.map CTxIn.prevout).Nodup) (dos 100 "bad-txns-inputs-duplicate")
  rejectIf (!decide (CoinsView.txSproutNullifiers tx).Nodup)
    (dos 100 "bad-joinsplits-nullifiers-duplicate")
  rejectIf (!decide (CoinsView.txSaplingNullifiers tx).Nodup)
    (dos 100 "bad-spend-description-nullifiers-duplicate")
  if tx.isCoinBase then
    rejectIf (!tx.vJoinSplit.isEmpty) (dos 100 "bad-cb-has-joinsplits")
    rejectIf (!tx.vShieldedSpend.isEmpty) (dos 100 "bad-cb-has-spend-description")
    rejectIf (!tx.vShieldedOutput.isEmpty) (dos 100 "bad-cb-has-output-description")
  else
    rejectIf (tx.vin.any fun txin => txin.prevout.isNull) (dos 10 "bad-txns-prevout-null")

end CheckTransaction

section CheckTxInputs

variable (coinbaseProtected : Bool) (v : CoinsView) (nSpendHeight : Nat) (tx : CTransaction)

/-- One input in the loop of `CheckTxInputs`, with the total so far. -/
def checkTxInput (nValueIn : CAmount) (txin : CTxIn) : Checked CAmount := do
  let coins := (v.cacheCoins[txin.prevout.hash]?).getD {}
  let nValue := (v.getOutputFor txin).nValue
  rejectIf (coins.fCoinBase && decide ((nSpendHeight : Int) - coins.nHeight < COINBASE_MATURITY))
    (dos 0 "bad-txns-premature-spend-of-coinbase")
  rejectIf (coins.fCoinBase && coinbaseProtected && !tx.vout.isEmpty)
    (dos 0 "bad-txns-coinbase-spend-has-transparent-outputs")
  rejectIf (!moneyRange nValue || !moneyRange (addInt64 nValueIn nValue))
    (dos 100 "bad-txns-inputvalues-outofrange")
  return addInt64 nValueIn nValue

def checkTxInputs (roots : TreeRoots) : Checked Unit := do
  rejectIf (!v.haveInputs tx) (dos 0 "")
  rejectIf (!v.haveShieldedRequirements roots tx) (dos 0 "")
  let nValueIn ← tx.vin.foldlM (checkTxInput coinbaseProtected v nSpendHeight tx) 0
  let nValueIn := addInt64 nValueIn tx.getShieldedValueIn
  rejectIf (!moneyRange nValueIn) (dos 100 "bad-txns-inputvalues-outofrange")
  rejectIf (decide (nValueIn < tx.getValueOut)) (dos 100 "bad-txns-in-belowout")
  rejectIf (decide (nValueIn - tx.getValueOut < 0)) (dos 100 "bad-txns-fee-negative")
  rejectIf (!moneyRange (nValueIn - tx.getValueOut)) (dos 100 "bad-txns-fee-outofrange")

end CheckTxInputs

end CloudService
