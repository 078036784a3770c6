/-
  `CTransaction` with the fields that the modelled code reads
  (`primitives/transaction.h`), the eleven OPoI transaction types, and `CBlock`.

  The record is flat, as in the source: the version says which fields are on the
  wire (the coins and the shielded parts, or one of the three kinds of payload),
  and one set of `opoi*` fields is shared by all OPoI types. Proofs, keys and
  ciphertexts of the shielded parts are left out.
-/

import CloudService.Primitives.Types

namespace CloudService

/-- `FLUXNODE_TX_VERSION` and `FLUXNODE_TX_UPGRADEABLE_VERSION`. -/
def FLUXNODE_TX_VERSION : Int := 5
def FLUXNODE_TX_UPGRADEABLE_VERSION : Int := 6

def CSAPP_TX_VERSION : Int := 7

def OPOI_TX_VERSION : Int := 8

/-- The values of `nType` of the fluxnode transactions. -/
def FLUXNODE_START_TX_TYPE : Int := 2
def FLUXNODE_CONFIRM_TX_TYPE : Int := 4

/-- `FluxnodeUpdateType`. -/
def INITIAL_CONFIRM : Int := 0
def UPDATE_CONFIRM : Int := 1

/-- The values of `nType` of the CSApp transactions. -/
def CSAPP_REGISTER_TX_TYPE : Int := 1
def CSAPP_UPDATE_TX_TYPE : Int := 2
def CSAPP_STOP_TX_TYPE : Int := 3

/-- `OPOI_AUDITOR_VERIFY_NO_SHARD`, the largest `uint32_t`. -/
def OPOI_AUDITOR_VERIFY_NO_SHARD : Nat := 4294967295

/-- `OPOI_TASK_OPEN` and `OPOI_TASK_VERIFIABLE`. -/
def OPOI_TASK_OPEN : Int := 0
def OPOI_TASK_VERIFIABLE : Int := 1

/-- The type codes `OPOI_*_TX_TYPE` (an `int8_t` on the wire). Every other code
    is `unknown`. -/
inductive OPoITxType where
  | request
  | response
  | stake
  | unstake
  | challenge
  | auditorVerify
  | modelRegister
  | modelVote
  | coordinatorClaim
  | shardResult
  | renew
  | unknown
deriving Repr, DecidableEq

/-- The type that the code `nType` stands for. -/
def OPoITxType.ofCode : Int → OPoITxType
  | 1 => .request
  | 2 => .response
  | 3 => .stake
  | 4 => .unstake
  | 5 => .challenge
  | 6 => .auditorVerify
  | 7 => .modelRegister
  | 8 => .modelVote
  | 9 => .coordinatorClaim
  | 10 => .shardResult
  | 11 => .renew
  | _ => .unknown

/-- `JSDescription`, the values and what the tree and the nullifier set take. -/
structure JSDescription where
  vpubOld : CAmount := 0
  vpubNew : CAmount := 0
  anchor : Uint256 := 0
  nullifiers : Vector Uint256 2
  commitments : Vector Uint256 2
deriving Repr, DecidableEq

structure SpendDescription where
  anchor : Uint256
  nullifier : Uint256
deriving Repr, DecidableEq

structure OutputDescription where
  cm : Uint256
deriving Repr, DecidableEq

structure CTransaction where
  nVersion : Int := 4
  nType : Int := 0
  vin : List CTxIn := []
  vout : List CTxOut := []
  valueBalance : CAmount := 0
  vShieldedSpend : List SpendDescription := []
  vShieldedOutput : List OutputDescription := []
  vJoinSplit : List JSDescription := []
  collateralIn : COutPoint := {}
  collateralPubkey : CPubKey := []
  pubKey : CPubKey := []
  sigTime : Nat := 0
  ip : String := ""
  sig : Bytes := []
  benchmarkTier : Int := 0
  benchmarkSig : Bytes := []
  benchmarkSigTime : Nat := 0
  nUpdateType : Int := 0
  nFluxTxVersion : Int := 0
  P2SHRedeemScript : CScript := []
  csappDeploymentId : String := ""
  csappOwner : String := ""
  csappSpecJson : String := ""
  csappIp : String := ""
  csappLockedAmount : CAmount := 0
  csappSig : Bytes := []
  opoiRequestId : String := ""
  opoiRequester : String := ""
  opoiMinerAddress : String := ""
  opoiModel : String := ""
  opoiPromptHash : Uint256 := 0
  opoiResponseHash : Uint256 := 0
  opoiCommitment : Uint256 := 0
  opoiMaxTokens : Nat := 0
  opoiTokenCount : Nat := 0
  opoiTaskType : Int := 0
  opoiTaskClass : Nat := 0
  opoiPayment : CAmount := 0
  opoiFeePerToken : CAmount := 0
  opoiSigTime : Nat := 0
  opoiSig : Bytes := []
  opoiVrfProof : Bytes := []
  opoiCollateralIn : COutPoint := {}
  opoiChallengePhase : Nat := 0
  opoiCommitHash : Bytes := []
  opoiProofData : Bytes := []
  opoiChallengeNonce : Bytes := []
  opoiChallengerCollateralIn : COutPoint := {}
  opoiResponsePhase : Nat := 0
  opoiResponseCommitHash : Bytes := []
  opoiResponseNonce : Bytes := []
  opoiModelId : String := ""
  opoiTier : Nat := 0
  opoiPomRoot : Uint256 := 0
  opoiHostedExpertIds : List Nat := []
  opoiEndpoint : String := ""
  opoiPromptTokenCount : Nat := 0
  opoiIsCanary : Nat := 0
  opoiTestSuite : Uint256 := 0
  opoiAuditorAddress : String := ""
  opoiAuditorVerifyResult : Nat := 0
  opoiAuditorCollateralIn : COutPoint := {}
  opoiModelArchType : Nat := 0
  opoiModelTotalParams : Nat := 0
  opoiModelActiveParamsPerToken : Nat := 0
  opoiModelNumLayers : Nat := 0
  opoiModelNumDenseShards : Nat := 0
  opoiModelNumExperts : Nat := 0
  opoiModelTopKExperts : Nat := 0
  opoiModelExpertPomRoots : List Uint256 := []
  opoiModelMinRewardPerToken : CAmount := 0
  opoiModelTotalSizeBytes : Nat := 0
  opoiModelVoteApprove : Nat := 0
  opoiShardIndex : Nat := 0
deriving Repr, DecidableEq

namespace CTransaction

variable (tx : CTransaction)

/-- `IsCoinBase`: a single input that spends the null outpoint. -/
def isCoinBase : Bool :=
  match tx.vin with
  | [txin] => txin.prevout.isNull
  | _ => false

def isFluxnodeTx : Bool :=
  tx.nVersion == FLUXNODE_TX_VERSION || tx.nVersion == FLUXNODE_TX_UPGRADEABLE_VERSION

def isCSAppTx : Bool := tx.nVersion == CSAPP_TX_VERSION

def isOPoITx : Bool := tx.nVersion == OPOI_TX_VERSION

theorem nVersion_of_isOPoITx (h : tx.isOPoITx = true) : tx.nVersion = OPOI_TX_VERSION :=
  beq_iff_eq.mp h

/-- The kinds of transactions that have a payload in the place of inputs and outputs. -/
def isInputless : Bool := tx.isFluxnodeTx || tx.isCSAppTx || tx.isOPoITx

/-- Its exceptions on values out of range are excluded by `CheckTransaction`. -/
def getValueOut : CAmount :=
  (tx.vout.map CTxOut.nValue).sum + (if tx.valueBalance ≤ 0 then -tx.valueBalance else 0) +
    (tx.vJoinSplit.map JSDescription.vpubOld).sum

theorem getValueOut_of_transparent {tx : CTransaction} (hBalance : tx.valueBalance = 0)
    (hJoinSplit : tx.vJoinSplit = []) : tx.getValueOut = (tx.vout.map CTxOut.nValue).sum := by
  simp [getValueOut, hBalance, hJoinSplit]

/-- `GetShieldedValueIn`: what moves out of the shielded pools. -/
def getShieldedValueIn (tx : CTransaction) : CAmount :=
  (if 0 ≤ tx.valueBalance then tx.valueBalance else 0) +
    (tx.vJoinSplit.map JSDescription.vpubNew).sum

/-- The OPoI type of the transaction. -/
def opoiType (tx : CTransaction) : OPoITxType := .ofCode tx.nType

/-- Whether the transaction is an OPoI transaction of the given type. -/
def isOPoI (tx : CTransaction) (t : OPoITxType) : Bool := tx.isOPoITx && tx.opoiType == t

end CTransaction

/-- `CBlock`: the block hash (the hash of its header) and its transactions. -/
structure CBlock where
  hash : Uint256
  vtx : List CTransaction
deriving Repr, DecidableEq

end CloudService
