/-
  The consensus parameters (`consensus/params.h`), and the environment: the cryptographic
  primitives and the checks outside the modelled subsystem, as arbitrary functions.
-/

import CloudService.Consensus.Subsidy
import CloudService.OPoI.Records
import CloudService.Primitives.Coins

namespace CloudService

/-- `Consensus::Params`, the OPoI part, with the thresholds of the sortition as numbers. -/
structure Params where
  /-- `vUpgrades[UPGRADE_OPOI].nActivationHeight`; `-1` when never active. -/
  opoiActivationHeight : Int := 1
  nOPoIMinStake : CAmount := 0
  nOPoIUnstakeCooldownBlocks : Int := 1440
  nOPoIChallengerRewardPct : Int := 50
  nOPoITreasuryRewardPct : Int := 50
  nOPoIChallengeCommitRevealBlocks : Int := 144
  nOPoIResponseCommitWindowBlocks : Int := 144
  nOPoIRequestExpiryBlocks : Int := 2016
  nOPoIMinAuditors : Int := 3
  nOPoIVrfThreshold : Nat := 0
  nOPoIAdaptiveVrfHeight : Int := 0
  nOPoIVrfTargetEligible : Int := 3
  nOPoIModelVoteWindowBlocks : Int := 200
  nOPoIModelApprovalPct : Int := 66
  nOPoIModelActivationDelayBlocks : Int := 100
  nOPoICoordinatorThreshold : Nat := 0
  nOPoIShardThreshold : Nat := 0
  nOPoIShardMinSubmissions : Int := 3
  nOPoIMaxPipelineDepth : Int := 6
  nOPoITitanOffloadThresholdGB : Int := 200
  nOPoIMaxRequestsPerBlock : Int := 50
  nOPoIMaxResponsesPerBlock : Int := 100
  nOPoIStakeRenewalBlocks : Int := 0
  nOPoICanaryAuditFrequency : Int := 0
  nOPoICanaryResponseWindow : Int := 0
  nOPoIAuditSampleRateBp : Int := 1500
  nOPoIAuditSampleRateNewMinerBp : Int := 10000
  nOPoIAuditSampleNewMinerResponseCount : Nat := 5
  nOPoIAuditWindowBlocks : Int := 200
  nOPoIFeeBase : CAmount := 0
  nOPoIFeePerToken : CAmount := 0

/-- `NetworkUpgradeActive(nHeight, params, UPGRADE_OPOI)`. -/
def Params.opoiActive (p : Params) (nHeight : Nat) : Bool :=
  p.opoiActivationHeight != -1 && decide (p.opoiActivationHeight ≤ (nHeight : Int))

theorem Params.opoiActive_mono {p : Params} {low high : Nat} (hLe : low ≤ high)
    (h : p.opoiActive low = true) : p.opoiActive high = true := by
  simp only [Params.opoiActive, Bool.and_eq_true, decide_eq_true_eq] at h ⊢
  exact ⟨h.1, by omega⟩

/-- The tiers of `csnode.h` that are paid, in the order of their values. -/
inductive Tier where
  | proton
  | eletron
  | neutron
  | foton
deriving Repr, DecidableEq

/-- What the model takes from outside: hashes, signature recovery, the VRF,
    address decoding and chain constants, as arbitrary functions. -/
structure Env where
  params : Params
  chainParams : ChainParams
  /-- `NetworkUpgradeActive(nHeight, params, UPGRADE_ACADIA)`. -/
  acadiaActive : Nat → Bool
  /-- Coinbases have to be spent to shielded outputs (`fCoinbaseMustBeProtected`, until
      `UPGRADE_FLUX`). -/
  coinbaseProtected : Nat → Bool
  /-- The roots of the commitment trees. -/
  roots : TreeRoots
  /-- The field `hashFinalSaplingRoot` of the header that has a hash. -/
  hashFinalSaplingRoot : Uint256 → Uint256
  /-- `CTransaction::GetHash`. -/
  getHash : CTransaction → Uint256
  /-- The double SHA-256 of the message magic followed by a message. -/
  messageHash : String → Uint256
  /-- `CPubKey::RecoverCompact`. -/
  recoverCompact : Uint256 → Bytes → Option CPubKey
  /-- `CPubKey::GetID`. -/
  getID : CPubKey → Bytes
  decodeDestination : String → CTxDestination
  /-- `CSHA256`. -/
  sha256 : Bytes → Bytes
  /-- `OPoIVRFVerify`: the output for a public key, an input and a valid proof. -/
  vrfVerify : CPubKey → Bytes → Bytes → Option Bytes
  /-- The hash writer of `ComputeShardTopologyHash` over the fields it serialises. -/
  topologyHash : Nat → Nat → Nat → Nat → Nat → Uint256
  canaryTestSuiteHash : Uint256
  /-- `static_cast<CAmount>(GetBlockSubsidy(nHeight) * nOPoISubsidyPct)`. -/
  opoiBudget : Nat → CAmount
  opoiBudget_nonneg : ∀ nHeight, 0 ≤ opoiBudget nHeight
  startFluxnodePayments : Nat
  /-- `FluxnodeCache::GetNextPayment` for a tier; the fluxnode cache belongs to the active
      chain. -/
  getNextPayment : List Uint256 → Tier → Option CTxDestination
  /-- `GetFluxnodeSubsidy` of the block subsidy at a height. -/
  getFluxnodeSubsidy : Nat → Tier → CAmount
  /-- `GetOPoITreasuryAddress`, an address of the chain parameters. -/
  treasuryAddress : String
  treasury_valid : isValidDestination (decodeDestination treasuryAddress) = true
  /-- The genesis block; it carries no OPoI transaction. -/
  genesis : CBlock
  genesis_no_opoi : ∀ tx ∈ genesis.vtx, tx.isOPoITx = false
  /-- The other checks of `CheckTransaction` and `ContextualCheckTransaction` (versions,
      sizes, signatures of fluxnode transactions, proofs). -/
  checkTransactionOther : Nat → CTransaction → Bool
  /-- The other checks of `ConnectBlock` before its loop (header, Merkle root, sizes,
      the balances of the shielded pools). -/
  connectPrologue : Nat → CBlock → CoinsView → Bool
  /-- The other checks of one turn of the loop (of the transaction at an index of the
      block, on the coins before the block and the current ones): signature operations
      and fluxnode inputs before `ProcessOPoITransaction`, those of redeem scripts after
      it, and the scripts of the inputs last. -/
  connectTxBefore : Nat → CBlock → Nat → CoinsView → CoinsView → Bool
  connectTxRequirements : Nat → CBlock → Nat → CoinsView → CoinsView → Bool
  connectTxInputs : Nat → CBlock → Nat → CoinsView → CoinsView → Bool
  /-- The other checks after the loop (the script check queue), on the coins before and
      after the block. -/
  connectEpilogue : Nat → CBlock → CoinsView → CoinsView → Bool

namespace Env

variable (env : Env)

/-- The recovered public key, if its hash is the key hash that the address encodes. -/
def verifyOPoISig (address message : String) (vchSig : Bytes) : Option CPubKey :=
  if vchSig.isEmpty then none
  else
    match env.decodeDestination address with
    | .keyID pKeyID =>
      match env.recoverCompact (env.messageHash message) vchSig with
      | some recovered => if env.getID recovered == pKeyID then some recovered else none
      | none => none
    | _ => none

theorem isValidDestination_of_verifyOPoISig {address message : String} {sig : Bytes}
    (h : (env.verifyOPoISig address message sig).isSome) :
    isValidDestination (env.decodeDestination address) = true := by
  unfold verifyOPoISig at h
  split at h
  · cases h
  · split at h
    · next hDest => rw [hDest]; rfl
    · cases h

def computeShardTopologyHash (m : ModelManifest) : Uint256 :=
  env.topologyHash m.archType m.numLayers m.numDenseShards m.numExperts m.topKExperts

end Env

end CloudService
