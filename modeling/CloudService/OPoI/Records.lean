/-
  The records of the OPoI index (`opoi/opoi.h`, `opoi/opoi_model_manifest.h`). `std::map` and
  `std::set` are extensional tree maps and sets.
-/

import CloudService.Library.TreeMap
import CloudService.Primitives.Transaction

namespace CloudService

/-- `std::map<std::string, T>`. -/
abbrev StrMap (α : Type) := Std.ExtTreeMap String α

/-- `std::set<std::string>`. -/
abbrev StrSet := Std.ExtTreeSet String

/-! ## Status values -/

/-- `OPOI_STATUS_*`: life cycle of a request. -/
inductive RequestStatus where
  | pending
  | fulfilled
  | expired
deriving Repr, DecidableEq

/-- `OPOI_STAKE_*`: life cycle of a stake. -/
inductive StakeStatus where
  | active
  | unstaking
  | released
  | slashed
  | suspended
deriving Repr, DecidableEq

/-- `OPOI_CHALLENGE_*`: life cycle of a challenge. -/
inductive ChallengeStatus where
  | opened
  | slashed
  | expired
  | revealedPending
  | resolvedNoOracle
deriving Repr, DecidableEq

/-- `OPOI_AUDITOR_STATUS_*`: state of one auditor vote. -/
inductive AuditorStatus where
  | pending
  | complete
  | slashed
deriving Repr, DecidableEq

/-- `OPOI_MODEL_STATUS_*`: governance state of a model manifest. -/
inductive ModelStatus where
  | voting
  | approved
  | active
  | rejected
deriving Repr, DecidableEq

/-- `AUDITOR_VERIFY_PASS`, `AUDITOR_VERIFY_FAIL` and `AUDITOR_VERIFY_TIMEOUT`. -/
def AUDITOR_VERIFY_PASS : Nat := 0
def AUDITOR_VERIFY_FAIL : Nat := 1
def AUDITOR_VERIFY_TIMEOUT : Nat := 2

def OPOI_MAX_CANARY_STRIKES : Nat := 3

def OPOI_TIER_TITAN : Nat := 4

def OPOI_TASKCLASS_INTERACTIVE : Nat := 0

/-- `OPOI_ARCH_DENSE`, `OPOI_ARCH_MOE` and `OPOI_ARCH_HYBRID`. -/
def OPOI_ARCH_DENSE : Nat := 0
def OPOI_ARCH_MOE : Nat := 1
def OPOI_ARCH_HYBRID : Nat := 2

/-! ## Requests and responses -/

structure OPoIRequest where
  requestId : String
  requester : String
  model : String
  promptHash : Uint256
  maxTokens : Nat
  payment : CAmount
  feePerToken : CAmount
  taskType : Int
  taskClass : Nat
  promptTokenCount : Nat
  isCanary : Nat
  testSuite : Uint256
  blockHeight : Nat
  sigTime : Nat
  txHash : Uint256
  status : RequestStatus
  responseCommits : StrMap String
  responseReveals : StrMap String
  commitWindowClosed : Bool
  vrfActiveStakers : Nat
deriving DecidableEq

/-- `OPoIRequest::IsPending`, `IsExpired` and `IsVerifiable`. -/
def OPoIRequest.isPending (r : OPoIRequest) : Bool := r.status == .pending
def OPoIRequest.isExpired (r : OPoIRequest) : Bool := r.status == .expired
def OPoIRequest.isVerifiable (r : OPoIRequest) : Bool := r.taskType == OPOI_TASK_VERIFIABLE

/-- Only revealed responses are stored. `responseCommitHash` and `commitHeight` are never set. -/
structure OPoIResponse where
  requestId : String
  minerAddress : String
  responseHash : Uint256
  commitment : Uint256
  tokenCount : Nat
  blockHeight : Nat
  sigTime : Nat
  txHash : Uint256
  auditSelected : Bool
  auditDeadline : Nat
deriving Repr, DecidableEq

/-! ## Stakes and challenges -/

structure OPoIStake where
  minerAddress : String
  collateralIn : COutPoint
  amount : CAmount
  modelId : String
  tier : Nat
  pomRoot : Uint256
  blockHeight : Nat
  lastRenewalHeight : Nat
  sigTime : Nat
  txHash : Uint256
  stakeStatus : StakeStatus
  unstakeHeight : Nat
  unstakeTxHash : Uint256
  responsesTotal : Nat
  responsesChallenged : Nat
  responsesSlashed : Nat
  canaryStrikes : Nat
  canaryObligationDeadline : Nat
  minerPubKey : CPubKey
  hostedExpertIds : List Nat
  endpoint : String
deriving Repr, DecidableEq

/-- `OPoIStake::IsActive`, `IsUnstaking` and `HostsExpert`. -/
def OPoIStake.isActive (s : OPoIStake) : Bool := s.stakeStatus == .active
def OPoIStake.isUnstaking (s : OPoIStake) : Bool := s.stakeStatus == .unstaking
def OPoIStake.hostsExpert (s : OPoIStake) (expertId : Nat) : Bool :=
  s.hostedExpertIds.contains expertId

structure OPoIChallenge where
  requestId : String
  challengerAddress : String
  fraudProof : Bytes
  challengerCollateral : COutPoint
  phase : Nat
  commitHash : String
  commitHeight : Nat
  blockHeight : Nat
  sigTime : Nat
  txHash : Uint256
  challengeStatus : ChallengeStatus
  revealTxHash : Uint256
deriving Repr, DecidableEq

/-- `OPoIChallenge::IsOpen` and `IsPendingResolution`. -/
def OPoIChallenge.isOpen (ch : OPoIChallenge) : Bool := ch.challengeStatus == .opened
def OPoIChallenge.isPendingResolution (ch : OPoIChallenge) : Bool :=
  ch.challengeStatus == .revealedPending

/-! ## Auditor votes, shard results, coordinator claims -/

structure AuditorVerification where
  requestId : String := ""
  auditorAddress : String
  result : Nat
  auditorCollateral : COutPoint := {}
  blockHeight : Nat := 0
  txHash : Uint256 := 0
  status : AuditorStatus := .pending
  shardIndex : Nat := OPOI_AUDITOR_VERIFY_NO_SHARD
deriving Repr, DecidableEq

structure ShardResultSubmission where
  minerAddress : String
  boundaryOutputHash : Uint256
  routerLogitsHash : Uint256 := 0
  tokenCount : Nat
  blockHeight : Nat := 0
  txHash : Uint256 := 0
deriving Repr, DecidableEq

structure ShardCoordinatorClaim where
  requestId : String
  minerAddress : String
  blockHeight : Nat
  txHash : Uint256
deriving Repr, DecidableEq

/-! ## Model governance -/

structure ModelManifest where
  modelId : String
  archType : Nat
  totalParams : Nat
  activeParamsPerToken : Nat
  numLayers : Nat
  numDenseShards : Nat
  numExperts : Nat
  topKExperts : Nat
  backbonePomRoot : Uint256
  expertPomRoots : List Uint256
  minRewardPerToken : CAmount
  totalSizeBytes : Nat
  proposer : String
  proposedHeight : Nat
  voteWindowEndHeight : Nat
  activationHeight : Nat
  txHash : Uint256
  status : ModelStatus
  shardTopologyHash : Uint256
deriving Repr, DecidableEq

/-- `ModelManifest::IsMoE`, `IsVoting` and `IsActive`. -/
def ModelManifest.isMoE (m : ModelManifest) : Bool :=
  m.archType == OPOI_ARCH_MOE || m.archType == OPOI_ARCH_HYBRID
def ModelManifest.isVoting (m : ModelManifest) : Bool := m.status == .voting
def ModelManifest.isActive (m : ModelManifest) : Bool := m.status == .active

structure ModelVoteRecord where
  voterAddress : String
  approve : Bool
  weight : CAmount
  blockHeight : Nat
  txHash : Uint256
deriving Repr, DecidableEq

end CloudService
