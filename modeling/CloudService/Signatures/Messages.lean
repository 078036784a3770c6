/-
  The signed messages of `CheckOPoITransaction`, one for each type and phase.
-/

import CloudService.OPoI.CacheTests

namespace CloudService

open CTransaction

/-! ## Kinds of messages -/

/-- The types of OPoI transactions, with the phases of RESPONSE and CHALLENGE apart. -/
inductive MsgKind where
  | request
  | responseCommit
  | responseReveal
  | stake
  | unstake
  | renew
  | challengeCommit
  | challengeReveal
  | modelRegister
  | modelVote
  | coordinatorClaim
  | shardResult
  | auditorVerify
deriving Repr, DecidableEq

/-- The type and phase of an OPoI transaction. Every phase other than 0 is a REVEAL. -/
def CTransaction.msgKind (tx : CTransaction) : Option MsgKind :=
  if !tx.isOPoITx then none
  else
    match tx.opoiType with
    | .request => some .request
    | .response => some (if tx.opoiResponsePhase = 0 then .responseCommit else .responseReveal)
    | .stake => some .stake
    | .unstake => some .unstake
    | .renew => some .renew
    | .challenge => some (if tx.opoiChallengePhase = 0 then .challengeCommit else .challengeReveal)
    | .modelRegister => some .modelRegister
    | .modelVote => some .modelVote
    | .coordinatorClaim => some .coordinatorClaim
    | .shardResult => some .shardResult
    | .auditorVerify => some .auditorVerify
    | .unknown => none

section Messages

variable (tx : CTransaction)

/-- The address whose signature a message needs. -/
def signer : MsgKind → String
  | .request | .challengeCommit | .challengeReveal | .modelRegister | .modelVote =>
    tx.opoiRequester
  | .responseCommit | .responseReveal | .stake | .unstake | .renew | .coordinatorClaim
  | .shardResult => tx.opoiMinerAddress
  | .auditorVerify => tx.opoiAuditorAddress

/-- `sigMsg` in the branch of a kind. -/
def sigMsg : MsgKind → String
  | .request => requestSigMsg tx
  | .responseCommit => responseCommitSigMsg tx
  | .responseReveal => responseRevealSigMsg tx
  | .stake => stakeSigMsg tx
  | .unstake => unstakeSigMsg tx
  | .renew => renewSigMsg tx
  | .challengeCommit => challengeCommitSigMsg tx
  | .challengeReveal => challengeRevealSigMsg tx
  | .modelRegister => modelRegisterSigMsg tx
  | .modelVote => modelVoteSigMsg tx
  | .coordinatorClaim => coordinatorClaimSigMsg tx
  | .shardResult => shardResultSigMsg tx
  | .auditorVerify => auditorVerifySigMsg tx

/-! ## Field checks -/

def PaysFee (p : Params) : Prop :=
  0 < p.nOPoIFeeBase ∨ 0 < p.nOPoIFeePerToken →
    p.nOPoIFeeBase + (tx.opoiPromptTokenCount : CAmount) * p.nOPoIFeePerToken ≤ tx.opoiPayment

@[mk_iff]
structure ShapeFits : Prop where
  arch : tx.opoiModelArchType = OPOI_ARCH_DENSE ∨ tx.opoiModelArchType = OPOI_ARCH_MOE ∨
    tx.opoiModelArchType = OPOI_ARCH_HYBRID
  dense : tx.opoiModelArchType = OPOI_ARCH_DENSE →
    tx.opoiModelNumExperts = 0 ∧ tx.opoiModelTopKExperts = 0 ∧ tx.opoiModelExpertPomRoots = []
  experts : tx.opoiModelArchType ≠ OPOI_ARCH_DENSE →
    tx.opoiModelNumExperts ≠ 0 ∧ tx.opoiModelTopKExperts ≠ 0 ∧
      tx.opoiModelTopKExperts ≤ tx.opoiModelNumExperts ∧
      tx.opoiModelExpertPomRoots.length = tx.opoiModelNumExperts
  layers : tx.opoiModelNumLayers ≠ 0
  shards : tx.opoiModelNumDenseShards ≠ 0 ∧ tx.opoiModelNumDenseShards ≤ tx.opoiModelNumLayers

def FieldTests (env : Env) : MsgKind → Prop
  | .request =>
    tx.opoiRequestId ≠ "" ∧ tx.opoiRequester ≠ "" ∧ tx.opoiModel ≠ "" ∧ tx.opoiPromptHash ≠ 0 ∧
      0 < tx.opoiPayment ∧ (tx.opoiTaskType = OPOI_TASK_VERIFIABLE → tx.opoiTestSuite ≠ 0) ∧
      PaysFee tx env.params ∧ (tx.opoiIsCanary ≠ 0 → tx.opoiTaskType = OPOI_TASK_VERIFIABLE) ∧
      (tx.opoiIsCanary ≠ 0 → tx.opoiTestSuite = env.canaryTestSuiteHash)
  | .responseCommit =>
    tx.opoiRequestId ≠ "" ∧ tx.opoiMinerAddress ≠ "" ∧ tx.opoiResponseCommitHash.length = 32
  | .responseReveal | .shardResult =>
    tx.opoiRequestId ≠ "" ∧ tx.opoiMinerAddress ≠ "" ∧ tx.opoiResponseHash ≠ 0
  | .stake =>
    tx.opoiMinerAddress ≠ "" ∧ tx.opoiCollateralIn.isNull = false ∧ 0 < tx.opoiPayment
  | .unstake | .renew => tx.opoiMinerAddress ≠ ""
  | .challengeCommit =>
    tx.opoiRequestId ≠ "" ∧ tx.opoiRequester ≠ "" ∧
      tx.opoiChallengerCollateralIn.isNull = false ∧ tx.opoiCommitHash.length = 32
  | .challengeReveal =>
    tx.opoiRequestId ≠ "" ∧ tx.opoiRequester ≠ "" ∧
      tx.opoiChallengerCollateralIn.isNull = false ∧ tx.opoiProofData ≠ [] ∧
      tx.opoiChallengeNonce ≠ []
  | .modelRegister =>
    tx.opoiModelId ≠ "" ∧ tx.opoiRequester ≠ "" ∧ ShapeFits tx ∧ tx.opoiPomRoot ≠ 0
  | .modelVote => tx.opoiModelId ≠ "" ∧ tx.opoiRequester ≠ ""
  | .coordinatorClaim => tx.opoiRequestId ≠ "" ∧ tx.opoiMinerAddress ≠ ""
  | .auditorVerify =>
    tx.opoiRequestId ≠ "" ∧ tx.opoiAuditorAddress ≠ "" ∧
      (tx.opoiAuditorVerifyResult = AUDITOR_VERIFY_PASS ∨
        tx.opoiAuditorVerifyResult = AUDITOR_VERIFY_FAIL ∨
        tx.opoiAuditorVerifyResult = AUDITOR_VERIFY_TIMEOUT) ∧
      tx.opoiAuditorCollateralIn.isNull = false

structure PassesFields (env : Env) (k : MsgKind) : Prop where
  kind : tx.msgKind = some k
  noCoins : tx.vin = [] ∧ tx.vout = [] ∧ tx.vJoinSplit = []
  tests : FieldTests tx env k

end Messages

section Checks

variable {env : Env} {tx : CTransaction} {k : MsgKind}

theorem isOPoITx_of_msgKind (hKind : tx.msgKind = some k) : tx.isOPoITx = true := by
  by_contra hNot
  simp [msgKind, hNot] at hKind

def SignedAs (env : Env) (tx : CTransaction) (k : MsgKind) : Prop :=
  (env.verifyOPoISig (signer tx k) (sigMsg tx k) tx.opoiSig).isSome = true

/-- A check of the start-up verification is the field tests of a kind and its signature. -/
def ChecksFields (env : Env) (tx : CTransaction) (check : Checked Unit) (k : MsgKind) : Prop :=
  check = .ok () ↔ FieldTests tx env k ∧ SignedAs env tx k

theorem isNull_eq_false {x : Uint256} : x.isNull = false ↔ x ≠ 0 := by
  simp [Uint256.isNull]

theorem requireSig_iff {address message reason : String} :
    requireSig env tx address message reason = .ok () ↔
      (env.verifyOPoISig address message tx.opoiSig).isSome = true := by
  simp [requireSig, ← Option.not_isSome]

theorem checkRequest_fields : ChecksFields env tx (checkRequest env true {} tx) .request := by
  simp only [ChecksFields, checkRequest, check_bind_eq_ok, rejectIf_eq_ok, requireSig_iff,
    FieldTests, PaysFee, SignedAs, signer, sigMsg, Bool.not_true, Bool.false_and]
  simp [isNull_eq_false]
  tauto

theorem checkResponse_fields_commit (h : tx.opoiResponsePhase = 0) :
    ChecksFields env tx (checkResponse env true [] {} tx) .responseCommit := by
  simp only [ChecksFields, checkResponse, h, if_true, checkResponseCommit, check_bind_eq_ok,
    rejectIf_eq_ok,
    requireSig_iff, FieldTests, SignedAs, signer, sigMsg, Bool.not_true, Bool.false_and]
  simp
  tauto

theorem checkResponse_fields_reveal (h : tx.opoiResponsePhase ≠ 0) :
    ChecksFields env tx (checkResponse env true [] {} tx) .responseReveal := by
  simp only [ChecksFields, checkResponse, h, if_false, checkResponseReveal, check_bind_eq_ok,
    rejectIf_eq_ok,
    requireSig_iff, FieldTests, SignedAs, signer, sigMsg, Bool.not_true, Bool.false_and,
      unlessVerifying]
  simp [isNull_eq_false]
  tauto

theorem checkStake_fields : ChecksFields env tx (checkStake env true {} tx) .stake := by
  simp only [ChecksFields, checkStake, check_bind_eq_ok, rejectIf_eq_ok, requireUnlocked_verifying,
    requireSig_iff, FieldTests, SignedAs, signer, sigMsg]
  simp
  tauto

theorem checkUnstake_fields : ChecksFields env tx (checkUnstake env true {} tx) .unstake := by
  simp only [ChecksFields, checkUnstake, check_bind_eq_ok, rejectIf_eq_ok, requireSig_iff,
    FieldTests, SignedAs, signer, sigMsg, Bool.not_true, Bool.false_and]
  simp

theorem checkRenew_fields : ChecksFields env tx (checkRenew env true {} tx) .renew := by
  simp only [ChecksFields, checkRenew, check_bind_eq_ok, rejectIf_eq_ok, requireSig_iff, FieldTests,
    SignedAs, signer, sigMsg, Bool.not_true, Bool.false_and]
  simp

theorem checkChallenge_fields_commit (h : tx.opoiChallengePhase = 0) :
    ChecksFields env tx (checkChallenge env true {} tx) .challengeCommit := by
  simp only [ChecksFields, checkChallenge, h, if_true, checkChallengeCommit, check_bind_eq_ok,
    rejectIf_eq_ok,
    requireUnlocked_verifying, requireSig_iff, FieldTests, SignedAs, signer, sigMsg, Bool.not_true,
    Bool.false_and]
  simp
  tauto

theorem checkChallenge_fields_reveal (h : tx.opoiChallengePhase ≠ 0) :
    ChecksFields env tx (checkChallenge env true {} tx) .challengeReveal := by
  simp only [ChecksFields, checkChallenge, h, if_false, checkChallengeReveal, check_bind_eq_ok,
    rejectIf_eq_ok,
    requireSig_iff, FieldTests, SignedAs, signer, sigMsg, Bool.not_true, Bool.false_and]
  simp
  tauto

theorem checkModelRegister_fields :
    ChecksFields env tx (checkModelRegister env true {} tx) .modelRegister := by
  simp only [ChecksFields, checkModelRegister, check_bind_eq_ok, rejectIf_eq_ok, requireSig_iff,
    FieldTests, shapeFits_iff, SignedAs, signer, sigMsg, Bool.not_true, Bool.false_and]
  simp [isNull_eq_false]
  tauto

theorem checkModelVote_fields : ChecksFields env tx (checkModelVote env true {} tx) .modelVote := by
  simp only [ChecksFields, checkModelVote, check_bind_eq_ok, rejectIf_eq_ok, requireSig_iff,
    FieldTests, SignedAs, signer, sigMsg, Bool.not_true, Bool.false_and]
  simp
  tauto

theorem checkCoordinatorClaim_fields :
    ChecksFields env tx (checkCoordinatorClaim env true [] {} tx) .coordinatorClaim := by
  simp only [ChecksFields, checkCoordinatorClaim, check_bind_eq_ok, rejectIf_eq_ok, requireSig_iff,
    FieldTests,
    SignedAs, signer, sigMsg, Bool.not_true, Bool.false_and, Bool.true_or, unlessVerifying]
  simp
  tauto

theorem checkShardResult_fields :
    ChecksFields env tx (checkShardResult env true [] {} tx) .shardResult := by
  simp only [ChecksFields, checkShardResult, check_bind_eq_ok, rejectIf_eq_ok, requireSig_iff,
    FieldTests, SignedAs, signer, sigMsg, Bool.not_true, Bool.false_and, unlessVerifying]
  simp [isNull_eq_false]
  tauto

theorem checkAuditorVerify_fields :
    ChecksFields env tx (checkAuditorVerify env true {} tx) .auditorVerify := by
  simp only [ChecksFields, checkAuditorVerify, check_bind_eq_ok, rejectIf_eq_ok,
    requireUnlocked_verifying,
    requireSig_iff, FieldTests, SignedAs, signer, sigMsg, unlessVerifying]
  simp
  tauto

/-- The checks of the start-up verification are the field checks and the signature. -/
theorem fieldChecks_iff (hKind : tx.msgKind = some k) :
    fieldChecks env tx = .ok () ↔ PassesFields tx env k ∧ SignedAs env tx k := by
  have hPasses : PassesFields tx env k ↔
      (tx.vin = [] ∧ tx.vout = [] ∧ tx.vJoinSplit = []) ∧ FieldTests tx env k :=
    ⟨fun h => ⟨h.noCoins, h.tests⟩, fun h => ⟨hKind, h.1, h.2⟩⟩
  have hOPoI := isOPoITx_of_msgKind hKind
  have hVersion := tx.nVersion_of_isOPoITx hOPoI
  rw [hPasses, and_assoc]
  simp only [fieldChecks, checkOPoITransaction, hVersion, ne_eq, not_true_eq_false, if_false,
    check_bind_eq_ok, rejectIf_eq_ok]
  refine and_congr (by simp [and_assoc]) ?_
  simp only [msgKind, hOPoI, Bool.not_true, Bool.false_eq_true, if_false] at hKind
  cases hType : tx.opoiType with
  | response =>
    by_cases hPhase : tx.opoiResponsePhase = 0
    · obtain rfl : MsgKind.responseCommit = k := by simpa [hType, hPhase] using hKind
      exact checkResponse_fields_commit hPhase
    · obtain rfl : MsgKind.responseReveal = k := by simpa [hType, hPhase] using hKind
      exact checkResponse_fields_reveal hPhase
  | challenge =>
    by_cases hPhase : tx.opoiChallengePhase = 0
    · obtain rfl : MsgKind.challengeCommit = k := by simpa [hType, hPhase] using hKind
      exact checkChallenge_fields_commit hPhase
    · obtain rfl : MsgKind.challengeReveal = k := by simpa [hType, hPhase] using hKind
      exact checkChallenge_fields_reveal hPhase
  | unknown => simp [hType] at hKind
  | _ =>
    rw [hType] at hKind
    obtain rfl := Option.some.inj hKind
    first
    | exact checkRequest_fields
    | exact checkStake_fields
    | exact checkUnstake_fields
    | exact checkRenew_fields
    | exact checkModelRegister_fields
    | exact checkModelVote_fields
    | exact checkCoordinatorClaim_fields
    | exact checkShardResult_fields
    | exact checkAuditorVerify_fields

theorem checkOPoITransaction_verifying {chainActive : List Uint256} {c : OPoICache} :
    checkOPoITransaction env true chainActive c tx = fieldChecks env tx := by
  simp [fieldChecks, checkOPoITransaction, checkRequest, checkResponse, checkResponseCommit,
    checkResponseReveal, checkStake, checkUnstake, checkRenew, checkChallenge, checkChallengeCommit,
    checkChallengeReveal, checkModelRegister, checkModelVote, checkCoordinatorClaim,
      checkShardResult, checkAuditorVerify, requireUnlocked, unlessVerifying]

theorem passes_of_accepted {fIsVerifying : Bool} {chainActive : List Uint256} {c : OPoICache}
    (hKind : tx.msgKind = some k)
    (h : checkOPoITransaction env fIsVerifying chainActive c tx = .ok ()) :
    PassesFields tx env k ∧ SignedAs env tx k := by
  have hOPoI := isOPoITx_of_msgKind hKind
  cases fIsVerifying with
  | true => exact (fieldChecks_iff hKind).mp (checkOPoITransaction_verifying ▸ h)
  | false => exact (fieldChecks_iff hKind).mp ((checkOPoITransaction_iff hOPoI).mp h).1

end Checks

end CloudService
