/-
  What a signature fixes of the effect of a transaction: everything but the fields that the
  message does not determine.
-/

import CloudService.Coinbase.Merge
import CloudService.Signatures.Collisions

namespace CloudService

open Numerals OPoICache TreeMap CTransaction

variable {env : Env} {s t : String} {blockHeight : Nat} {tx : CTransaction}

/-! ## The same effect -/

def Env.stamping (env : Env) (txid : Uint256) : Env := { env with getHash := fun _ => txid }

def CTransaction.stamped (tx : CTransaction) (sigTime : Nat) (sig : Bytes) : CTransaction :=
  { tx with opoiSigTime := sigTime, opoiSig := sig }

/-- The caches after both are equal, up to the stored txid, time and signature. -/
def SameEffect (env : Env) (tx₁ tx₂ : CTransaction) : Prop :=
  ∀ (txid : Uint256) (sigTime : Nat) (sig : Bytes) (chainActive : List Uint256)
    (blockHeight : Nat) (c : OPoICache),
    processOPoITransaction (env.stamping txid) chainActive (tx₁.stamped sigTime sig) blockHeight
        false c =
      processOPoITransaction (env.stamping txid) chainActive (tx₂.stamped sigTime sig) blockHeight
        false c

/-- The fields that a signature leaves open: unsigned, or run into each other in the text. -/
def AgreeOnOpen (tx₁ tx₂ : CTransaction) : MsgKind → Prop
  | .request =>
    tx₁.opoiRequestId = tx₂.opoiRequestId ∧ tx₁.opoiModel = tx₂.opoiModel ∧
      tx₁.opoiMaxTokens = tx₂.opoiMaxTokens ∧ tx₁.opoiPayment = tx₂.opoiPayment ∧
      tx₁.opoiFeePerToken = tx₂.opoiFeePerToken ∧ tx₁.opoiTaskType = tx₂.opoiTaskType ∧
      tx₁.opoiTaskClass = tx₂.opoiTaskClass ∧
      tx₁.opoiPromptTokenCount = tx₂.opoiPromptTokenCount
  | .stake =>
    tx₁.opoiPayment = tx₂.opoiPayment ∧ tx₁.opoiModelId = tx₂.opoiModelId ∧
      tx₁.opoiTier = tx₂.opoiTier ∧ tx₁.opoiPomRoot = tx₂.opoiPomRoot ∧
      tx₁.opoiHostedExpertIds = tx₂.opoiHostedExpertIds ∧ tx₁.opoiEndpoint = tx₂.opoiEndpoint
  | .challengeReveal => tx₁.opoiProofData = tx₂.opoiProofData
  | .modelRegister =>
    tx₁.opoiModelTotalParams = tx₂.opoiModelTotalParams ∧
      tx₁.opoiModelActiveParamsPerToken = tx₂.opoiModelActiveParamsPerToken ∧
      tx₁.opoiModelNumLayers = tx₂.opoiModelNumLayers ∧
      tx₁.opoiModelNumDenseShards = tx₂.opoiModelNumDenseShards ∧
      tx₁.opoiModelNumExperts = tx₂.opoiModelNumExperts ∧
      tx₁.opoiModelTopKExperts = tx₂.opoiModelTopKExperts ∧
      tx₁.opoiModelExpertPomRoots = tx₂.opoiModelExpertPomRoots ∧
      tx₁.opoiModelMinRewardPerToken = tx₂.opoiModelMinRewardPerToken ∧
      tx₁.opoiModelTotalSizeBytes = tx₂.opoiModelTotalSizeBytes
  | .shardResult => tx₁.opoiShardIndex = tx₂.opoiShardIndex
  | .auditorVerify =>
    tx₁.opoiRequestId = tx₂.opoiRequestId ∧ tx₁.opoiShardIndex = tx₂.opoiShardIndex ∧
      tx₁.opoiAuditorVerifyResult = tx₂.opoiAuditorVerifyResult
  | .responseCommit | .responseReveal | .unstake | .renew | .challengeCommit | .modelVote
  | .coordinatorClaim => True

/-! ## What a message determines -/

section Fixed

variable {tx₁ tx₂ : CTransaction} {k : MsgKind}

theorem getHex_append_inj {x y : Uint256} (h : x.getHex ++ s = y.getHex ++ t) :
    x = y ∧ s = t := by
  have hChars := congrArg String.toList h
  rw [String.toList_append, String.toList_append] at hChars
  obtain ⟨hHash, hRest⟩ := List.append_inj hChars (by
    rw [Uint256.length_toList_getHex, Uint256.length_toList_getHex])
  exact ⟨Uint256.getHex_inj (String.toList_inj.mp hHash), String.toList_inj.mp hRest⟩

theorem hexStr_append_inj {b b' : Bytes} (hLength : b.length = b'.length)
    (h : hexStr b ++ s = hexStr b' ++ t) : b = b' ∧ s = t := by
  have hChars := congrArg String.toList h
  rw [String.toList_append, String.toList_append] at hChars
  obtain ⟨hBytes, hRest⟩ := List.append_inj hChars (by
    rw [length_toList_hexStr, length_toList_hexStr, hLength])
  exact ⟨hexStr_inj (String.toList_inj.mp hBytes), String.toList_inj.mp hRest⟩

theorem toString_nat_inj {n m : Nat} (h : toString n = toString m) : n = m := by
  have hChars := congrArg String.toList h
  rw [toList_toString_nat, toList_toString_nat] at hChars
  exact toDigits_ten_inj hChars

theorem parts_eq (hAddr : 't' ∈ (signer tx₁ k).toList) (hSigner : signer tx₁ k = signer tx₂ k)
    (hMsg : sigMsg tx₁ k = sigMsg tx₂ k) (h₁ : middle tx₁ k = "") (h₂ : middle tx₂ k = "") :
    front tx₁ k = front tx₂ k ∧ numerals tx₁ k = numerals tx₂ k := by
  have hChars := congrArg String.toList hMsg
  rw [toList_sigMsg, toList_sigMsg, ← hSigner, h₁, h₂, String.toList_empty, List.nil_append,
    List.nil_append] at hChars
  obtain ⟨hFront, hNumerals⟩ := Trailing.append_append_inj (p := isFieldChar) hAddr (by decide)
    (List.all_eq_true.mp (all_numerals tx₁ k)) (List.all_eq_true.mp (all_numerals tx₂ k)) hChars
  exact ⟨String.toList_inj.mp hFront, String.toList_inj.mp hNumerals⟩

theorem append_left_cancel {u : String} (h : s ++ t = s ++ u) : t = u := by
  have hChars := congrArg String.toList h
  rw [String.toList_append, String.toList_append] at hChars
  exact String.toList_inj.mp (List.append_cancel_left hChars)

theorem append_right_cancel {u : String} (h : t ++ s = u ++ s) : t = u := by
  have hChars := congrArg String.toList h
  rw [String.toList_append, String.toList_append] at hChars
  exact String.toList_inj.mp (List.append_cancel_right hChars)

theorem outPoint_eq {o o' : COutPoint} (hHash : o.hash = o'.hash) (hIndex : o.n = o'.n) :
    o = o' := by
  cases o'
  exact congr (congrArg COutPoint.mk hHash) hIndex

theorem numerals_eq (hSigner : signer tx₁ k = signer tx₂ k) (hMsg : sigMsg tx₁ k = sigMsg tx₂ k)
    (hFront : front tx₁ k = front tx₂ k) (hMiddle : middle tx₁ k = middle tx₂ k) :
    numerals tx₁ k = numerals tx₂ k := by
  rw [sigMsg_eq, sigMsg_eq, hSigner, hFront, hMiddle] at hMsg
  exact append_left_cancel (append_left_cancel (append_left_cancel hMsg))

def applyKind (env : Env) (chainActive : List Uint256) (blockHeight : Nat) (c : OPoICache)
    (tx : CTransaction) : MsgKind → OPoICache
  | .request => applyRequest env blockHeight c tx
  | .responseCommit => applyResponseCommit env blockHeight c tx
  | .responseReveal => applyResponseReveal env chainActive blockHeight c tx
  | .stake => applyStake env blockHeight c tx
  | .unstake => applyUnstake env blockHeight c tx
  | .renew => applyRenew blockHeight c tx
  | .challengeCommit => applyChallengeCommit env blockHeight c tx
  | .challengeReveal => applyChallengeReveal env c tx
  | .modelRegister => applyModelRegister env blockHeight c tx
  | .modelVote => applyModelVote env blockHeight c tx
  | .coordinatorClaim => applyCoordinatorClaim env blockHeight c tx
  | .shardResult => applyShardResult env blockHeight c tx
  | .auditorVerify => applyAuditorVerify env blockHeight c tx

theorem process_eq_applyKind {chainActive : List Uint256}
    {c : OPoICache} (hKind : tx.msgKind = some k) :
    processOPoITransaction env chainActive tx blockHeight false c =
      applyKind env chainActive blockHeight c tx k := by
  have hOPoI := isOPoITx_of_msgKind hKind
  have hVersion := tx.nVersion_of_isOPoITx hOPoI
  simp only [msgKind, hOPoI, Bool.not_true, Bool.false_eq_true, if_false] at hKind
  simp only [processOPoITransaction, hVersion, ne_eq, not_true_eq_false, if_false,
    Bool.false_eq_true, applyOPoITransaction]
  cases hType : tx.opoiType with
  | response =>
    by_cases hPhase : tx.opoiResponsePhase = 0
    · obtain rfl : MsgKind.responseCommit = k := by simpa [hType, hPhase] using hKind
      simp only [hPhase, if_true, applyKind]
    · obtain rfl : MsgKind.responseReveal = k := by simpa [hType, hPhase] using hKind
      simp only [hPhase, if_false, applyKind]
  | challenge =>
    by_cases hPhase : tx.opoiChallengePhase = 0
    · obtain rfl : MsgKind.challengeCommit = k := by simpa [hType, hPhase] using hKind
      simp only [hPhase, if_true, applyKind]
    · obtain rfl : MsgKind.challengeReveal = k := by simpa [hType, hPhase] using hKind
      simp only [hPhase, if_false, applyKind]
  | unknown => simp [hType] at hKind
  | _ =>
    rw [hType] at hKind
    obtain rfl := Option.some.inj hKind
    rfl

theorem sameEffect_iff (hKind₁ : tx₁.msgKind = some k) (hKind₂ : tx₂.msgKind = some k) :
    SameEffect env tx₁ tx₂ ↔
      ∀ (txid : Uint256) (sigTime : Nat) (sig : Bytes) (chainActive : List Uint256)
        (blockHeight : Nat) (c : OPoICache),
        applyKind (env.stamping txid) chainActive blockHeight c (tx₁.stamped sigTime sig) k =
          applyKind (env.stamping txid) chainActive blockHeight c (tx₂.stamped sigTime sig) k := by
  refine forall_congr' fun txid => forall_congr' fun sigTime => forall_congr' fun sig =>
    forall_congr' fun chainActive => forall_congr' fun blockHeight => forall_congr' fun c => ?_
  have h₁ : (tx₁.stamped sigTime sig).msgKind = some k := hKind₁
  have h₂ : (tx₂.stamped sigTime sig).msgKind = some k := hKind₂
  rw [process_eq_applyKind h₁, process_eq_applyKind h₂]

theorem sameEffect_of_agreeOnOpen (hPass₁ : PassesFields tx₁ env k)
    (hPass₂ : PassesFields tx₂ env k) (hAddr : 't' ∈ (signer tx₁ k).toList)
    (hSigner : signer tx₁ k = signer tx₂ k) (hMsg : sigMsg tx₁ k = sigMsg tx₂ k)
    (hOpen : AgreeOnOpen tx₁ tx₂ k) : SameEffect env tx₁ tx₂ := by
  rw [sameEffect_iff hPass₁.kind hPass₂.kind]
  intro txid sigTime sig chainActive blockHeight c
  have hParts := parts_eq hAddr hSigner hMsg
  have h₁ := hPass₁.tests
  have h₂ := hPass₂.tests
  cases k with
  | request =>
    obtain ⟨hId, hModel, hMax, hPayment, hFee, hTask, hClass, hPrompt⟩ := hOpen
    have hNumerals := numerals_eq hSigner hMsg hId hModel
    simp only [numerals, String.append_assoc, hMax, hPayment, hFee, hTask, hClass, hPrompt]
      at hNumerals
    obtain ⟨hHash, hRest⟩ := getHex_append_inj hNumerals
    replace hRest := append_left_cancel (append_left_cancel (append_left_cancel
      (append_left_cancel (append_left_cancel hRest))))
    obtain ⟨hSuite, hRest⟩ := getHex_append_inj hRest
    have hCanary := toString_nat_inj (append_left_cancel hRest)
    simp only [signer] at hSigner
    simp only [applyKind, applyRequest, stamped, Env.stamping, hId, hSigner, hModel,
      hHash, hMax, hPayment, hFee, hTask, hClass, hPrompt, hSuite, hCanary]
  | responseCommit =>
    obtain ⟨hId, hNumerals⟩ := hParts rfl rfl
    have hHash := hexStr_inj hNumerals
    simp only [front, signer] at hId hSigner
    simp only [applyKind, applyResponseCommit, stamped, Env.stamping, hId, hHash, hSigner]
  | responseReveal =>
    obtain ⟨hId, hNumerals⟩ := hParts rfl rfl
    simp only [front, signer, numerals, String.append_assoc] at hId hSigner hNumerals
    obtain ⟨hHash, hRest⟩ := getHex_append_inj hNumerals
    obtain ⟨hCommitment, hTokens⟩ := getHex_append_inj hRest
    have hCount := toString_nat_inj hTokens
    simp only [applyKind, applyResponseReveal, revealedResponse, stamped, Env.stamping,
      hId, hHash, hCommitment, hCount, hSigner]
  | stake =>
    obtain ⟨hPayment, hModel, hTier, hRoot, hExperts, hEndpoint⟩ := hOpen
    obtain ⟨_, hNumerals⟩ := hParts rfl rfl
    obtain ⟨hHash, hIndex⟩ := getHex_append_inj hNumerals
    have hCollateral : tx₁.opoiCollateralIn = tx₂.opoiCollateralIn :=
      outPoint_eq hHash (toString_nat_inj hIndex)
    simp only [signer] at hSigner
    simp only [applyKind, applyStake, newStake, stakeSigMsg, stamped, Env.stamping,
      hPayment, hModel, hTier, hRoot, hExperts, hEndpoint, hCollateral, hSigner]
  | unstake =>
    simp only [signer] at hSigner
    simp only [applyKind, applyUnstake, stamped, Env.stamping, hSigner]
  | renew =>
    simp only [signer] at hSigner
    simp only [applyKind, applyRenew, stamped, hSigner]
  | challengeCommit =>
    obtain ⟨hId, hNumerals⟩ := hParts rfl rfl
    simp only [front, signer, numerals, String.append_assoc] at hId hSigner hNumerals
    obtain ⟨hCommit, hRest⟩ := hexStr_append_inj (h₁.2.2.2.trans h₂.2.2.2.symm) hNumerals
    obtain ⟨hHash, hIndex⟩ := getHex_append_inj hRest
    have hCollateral : tx₁.opoiChallengerCollateralIn = tx₂.opoiChallengerCollateralIn :=
      outPoint_eq hHash (toString_nat_inj hIndex)
    simp only [applyKind, applyChallengeCommit, openedChallenge, stamped, Env.stamping,
      hId, hCommit, hCollateral, hSigner]
  | challengeReveal =>
    obtain ⟨hId, _⟩ := hParts rfl rfl
    have hProof : tx₁.opoiProofData = tx₂.opoiProofData := hOpen
    simp only [front] at hId
    have hOutcome : revealOutcome (env.stamping txid) c (tx₁.stamped sigTime sig) =
        revealOutcome (env.stamping txid) c (tx₂.stamped sigTime sig) := by
      simp only [revealOutcome, stamped, hId]
      exact if_congr Iff.rfl rfl rfl
    simp only [applyKind, applyChallengeReveal, hOutcome]
    simp only [revealedChallenge, stamped, Env.stamping, hId, hProof]
  | modelRegister =>
    obtain ⟨hParams, hActive, hLayers, hShards, hExperts, hTopK, hRoots, hReward, hSize⟩ := hOpen
    obtain ⟨hId, hNumerals⟩ := hParts rfl rfl
    have hChars := congrArg String.toList hNumerals
    simp only [front, signer, numerals, String.toList_append] at hId hSigner hChars
    obtain ⟨hArchText, hRootText⟩ := List.append_inj hChars
      ((length_archType h₁.2.2.1).trans (length_archType h₂.2.2.1).symm)
    have hArch := toString_nat_inj (String.toList_inj.mp hArchText)
    have hRoot := Uint256.getHex_inj (String.toList_inj.mp hRootText)
    simp only [applyKind, applyModelRegister, stamped, Env.stamping, hId, hSigner,
      hArch, hRoot, hParams, hActive, hLayers, hShards, hExperts, hTopK, hRoots, hReward, hSize]
  | modelVote =>
    obtain ⟨hId, hNumerals⟩ := hParts rfl rfl
    have hApprove := toString_nat_inj hNumerals
    simp only [front, signer] at hId hSigner
    simp only [applyKind, applyModelVote, stamped, Env.stamping, hId, hApprove, hSigner]
  | coordinatorClaim =>
    obtain ⟨hFront, _⟩ := hParts rfl rfl
    have hId := append_left_cancel hFront
    simp only [signer] at hSigner
    simp only [applyKind, applyCoordinatorClaim, stamped, Env.stamping, hId, hSigner]
  | shardResult =>
    have hShard : tx₁.opoiShardIndex = tx₂.opoiShardIndex := hOpen
    obtain ⟨hFront, hNumerals⟩ := hParts rfl rfl
    simp only [front, signer, numerals, String.append_assoc, hShard] at hFront hSigner hNumerals
    have hId := append_right_cancel (append_left_cancel hFront)
    obtain ⟨hHash, hRest⟩ := getHex_append_inj hNumerals
    obtain ⟨hCommitment, hTokens⟩ := getHex_append_inj hRest
    have hCount := toString_nat_inj hTokens
    simp only [applyKind, applyShardResult, stamped, Env.stamping, hId, hShard, hHash,
      hCommitment, hCount, hSigner]
  | auditorVerify =>
    obtain ⟨hId, hShard, hResult⟩ := hOpen
    have hNumerals := numerals_eq hSigner hMsg rfl hId
    simp only [signer, numerals, String.append_assoc, hShard] at hSigner hNumerals
    obtain ⟨hHash, hRest⟩ := getHex_append_inj hNumerals
    have hCollateral : tx₁.opoiAuditorCollateralIn = tx₂.opoiAuditorCollateralIn :=
      outPoint_eq hHash (toString_nat_inj (append_right_cancel hRest))
    simp only [applyKind, applyAuditorVerify, newVote, stamped, Env.stamping, hId,
      hShard, hResult, hCollateral, hSigner]
    exact if_congr Iff.rfl rfl rfl

theorem votes_on_empty :
    (applyAuditorVerify env blockHeight {} tx).mapAuditorVerifications =
        (if tx.opoiShardIndex = OPOI_AUDITOR_VERIFY_NO_SHARD then
          (∅ : StrMap (List AuditorVerification)).insert tx.opoiRequestId
            [newVote env blockHeight tx] else ∅) ∧
      (applyAuditorVerify env blockHeight {} tx).mapShardAuditorVerifications =
        (if tx.opoiShardIndex = OPOI_AUDITOR_VERIFY_NO_SHARD then ∅
        else (∅ : StrMap (List AuditorVerification)).insert
          (shardKey tx.opoiRequestId tx.opoiShardIndex) [newVote env blockHeight tx]) := by
  unfold applyAuditorVerify
  split
  · obtain ⟨_, _, hEq⟩ := lockVote_eq _ _ _
    rw [addAuditorVerification, hEq]
    exact ⟨rfl, rfl⟩
  · obtain ⟨_, _, hEq⟩ := lockVote_eq _ _ _
    rw [addShardAuditorVerification, hEq]
    exact ⟨rfl, rfl⟩

theorem newVote_eq_of_sameEffect
    (h : applyAuditorVerify env blockHeight {} tx₁ = applyAuditorVerify env blockHeight {} tx₂) :
    newVote env blockHeight tx₁ = newVote env blockHeight tx₂ := by
  have hWhole := congrArg mapAuditorVerifications h
  have hShard := congrArg mapShardAuditorVerifications h
  rw [votes_on_empty.1, votes_on_empty.1] at hWhole
  rw [votes_on_empty.2, votes_on_empty.2] at hShard
  have hNone : ∀ (key : String) (v : AuditorVerification),
      (∅ : StrMap (List AuditorVerification)).insert key [v] ≠ ∅ := by
    intro key v hEq
    have hAt := congrArg (·[key]?) hEq
    simp at hAt
  by_cases h₁ : tx₁.opoiShardIndex = OPOI_AUDITOR_VERIFY_NO_SHARD <;>
    by_cases h₂ : tx₂.opoiShardIndex = OPOI_AUDITOR_VERIFY_NO_SHARD
  · rw [if_pos h₁, if_pos h₂] at hWhole
    exact List.singleton_inj.mp (insert_empty_inj hWhole).2
  · rw [if_pos h₁, if_neg h₂] at hWhole
    exact absurd hWhole (hNone _ _)
  · rw [if_neg h₁, if_pos h₂] at hShard
    exact absurd hShard (hNone _ _)
  · rw [if_neg h₁, if_neg h₂] at hShard
    exact List.singleton_inj.mp (insert_empty_inj hShard).2

/-- A cache shows every open field: the empty one, or one with the challenge of a REVEAL. -/
theorem agreeOnOpen_of_sameEffect (hPass₁ : PassesFields tx₁ env k)
    (hPass₂ : PassesFields tx₂ env k) (hAddr : 't' ∈ (signer tx₁ k).toList)
    (hSigner : signer tx₁ k = signer tx₂ k) (hMsg : sigMsg tx₁ k = sigMsg tx₂ k)
    (hEffect : SameEffect env tx₁ tx₂) : AgreeOnOpen tx₁ tx₂ k := by
  rw [sameEffect_iff hPass₁.kind hPass₂.kind] at hEffect
  have hEmpty := hEffect 0 0 [] [] 0 {}
  cases k with
  | request =>
    have hRecord := (insert_empty_inj (congrArg mapRequests hEmpty)).2
    simp only [OPoIRequest.mk.injEq] at hRecord
    simp only [AgreeOnOpen]
    tauto
  | stake =>
    have hRecord := (insert_empty_inj (congrArg mapStakes hEmpty)).2
    simp only [newStake, OPoIStake.mk.injEq] at hRecord
    simp only [AgreeOnOpen]
    tauto
  | challengeReveal =>
    obtain ⟨hId, _⟩ := parts_eq hAddr hSigner hMsg rfl rfl
    have hEq : tx₁.opoiRequestId = tx₂.opoiRequestId := hId
    let challenges : StrMap OPoIChallenge := (∅ : StrMap OPoIChallenge).insert tx₁.opoiRequestId
      (openedChallenge env 0 tx₁)
    have hFound : challenges[tx₁.opoiRequestId]? = some (openedChallenge env 0 tx₁) := by
      simp [challenges]
    have hRevealed := hEffect 0 0 [] [] 0 { mapChallenges := challenges }
    have hProof := congrArg (fun c => c.mapChallenges[tx₁.opoiRequestId]?.map (·.fraudProof))
      hRevealed
    have hFound₂ : challenges[tx₂.opoiRequestId]? = some (openedChallenge env 0 tx₁) := hEq ▸ hFound
    rw [applyKind, applyKind, applyChallengeReveal_eq _ _ (tx₁.stamped 0 []) hFound,
      applyChallengeReveal_eq _ _ (tx₂.stamped 0 []) hFound₂] at hProof
    simpa [AgreeOnOpen, stamped, revealedChallenge, hEq, hFound₂] using hProof
  | modelRegister =>
    have hRecord := (insert_empty_inj (congrArg mapModelManifests hEmpty)).2
    simp only [ModelManifest.mk.injEq] at hRecord
    simp only [AgreeOnOpen]
    tauto
  | shardResult =>
    have hKey := (insert_empty_inj (congrArg mapShardResults hEmpty)).1
    exact (shardKey_inj hKey).2
  | auditorVerify =>
    have hRecord := newVote_eq_of_sameEffect hEmpty
    simp only [newVote, AuditorVerification.mk.injEq] at hRecord
    tauto
  | responseCommit | responseReveal | unstake | renew | challengeCommit | modelVote
  | coordinatorClaim => trivial

end Fixed

/-! ## Coverage -/

/-- `DecodeDestination` finds a key only in texts that hold a key address, which starts with `t`;
    there may be spaces around it, or a NUL and anything after it. -/
def KeyAddresses (env : Env) : Prop :=
  ∀ (a : String) (hash : Bytes), env.decodeDestination a = .keyID hash → 't' ∈ a.toList

theorem SignedAs.mem_signer {k : MsgKind} (hKeys : KeyAddresses env)
    (h : SignedAs env tx k) : 't' ∈ (signer tx k).toList := by
  unfold SignedAs Env.verifyOPoISig at h
  split at h
  · cases h
  · split at h
    · next hash hDest => exact hKeys _ hash hDest
    · cases h

/-- Two accepted transactions of one kind, signer and message have the same effect exactly when
    they agree on the fields that the signature leaves open. -/
theorem sameEffect_iff_agreeOnOpen (env : Env) (hKeys : KeyAddresses env) (k : MsgKind)
    (tx₁ tx₂ : CTransaction) (hKind₁ : tx₁.msgKind = some k) (hKind₂ : tx₂.msgKind = some k)
    (fIsVerifying₁ fIsVerifying₂ : Bool) (chainActive₁ chainActive₂ : List Uint256)
    (c₁ c₂ : OPoICache)
    (hAccepted₁ : checkOPoITransaction env fIsVerifying₁ chainActive₁ c₁ tx₁ = .ok ())
    (hAccepted₂ : checkOPoITransaction env fIsVerifying₂ chainActive₂ c₂ tx₂ = .ok ())
    (hSigner : signer tx₁ k = signer tx₂ k) (hMsg : sigMsg tx₁ k = sigMsg tx₂ k) :
    SameEffect env tx₁ tx₂ ↔ AgreeOnOpen tx₁ tx₂ k := by
  obtain ⟨hPass₁, hSigned₁⟩ := passes_of_accepted hKind₁ hAccepted₁
  obtain ⟨hPass₂, _⟩ := passes_of_accepted hKind₂ hAccepted₂
  have hAddr := hSigned₁.mem_signer hKeys
  exact ⟨agreeOnOpen_of_sameEffect hPass₁ hPass₂ hAddr hSigner hMsg,
    sameEffect_of_agreeOnOpen hPass₁ hPass₂ hAddr hSigner hMsg⟩

def addressEnv : Env :=
  { sampleEnv feeParams with
    decodeDestination := fun a =>
      if 't' ∈ a.toList then .keyID (strBytes a) else .noDestination
    treasuryAddress := "t1TreasuryTreasuryTreasuryTreasuryT"
    treasury_valid := by decide +kernel }

theorem keyAddresses_addressEnv : KeyAddresses addressEnv := by
  intro a hash h
  by_contra hNot
  have hNone : addressEnv.decodeDestination a = .noDestination := if_neg hNot
  rw [hNone] at h
  cases h

/-- Two UNSTAKEs of a miner do the same. -/
theorem sameEffect_of_unstakes :
    SameEffect addressEnv (sampleUnstake minerAddress 1) (sampleUnstake minerAddress 2) :=
  (sameEffect_iff_agreeOnOpen addressEnv keyAddresses_addressEnv .unstake
    (sampleUnstake minerAddress 1) (sampleUnstake minerAddress 2) rfl rfl true true [] [] {} {}
    (by decide +kernel) (by decide +kernel) rfl rfl).mpr trivial

def minerVerdict (result : Nat) : CTransaction := sampleVote "q" minerAddress ⟨7, 0⟩ 1 result

def verifiableCache : OPoICache := applyRequest addressEnv 1 {} (sampleRequest "q" "alice" 1 1)

/-- A relay turns the PASS of an auditor into a FAIL: the verdict is not signed. -/
theorem not_sameEffect_of_verdicts :
    checkOPoITransaction addressEnv false [] verifiableCache (minerVerdict AUDITOR_VERIFY_PASS) =
        .ok () ∧
      checkOPoITransaction addressEnv false [] verifiableCache (minerVerdict AUDITOR_VERIFY_FAIL) =
        .ok () ∧
      signer (minerVerdict AUDITOR_VERIFY_PASS) .auditorVerify =
        signer (minerVerdict AUDITOR_VERIFY_FAIL) .auditorVerify ∧
      sigMsg (minerVerdict AUDITOR_VERIFY_PASS) .auditorVerify =
        sigMsg (minerVerdict AUDITOR_VERIFY_FAIL) .auditorVerify ∧
      ¬SameEffect addressEnv (minerVerdict AUDITOR_VERIFY_PASS)
        (minerVerdict AUDITOR_VERIFY_FAIL) := by
  refine ⟨by decide +kernel, by decide +kernel, rfl, rfl, fun hEffect => ?_⟩
  have hVotes := (sameEffect_iff (k := .auditorVerify) rfl rfl).mp hEffect 0 0 [] [] 0 {}
  have hResult := congrArg AuditorVerification.result (newVote_eq_of_sameEffect hVotes)
  exact absurd hResult (by decide)

end CloudService
