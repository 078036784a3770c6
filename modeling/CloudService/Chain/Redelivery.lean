/-
  A peer that delivers a transaction of the chain once more. A rejection without a score is
  harmless for the peer.
-/

import CloudService.Chain.TakesEffect

namespace CloudService

/-- A peer is not punished for a transaction with this result. -/
def unpunished : Checked Unit → Bool
  | .ok _ => true
  | .error r => r.nDoS == 0

section Known

variable (env : Env) (chainActive : List Uint256) (c : OPoICache) (tx : CTransaction)

def freeOrOwn (out : COutPoint) : Bool :=
  !c.isLockedUTXO out || c.isHarmlessRedelivery out (env.getHash tx)

/-- The cache has what the checks of a transaction from an earlier block look for. -/
def stillKnown : Bool :=
  let req := c.mapRequests[tx.opoiRequestId]?
  match tx.opoiType with
  | .request => req.any (·.txHash == env.getHash tx)
  | .response =>
    c.isActiveStaker tx.opoiMinerAddress &&
      req.all (fun r => !r.isExpired && servesModel c tx.opoiMinerAddress r) &&
      (tx.opoiResponsePhase != 0 || req.all (!·.commitWindowClosed) ||
        c.isHarmlessResponseCommitRedelivery tx.opoiRequestId tx.opoiMinerAddress (env.getHash tx))
  | .stake => freeOrOwn env c tx tx.opoiCollateralIn
  | .unstake => c.isActiveStaker tx.opoiMinerAddress ||
      c.isHarmlessUnstakeRedelivery tx.opoiMinerAddress (env.getHash tx)
  | .renew => (c.mapStakes[tx.opoiMinerAddress]?).any fun s =>
      s.stakeStatus == .active || s.stakeStatus == .suspended
  | .challenge =>
    if tx.opoiChallengePhase = 0 then
      if c.isLockedUTXO tx.opoiChallengerCollateralIn then
        c.isHarmlessRedelivery tx.opoiChallengerCollateralIn (env.getHash tx)
      else !(c.mapChallenges[tx.opoiRequestId]?).any (·.isOpen)
    else (c.mapChallenges[tx.opoiRequestId]?).any fun ch =>
      if ch.isOpen then ch.challengerAddress == tx.opoiRequester &&
        ch.commitHash == hexStr (env.sha256 (tx.opoiProofData ++ tx.opoiChallengeNonce))
      else ch.revealTxHash == env.getHash tx
  | .modelRegister => (c.mapModelManifests[tx.opoiModelId]?).any (·.txHash == env.getHash tx)
  | .modelVote =>
    c.isHarmlessModelVoteRedelivery tx.opoiModelId tx.opoiRequester (env.getHash tx) ||
      ((c.mapModelManifests[tx.opoiModelId]?).any (·.isVoting) && c.isActiveStaker tx.opoiRequester)
  | .coordinatorClaim => c.isActiveStaker tx.opoiMinerAddress
  | .shardResult =>
    c.isActiveStaker tx.opoiMinerAddress &&
      eligible env chainActive c tx.opoiMinerAddress tx.opoiRequestId
        ("SHARD" ++ toString tx.opoiShardIndex) tx.opoiVrfProof env.params.nOPoIShardThreshold &&
      (req.bind fun r => c.activeManifest r.model).all (shardFits env c tx)
  | .auditorVerify =>
    req.all (fun r => if tx.opoiShardIndex = OPOI_AUDITOR_VERIFY_NO_SHARD then
        r.isVerifiable || (c.mapResponses[tx.opoiRequestId]?).any (·.auditSelected)
      else (c.activeManifest r.model).any (auditedShardFits env c tx)) &&
      freeOrOwn env c tx tx.opoiAuditorCollateralIn
  | .unknown => true

structure Connected : Prop where
  fields : fieldChecks env tx = .ok ()
  accepted : ∃ c₀, standing env c₀ tx = true ∧ Persists c₀ c
  record : isReplayable tx = false → tx.opoiType ≠ .renew → tx.opoiType ≠ .unknown →
    onRecord c tx = true

end Known

section Spec

variable {env : Env} {chainActive : List Uint256} {c c' : OPoICache} {tx : CTransaction}

/-! ## Scores -/

@[simp] theorem unpunished_ok : unpunished (.ok ()) = true := rfl

@[simp] theorem unpunished_ok_bind {f : Unit → Checked Unit} :
    unpunished (.ok () >>= f) = unpunished (f ()) := rfl

@[simp] theorem unpunished_error_bind {r : Reject} {f : Unit → Checked Unit} :
    unpunished (.error r >>= f) = (r.nDoS == 0) := rfl

@[simp] theorem unpunished_rejectIf {b : Bool} {r : Reject} :
    unpunished (rejectIf b r) = (!b || r.nDoS == 0) := by
  cases b <;> rfl

@[simp] theorem unpunished_rejectIf_bind {b : Bool} {r : Reject} {f : Unit → Checked Unit} :
    unpunished (rejectIf b r >>= f) = if b then r.nDoS == 0 else unpunished (f ()) := by
  cases b <;> rfl

theorem unpunished_unlocked_bind {out : COutPoint} {known locked : String}
    {f : Unit → Checked Unit} :
    unpunished (requireUnlocked env false c tx out known locked >>= f) =
      if c.isLockedUTXO out then c.isHarmlessRedelivery out (env.getHash tx)
      else unpunished (f ()) := by
  rw [requireUnlocked, bind_assoc]
  cases c.isLockedUTXO out with
  | false => simp
  | true => cases c.isHarmlessRedelivery out (env.getHash tx) <;> simp [dos, alreadyKnown]

theorem unpunished_bind {x : Checked Unit} {b : Bool} {f : Unit → Checked Unit}
    (hOk : x = .ok () ↔ b = true) (hScore : unpunished x = true → x = .ok ()) :
    unpunished (x >>= f) = (b && unpunished (f ())) := by
  cases x with
  | ok _ =>
    rw [hOk.mp rfl, Bool.true_and]
    rfl
  | error r =>
    have hb : b = false := Bool.eq_false_iff.mpr fun hb => nomatch hOk.mpr hb
    rw [hb, Bool.false_and]
    exact Bool.eq_false_iff.mpr fun hNone => nomatch hScore hNone

theorem unpunished_sortition_bind {minerAddress requestId seedSuffix reasonPrefix : String}
    {vrfProof : Bytes} {threshold : Nat} {f : Unit → Checked Unit} :
    unpunished (requireSortition env chainActive c minerAddress requestId seedSuffix vrfProof
        threshold reasonPrefix >>= f) =
      (eligible env chainActive c minerAddress requestId seedSuffix vrfProof threshold &&
        unpunished (f ())) := by
  refine unpunished_bind requireSortition_eq_ok fun hNone => ?_
  unfold requireSortition at hNone ⊢
  split at hNone
  · cases hNone
  · split at hNone
    · rfl
    · rename_i reason _
      -- Both scores of the sortition are positive.
      have hScore : (if reason = "vrf-invalid" then 100 else 10) ≠ 0 := by
        split <;> decide
      exact absurd (beq_iff_eq.mp hNone) hScore

/-! ## The larger checks -/

theorem unpunished_checkResponse (hType : tx.opoiType = .response)
    (h : checkResponse env true [] {} tx = .ok ())
    (hReveal : tx.opoiResponsePhase ≠ 0 → (c.mapRequests[tx.opoiRequestId]?).any (fun r =>
      r.commitWindowClosed && r.responseReveals.contains tx.opoiMinerAddress) = true) :
    unpunished (checkResponse env false chainActive c tx) = stillKnown env chainActive c tx := by
  simp only [checkResponse, check_bind_eq_ok, rejectIf_eq_ok] at h
  rw [Bool.eq_iff_iff]
  by_cases hPhase : tx.opoiResponsePhase = 0
  · simp only [hPhase, if_true, checkResponseCommit, check_bind_eq_ok, rejectIf_eq_ok] at h
    cases hReq : c.mapRequests[tx.opoiRequestId]? with
    | none => simp [stillKnown, hType, checkResponse, checkResponseCommit, h, hPhase, hReq, dos,
        alreadyKnown]
    | some r =>
      simp [stillKnown, hType, servesModel, checkResponse, checkResponseCommit, h, hPhase,
        hReq, dos, alreadyKnown]
      tauto
  · simp only [hPhase, if_false, checkResponseReveal, check_bind_eq_ok, rejectIf_eq_ok] at h
    have hKnown := hReveal hPhase
    cases hReq : c.mapRequests[tx.opoiRequestId]? with
    | none => simp [hReq] at hKnown
    | some r =>
      simp only [hReq, Option.any_some, Bool.and_eq_true] at hKnown
      simp [stillKnown, hType, servesModel, checkResponse, checkResponseReveal, h, hPhase, hKnown,
        hReq, dos, alreadyKnown]

theorem unpunished_checkChallenge (hType : tx.opoiType = .challenge)
    (h : checkChallenge env true {} tx = .ok ())
    (hResponse : (c.mapResponses[tx.opoiRequestId]?).isSome = true) :
    unpunished (checkChallenge env false c tx) = stillKnown env chainActive c tx := by
  obtain ⟨resp, hResp⟩ := Option.isSome_iff_exists.mp hResponse
  simp only [checkChallenge, check_bind_eq_ok, rejectIf_eq_ok] at h
  unfold checkChallenge
  simp only [stillKnown, hType]
  by_cases hPhase : tx.opoiChallengePhase = 0
  · simp only [hPhase, if_true, checkChallengeCommit, check_bind_eq_ok, rejectIf_eq_ok] at h
    simp [checkChallengeCommit, unpunished_unlocked_bind, h, hPhase, hResp, dos]
  · simp only [hPhase, if_false, checkChallengeReveal, check_bind_eq_ok, rejectIf_eq_ok] at h
    cases hCh : c.mapChallenges[tx.opoiRequestId]? with
    | none => simp [checkChallengeReveal, h, hPhase, hResp, hCh, dos]
    | some ch =>
      rw [Bool.eq_iff_iff]
      cases hOpen : ch.isOpen with
      | false => simp [checkChallengeReveal, h, hPhase, hResp, hCh, hOpen, dos, alreadyKnown]
      | true => simp [checkChallengeReveal, h, hPhase, hResp, hCh, hOpen, dos]

theorem unpunished_checkShardResult (hType : tx.opoiType = .shardResult)
    (h : checkShardResult env true [] {} tx = .ok ())
    (hRequest : (c.mapRequests[tx.opoiRequestId]?).isSome = true) :
    unpunished (checkShardResult env false chainActive c tx) = stillKnown env chainActive c tx := by
  obtain ⟨req, hReq⟩ := Option.isSome_iff_exists.mp hRequest
  simp only [checkShardResult, check_bind_eq_ok, rejectIf_eq_ok] at h
  unfold checkShardResult
  simp only [stillKnown, hType]
  cases hManifest : c.activeManifest req.model with
  | none => simp [h, hReq, hManifest, unlessVerifying, unpunished_sortition_bind, dos]
  | some m =>
    have hFits : ∀ f, unpunished (checkShardOfManifest env c tx m >>= f) =
        (shardFits env c tx m && unpunished (f ())) := fun f => by
      refine unpunished_bind checkShardOfManifest_iff fun hNone => ?_
      unfold checkShardOfManifest at hNone ⊢
      split at hNone
      · cases hNone
      · simpa [check_bind_eq_ok, dos, imp_iff_not_or] using hNone
    simp [h, hReq, hManifest, unlessVerifying, unpunished_sortition_bind, hFits,
      Bool.and_assoc, dos]

theorem unpunished_checkAuditorVerify (hType : tx.opoiType = .auditorVerify)
    (h : checkAuditorVerify env true {} tx = .ok ())
    (hRequest : (c.mapRequests[tx.opoiRequestId]?).isSome = true) :
    unpunished (checkAuditorVerify env false c tx) = stillKnown env chainActive c tx := by
  obtain ⟨req, hReq⟩ := Option.isSome_iff_exists.mp hRequest
  simp only [checkAuditorVerify, check_bind_eq_ok, rejectIf_eq_ok] at h
  unfold checkAuditorVerify checkAuditorScope
  simp only [stillKnown, hType, freeOrOwn]
  by_cases hWhole : tx.opoiShardIndex = OPOI_AUDITOR_VERIFY_NO_SHARD
  · simp [h, hReq, hWhole, unlessVerifying, unpunished_unlocked_bind, dos]
  · cases hManifest : c.activeManifest req.model with
    | none => simp [h, hReq, hWhole, hManifest, unlessVerifying, dos]
    | some m =>
      simp [h, hReq, hWhole, hManifest, unlessVerifying, unpunished_unlocked_bind,
        auditedShardFits, dos]

/-! ## Runs -/

theorem Connected.keep (h : Connected env c tx) (hKeep : Persists c c') : Connected env c' tx := by
  obtain ⟨c₀, hStanding, hKept⟩ := h.accepted
  exact ⟨h.fields, ⟨c₀, hStanding, hKept.trans hKeep⟩, fun hLasting hRenew hKnown =>
    hKeep.onRecord (h.record hLasting hRenew hKnown)⟩

theorem connected_of_block {node node' : NodeState} {block : CBlock}
    (hTip : connectTip env node block = .ok node') (hMem : tx ∈ block.vtx)
    (hOPoI : tx.isOPoITx = true) : Connected env node'.cache tx := by
  obtain ⟨hBlock, _, _⟩ := connectTip_cache hTip
  have hTx := hBlock.txs tx hMem
  obtain ⟨hFields, hStanding, _⟩ := (checkOPoITransaction_iff hOPoI).mp hTx.checked
  refine ⟨hFields, ⟨node.cache, hStanding, persists_of_connectTip hTip⟩,
    fun hLasting hRenew hKnown => ?_⟩
  exact (persists_of_afterTxs hTip (hTx.active hOPoI)).onRecord
    (onRecord_afterTxs hBlock (mem_opoiTxs.mpr ⟨hMem, hOPoI⟩) hLasting hRenew hKnown)

theorem Connected.isSome_request (h : Connected env c tx)
    (hType : tx.opoiType = .coordinatorClaim ∨ tx.opoiType = .shardResult ∨
      tx.opoiType = .auditorVerify) : (c.mapRequests[tx.opoiRequestId]?).isSome = true := by
  obtain ⟨c₀, hStanding, hKept⟩ := h.accepted
  have hOld : (c₀.mapRequests[tx.opoiRequestId]?).isSome = true := by
    rcases hType with hType | hType | hType
    · simpa [standing, hType] using hStanding
    · simpa [standing, hType] using hStanding
    · simp only [standing, hType] at hStanding
      exact Option.isSome_of_any hStanding
  obtain ⟨req, hReq⟩ := Option.isSome_iff_exists.mp hOld
  obtain ⟨req', hReq', _⟩ := hKept.requests _ req hReq
  simp [hReq']

theorem Connected.revealed (h : Connected env c tx) (hType : tx.opoiType = .response)
    (hPhase : tx.opoiResponsePhase ≠ 0) : (c.mapRequests[tx.opoiRequestId]?).any (fun r =>
      r.commitWindowClosed && r.responseReveals.contains tx.opoiMinerAddress) = true := by
  obtain ⟨c₀, hStanding, hKept⟩ := h.accepted
  have hRecord := h.record (by simp [isReplayable, hType, hPhase]) (by simp [hType])
    (by simp [hType])
  simp only [onRecord, hType, hasRevealed] at hRecord
  simp only [standing, hType, hPhase, if_false, Bool.and_eq_true] at hStanding
  -- The window of the request was closed when the REVEAL was accepted, and stays closed.
  cases hOld : c₀.mapRequests[tx.opoiRequestId]? with
  | none => simp [hOld] at hStanding
  | some req =>
    obtain ⟨req', hReq, hEvolves⟩ := hKept.requests _ req hOld
    simp only [hOld, Option.any_some, Bool.and_eq_true] at hStanding
    rw [hReq, Option.any_some] at hRecord ⊢
    rw [hEvolves.closed hStanding.1.2, hRecord, Bool.and_self]

theorem Connected.unpunished_check (h : Connected env c tx) (hOPoI : tx.isOPoITx = true) :
    unpunished (checkOPoITransaction env false chainActive c tx) =
      stillKnown env chainActive c tx := by
  have hVersion := tx.nVersion_of_isOPoITx hOPoI
  have hFields := h.fields
  unfold fieldChecks checkOPoITransaction at hFields
  simp only [hVersion, ne_eq, not_true_eq_false, if_false, check_bind_eq_ok, rejectIf_eq_ok]
    at hFields
  obtain ⟨hEmpty, hBranch⟩ := hFields
  unfold checkOPoITransaction
  simp only [hVersion, ne_eq, not_true_eq_false, if_false, unpunished_rejectIf_bind, hEmpty,
    Bool.false_eq_true]
  cases hType : tx.opoiType <;> simp only [hType] at hBranch
  case request =>
    have hRecord : (c.mapRequests[tx.opoiRequestId]?).isSome = true := by
      simpa [isReplayable, onRecord, hType] using h.record
    obtain ⟨req, hReq⟩ := Option.isSome_iff_exists.mp hRecord
    simp only [checkRequest, check_bind_eq_ok, rejectIf_eq_ok] at hBranch
    rw [Bool.eq_iff_iff]
    simp [stillKnown, hType, checkRequest, hReq, hBranch, dos, alreadyKnown]
  case response => exact unpunished_checkResponse hType hBranch (h.revealed hType)
  case stake =>
    simp only [checkStake, check_bind_eq_ok, rejectIf_eq_ok] at hBranch
    simp [stillKnown, hType, checkStake, unpunished_unlocked_bind, freeOrOwn, hBranch]
  case unstake =>
    simp only [checkUnstake, check_bind_eq_ok, rejectIf_eq_ok] at hBranch
    cases hActive : c.isActiveStaker tx.opoiMinerAddress <;>
      simp [stillKnown, hType, checkUnstake, hBranch, hActive, dos, alreadyKnown]
  case renew =>
    simp only [checkRenew, check_bind_eq_ok, rejectIf_eq_ok] at hBranch
    simp [stillKnown, hType, checkRenew, hBranch, dos]
  case challenge =>
    obtain ⟨c₀, hStanding, hKept⟩ := h.accepted
    have hResponse := hKept.responses tx.opoiRequestId
    simp only [Std.ExtTreeMap.contains_eq_isSome_getElem?] at hResponse
    simp only [standing, hType, Bool.and_eq_true] at hStanding
    exact unpunished_checkChallenge hType hBranch (hResponse hStanding.1)
  case modelRegister =>
    have hRecord : (c.mapModelManifests[tx.opoiModelId]?).isSome = true := by
      simpa [isReplayable, onRecord, hType] using h.record
    obtain ⟨m, hm⟩ := Option.isSome_iff_exists.mp hRecord
    simp only [checkModelRegister, check_bind_eq_ok, rejectIf_eq_ok] at hBranch
    rw [Bool.eq_iff_iff]
    simp [stillKnown, hType, checkModelRegister, hm, hBranch, dos, alreadyKnown]
  case modelVote =>
    simp only [checkModelVote, check_bind_eq_ok, rejectIf_eq_ok] at hBranch
    cases hModel : c.mapModelManifests[tx.opoiModelId]? <;>
      simp [stillKnown, hType, checkModelVote, hBranch, hModel, dos, alreadyKnown]
  case coordinatorClaim =>
    have hRecord : c.isClaimedCoordinator tx.opoiRequestId tx.opoiMinerAddress = true := by
      simpa [isReplayable, onRecord, hType] using h.record
    obtain ⟨req, hReq⟩ := Option.isSome_iff_exists.mp (h.isSome_request (.inl hType))
    simp only [checkCoordinatorClaim, check_bind_eq_ok, rejectIf_eq_ok] at hBranch
    simp [stillKnown, hType, checkCoordinatorClaim, hBranch, hReq, hRecord, unlessVerifying, dos]
  case shardResult =>
    exact unpunished_checkShardResult hType hBranch (h.isSome_request (.inr (.inl hType)))
  case auditorVerify =>
    exact unpunished_checkAuditorVerify hType hBranch (h.isSome_request (.inr (.inr hType)))
  case unknown => cases hBranch

/-- In every state of a forward run, a transaction of a connected block that is delivered again
    is accepted or rejected without a score exactly when the cache still knows it. -/
theorem redelivery_unpunished_iff (env : Env) (blocks : List CBlock) (node : NodeState)
    (hRun : PlainRun env blocks node) (tx : CTransaction)
    (hMem : ∃ block ∈ blocks, tx ∈ block.vtx) (hOPoI : tx.isOPoITx = true) :
    unpunished (checkOPoITransaction env false node.chainActive node.cache tx) = true ↔
      stillKnown env node.chainActive node.cache tx = true := by
  have hConnected := hRun.invariant_trace
    (fun past node => ∀ e ∈ past, tx ∈ e.2.vtx → Connected env node.cache tx)
    (fun past s block t h _ hTip e he hTx => by
      rcases List.mem_append.mp he with hPast | hNow
      · exact (h e hPast hTx).keep (persists_of_connectTip hTip)
      · rw [List.mem_singleton.mp hNow] at hTx
        exact connected_of_block hTip hTx hOPoI)
    [] (by simp)
  obtain ⟨block, hBlock, hTx⟩ := hMem
  rw [← hRun.map_snd_trace] at hBlock
  obtain ⟨e, he, rfl⟩ := List.mem_map.mp hBlock
  rw [(hConnected e he hTx).unpunished_check hOPoI]

end Spec

def sampleCommitter (blocks : List CBlock) : List CBlock := sampleStaked
  [sampleBlock 4 [sampleRequest "r" "alice" 2 1],
   sampleBlock 5 [sampleResponseCommit "r" sampleMiner 3]] ++ blocks

/-- The COMMIT is recognised in the next block. -/
theorem redelivery_unpunished_of_commit : ∃ node,
    PlainRun sampleNet (sampleCommitter [sampleBlock 6 []]) node ∧
    unpunished (checkOPoITransaction sampleNet false node.chainActive node.cache
      (sampleResponseCommit "r" sampleMiner 3)) = true := by
  exact Run.exists_steps_imp .other (fun node => stillKnown sampleNet
      node.chainActive node.cache (sampleResponseCommit "r" sampleMiner 3) = true)
    (by decide +kernel) fun node hRun hKnown => (redelivery_unpunished_iff _ _ node hRun _
      ⟨sampleBlock 5 [sampleResponseCommit "r" sampleMiner 3],
        by simp [sampleCommitter, sampleStaked],
        by simp [sampleBlock]⟩ rfl).mpr hKnown

/-- The staker unstakes. The test of the stake comes first, so the COMMIT is rejected with a score
    of 10. -/
theorem redelivery_punished_of_unstake : ∃ node,
    PlainRun sampleNet
      (sampleCommitter [sampleBlock 6 [sampleUnstake sampleMiner 4]]) node ∧
    checkOPoITransaction sampleNet false node.chainActive node.cache
      (sampleResponseCommit "r" sampleMiner 3) = .error (dos 10
        "bad-txns-opoi-miner-not-staked") := by
  exact Run.exists_steps .other (by decide +kernel)

end CloudService
