/-
  When `ProcessOPoITransaction` with `fUndo` takes a transaction back: exactly if the apply
  branch found nothing to replace.
-/

import CloudService.OPoI.Consensus

namespace CloudService

open OPoICache TreeMap OPoIStake

/-- The states in which a RESPONSE COMMIT can be undone: the miner has no commit yet. -/
def undoableResponseCommit (c : OPoICache) (tx : CTransaction) : Bool :=
  let key := commitKey tx.opoiRequestId tx.opoiMinerAddress
  ((c.mapRequests[tx.opoiRequestId]?).all fun r =>
      (r.responseCommits[tx.opoiMinerAddress]?).isNone) &&
    (c.mapResponseCommits[key]?).isNone && (c.mapResponseCommitTxHash[key]?).isNone &&
    (c.mapResponseCommitHeight[key]?).isNone

/-- The first one for a PENDING unpaid request, and the counter of the miner does not wrap. -/
def undoableResponseReveal (c : OPoICache) (tx : CTransaction) : Bool :=
  ((c.mapRequests[tx.opoiRequestId]?).all fun r =>
      r.status == .pending && (r.responseReveals[tx.opoiMinerAddress]?).isNone) &&
    (c.mapResponses[tx.opoiRequestId]?).isNone &&
    ((c.mapStakes[tx.opoiMinerAddress]?).all fun s => decide (s.responsesTotal + 1 < 2 ^ 32)) &&
    !c.isResponsePaid tx.opoiRequestId

/-- No stake answers for the request; the first commit for it, on a free outpoint. -/
def undoableChallengeCommit (c : OPoICache) (tx : CTransaction) : Bool :=
  (rewardStake c tx.opoiRequestId).isNone && (c.mapChallenges[tx.opoiRequestId]?).isNone &&
    (c.mapLockedUTXOs[tx.opoiChallengerCollateralIn]?).isNone

/-- A proven challenge finds no stake and no mark. What is unlocked, the challenger had locked. -/
def undoableOutcome (env : Env) (c : OPoICache) (tx : CTransaction) (ch : OPoIChallenge) : Bool :=
  let locked := c.mapLockedUTXOs[ch.challengerCollateral]? == some ch.challengerAddress
  match revealOutcome env c tx with
  | .slashed => (rewardStake c tx.opoiRequestId).isNone && locked &&
      !c.isChallengerRewardPaid tx.opoiRequestId
  | .resolvedNoOracle => locked
  | _ => true

def undoableChallengeReveal (env : Env) (c : OPoICache) (tx : CTransaction) : Bool :=
  (c.mapChallenges[tx.opoiRequestId]?).all fun ch =>
    ch.phase == 0 && ch.fraudProof == [] && ch.challengeStatus == .opened &&
      ch.revealTxHash == (0 : Uint256) && undoableOutcome env c tx ch

/-- A MODEL_VOTE: the voter has not voted, and there is a vote list if the vote counts. -/
def undoableModelVote (c : OPoICache) (tx : CTransaction) : Bool :=
  let votes := c.mapModelVotes[tx.opoiModelId]?
  (!c.mapModelManifests.contains tx.opoiModelId || votes.isSome) &&
    votes.all fun v => (v[tx.opoiRequester]?).isNone

/-- An unresolved vote list without this auditor, and a free outpoint. -/
def undoableAuditorVerify (c : OPoICache) (tx : CTransaction) : Bool :=
  let fresh (votes : Option (List AuditorVerification)) : Bool :=
    votes.any fun verifs => verifs.all (·.auditorAddress != tx.opoiAuditorAddress)
  (c.mapLockedUTXOs[tx.opoiAuditorCollateralIn]?).isNone &&
    if tx.opoiShardIndex = OPOI_AUDITOR_VERIFY_NO_SHARD then
      fresh c.mapAuditorVerifications[tx.opoiRequestId]? && !c.isAuditorResolved tx.opoiRequestId
    else
      fresh c.mapShardAuditorVerifications[ shardKey tx.opoiRequestId tx.opoiShardIndex]? &&
        !c.isShardAuditorResolved tx.opoiRequestId tx.opoiShardIndex

def undoable (env : Env) (blockHeight : Nat) (c : OPoICache) (tx : CTransaction) : Bool :=
  match tx.opoiType with
  | .request => (c.mapRequests[tx.opoiRequestId]?).isNone
  | .response =>
    if tx.opoiResponsePhase = 0 then undoableResponseCommit c tx else undoableResponseReveal c tx
  | .stake => (c.mapStakes[tx.opoiMinerAddress]?).isNone &&
      (c.mapLockedUTXOs[tx.opoiCollateralIn]?).isNone
  | .unstake => (c.mapStakes[tx.opoiMinerAddress]?).all fun s =>
      s.isActive && s.unstakeHeight == 0 && s.unstakeTxHash == 0
  | .renew => (c.mapStakes[tx.opoiMinerAddress]?).all fun s =>
      s.isActive && s.lastRenewalHeight == blockHeight && s.canaryStrikes == 0
  | .challenge =>
    if tx.opoiChallengePhase = 0 then undoableChallengeCommit c tx
    else undoableChallengeReveal env c tx
  | .modelRegister => (c.mapModelManifests[tx.opoiModelId]?).isNone &&
      (c.mapModelVotes[tx.opoiModelId]?).isNone
  | .modelVote => undoableModelVote c tx
  | .coordinatorClaim => (c.mapCoordinatorClaims[tx.opoiRequestId]?).any fun claims =>
      claims.all (·.minerAddress != tx.opoiMinerAddress)
  | .shardResult =>
    ((c.mapShardResults[shardKey tx.opoiRequestId tx.opoiShardIndex]?).any fun subs =>
      subs.all (·.minerAddress != tx.opoiMinerAddress)) &&
      !c.isShardPaid tx.opoiRequestId tx.opoiShardIndex
  | .auditorVerify => undoableAuditorVerify c tx
  | .unknown => true

section Inverse

variable (env : Env) (chainActive : List Uint256) (blockHeight : Nat) (c : OPoICache)
  (tx : CTransaction)

/-! ## Requests and responses -/

theorem undo_applyRequest :
    (undoRequest (applyRequest env blockHeight c tx) tx).consensus = c.consensus ↔
      c.mapRequests[tx.opoiRequestId]? = none := by
  simp [undoRequest, applyRequest, addRequest, consensus]

theorem undo_applyResponseCommit :
    (undoResponseCommit (applyResponseCommit env blockHeight c tx) tx).consensus = c.consensus ↔
      undoableResponseCommit c tx = true := by
  have hRequest : ∀ r : OPoIRequest, { r with
      responseCommits := r.responseCommits.erase tx.opoiMinerAddress } = r ↔
      r.responseCommits[tx.opoiMinerAddress]? = none := by
    intro r
    rw [← erase_eq_self_iff]
    cases r
    simp
  simp [undoResponseCommit, applyResponseCommit, addResponseCommit,
    modifyRequest, consensus, hRequest, undoableResponseCommit, Option.all_eq_true, and_assoc]

theorem responsesTotal_restored (s : OPoIStake) :
    (if 0 < u32 (s.responsesTotal + 1) then
        { s with responsesTotal := u32 (s.responsesTotal + 1) - 1 }
      else { s with responsesTotal := u32 (s.responsesTotal + 1) }) = s ↔
      s.responsesTotal + 1 < 2 ^ 32 := by
  have hEq : ∀ n, { s with responsesTotal := n } = s ↔ n = s.responsesTotal := by
    intro n
    cases s
    simp
  unfold u32
  split
  · rw [hEq]
    omega
  · rw [hEq]
    omega

theorem undo_applyResponseReveal :
    (undoResponseReveal (applyResponseReveal env chainActive blockHeight c tx) tx).consensus =
      c.consensus ↔ undoableResponseReveal c tx = true := by
  have hRequest : ∀ r : OPoIRequest, { r with
      status := .pending
      responseReveals := r.responseReveals.erase tx.opoiMinerAddress } = r ↔
      r.status = .pending ∧ r.responseReveals[tx.opoiMinerAddress]? = none := by
    intro r
    rw [← erase_eq_self_iff]
    cases r
    simp [eq_comm]
  simp [undoResponseReveal, applyResponseReveal, addResponse, revealedResponse,
    unmarkResponsePaid, modifyRequest, modifyStake,
    consensus, isResponsePaid, hRequest, responsesTotal_restored,
    undoableResponseReveal, Option.all_eq_true, and_assoc]

/-! ## Stakes -/

theorem undo_applyStake :
    (undoStake (applyStake env blockHeight c tx) tx).consensus = c.consensus ↔
      c.mapStakes[tx.opoiMinerAddress]? = none ∧ c.mapLockedUTXOs[tx.opoiCollateralIn]? = none := by
  simp [undoStake, applyStake, addStake, newStake, lockUTXO, unlockUTXO, consensus]

theorem undo_applyUnstake :
    (undoUnstake (applyUnstake env blockHeight c tx) tx).consensus = c.consensus ↔
      ∀ s, c.mapStakes[tx.opoiMinerAddress]? = some s →
        s.isActive = true ∧ s.unstakeHeight = 0 ∧ s.unstakeTxHash = 0 := by
  have hStake : ∀ s : OPoIStake, { (if s.isActive then
      { s with
        stakeStatus := .unstaking, unstakeHeight := blockHeight, unstakeTxHash := env.getHash tx }
      else s) with stakeStatus := .active, unstakeHeight := 0, unstakeTxHash := 0 } = s ↔
      s.isActive = true ∧ s.unstakeHeight = 0 ∧ s.unstakeTxHash = 0 := by
    intro s
    have hEq : { s with stakeStatus := .active, unstakeHeight := 0, unstakeTxHash := 0 } = s ↔
        s.isActive = true ∧ s.unstakeHeight = 0 ∧ s.unstakeTxHash = 0 := by
      constructor
      · intro hSame
        rw [← hSame]
        exact ⟨rfl, rfl, rfl⟩
      · rintro ⟨hActive, hHeight, hHash⟩
        simp only [isActive, beq_iff_eq] at hActive
        rw [← hActive, ← hHeight, ← hHash]
    split
    · exact hEq
    · exact hEq
  simp only [undoUnstake, applyUnstake, startUnstake_eq, modifyStake,
    consensus, modify_modify, OPoICache.mk.injEq, and_true, true_and, modify_eq_self_iff, hStake]

theorem undo_applyRenew :
    (applyRenew blockHeight c tx).consensus = c.consensus ↔
      ∀ s, c.mapStakes[tx.opoiMinerAddress]? = some s →
        s.isActive = true ∧ s.lastRenewalHeight = blockHeight ∧ s.canaryStrikes = 0 := by
  have hStake : ∀ s : OPoIStake, { s with
      lastRenewalHeight := blockHeight, canaryStrikes := 0, stakeStatus := .active } = s ↔
      s.isActive = true ∧ s.lastRenewalHeight = blockHeight ∧ s.canaryStrikes = 0 := by
    intro s
    constructor
    · intro hSame
      rw [← hSame]
      exact ⟨rfl, rfl, rfl⟩
    · rintro ⟨hActive, hHeight, hStrikes⟩
      simp only [isActive, beq_iff_eq] at hActive
      rw [← hActive, ← hHeight, ← hStrikes]
  simp [applyRenew, modifyStake, consensus, hStake]

/-! ## Challenges -/

theorem responderStakes_eq_self (r : String) {f : OPoIStake → OPoIStake}
    (hChanges : ∀ s, f s ≠ s) : responderStakes c r f = c.mapStakes ↔ rewardStake c r = none := by
  unfold responderStakes rewardStake
  cases responder c r with
  | none => simp
  | some m =>
    simp only [modify_eq_self_iff]
    constructor
    · intro hSame
      cases hStake : c.mapStakes[m]? with
      | none => rfl
      | some s => exact absurd (hSame s hStake) (hChanges s)
    · intro hNone s hStake
      rw [hNone] at hStake
      cases hStake

theorem u32_succ_ne (n : Nat) : u32 (n + 1) ≠ n := by
  unfold u32
  omega

theorem undo_applyChallengeCommit :
    (undoChallengeCommit (applyChallengeCommit env blockHeight c tx) tx).consensus = c.consensus ↔
      undoableChallengeCommit c tx = true := by
  have hStakes : responderStakes { c with
        mapChallenges := c.mapChallenges.insert tx.opoiRequestId
          (openedChallenge env blockHeight tx)
        mapLockedUTXOs := c.mapLockedUTXOs.insert tx.opoiChallengerCollateralIn tx.opoiRequester
        mapLockingTxHash :=
          c.mapLockingTxHash.insert tx.opoiChallengerCollateralIn (env.getHash tx) }
      tx.opoiRequestId (fun s =>
        { s with responsesChallenged := u32 (s.responsesChallenged + 1) }) =
        c.mapStakes ↔ rewardStake c tx.opoiRequestId = none := by
    refine responderStakes_eq_self c tx.opoiRequestId fun s hSame => ?_
    exact u32_succ_ne _ (congrArg responsesChallenged hSame)
  simp only [undoChallengeCommit, applyChallengeCommit, modifyResponderStake_eq,
    addChallenge, lockUTXO, unlockUTXO, openedChallenge,
    consensus, erase_insert, OPoICache.mk.injEq, and_true, true_and,
    erase_eq_self_iff, undoableChallengeCommit, Bool.and_eq_true,
    Option.isNone_iff_eq_none, and_assoc] at hStakes ⊢
  rw [hStakes]

theorem challenge_restored (ch : OPoIChallenge) :
    { ch with
      phase := 0, fraudProof := [], challengeStatus := .opened, revealTxHash := 0#256 } = ch ↔
      ch.phase = 0 ∧ ch.fraudProof = [] ∧ ch.challengeStatus = .opened ∧
        ch.revealTxHash = 0#256 := by
  constructor
  · intro hSame
    rw [← hSame]
    exact ⟨rfl, rfl, rfl, rfl⟩
  · rintro ⟨hPhase, hProof, hStatus, hHash⟩
    rw [← hHash, ← hPhase, ← hProof, ← hStatus]

theorem slash_restored {c' : OPoICache} {r : String} (hResponses : c'.mapResponses = c.mapResponses)
    (hStakes : c'.mapStakes = responderStakes c r slashStake) :
    responderStakes c' r (fun s => { s with stakeStatus := .active }) = c.mapStakes ↔
      rewardStake c r = none := by
  have hTwice : responderStakes c' r (fun s => { s with stakeStatus := .active }) =
      responderStakes c r fun s => { slashStake s with stakeStatus := .active } := by
    have hResponder : responder c' r = responder c r := by simp only [responder, hResponses]
    unfold responderStakes at hStakes ⊢
    rw [hResponder, hStakes]
    cases responder c r with
    | none => rfl
    | some m => exact modify_modify
  rw [hTwice]
  refine responderStakes_eq_self c r fun s hSame => ?_
  have hSlashed := congrArg responsesSlashed hSame
  have hStatus := congrArg stakeStatus hSame
  unfold slashStake at hSlashed
  split at hSlashed
  · exact u32_succ_ne _ hSlashed
  · rename_i hInactive
    simp only [isActive, beq_iff_eq] at hInactive
    exact hInactive hStatus.symm

theorem undo_applyChallengeReveal :
    (undoChallengeReveal (applyChallengeReveal env c tx) tx).consensus = c.consensus ↔
      undoableChallengeReveal env c tx = true := by
  cases hCh : c.mapChallenges[tx.opoiRequestId]? with
  | none =>
    have hApply : applyChallengeReveal env c tx = c := by
      unfold applyChallengeReveal
      rw [hCh]
    rw [hApply]
    simp [undoChallengeReveal, undoableChallengeReveal, hCh]
  | some ch =>
    rw [applyChallengeReveal_eq env c tx hCh]
    unfold undoChallengeReveal
    simp only [undoableChallengeReveal, hCh, Option.all_some, getElem?_modify_eq, if_true,
      Option.map_some, revealedChallenge]
    cases hOutcome : revealOutcome env c tx with
    | slashed =>
      simp only [modifyResponderStake_eq, lockUTXO, unmarkChallengerRewardPaid,
        modifyChallenge, consensus, isChallengerRewardPaid,
        undoableOutcome, hOutcome, true_or, if_true, modify_modify, insert_erase,
        OPoICache.mk.injEq, true_and, modify_eq_self_iff, insert_eq_self_iff,
        setErase_eq_self_iff, hCh, Option.some.injEq, forall_eq', BitVec.ofNat_eq_ofNat,
        challenge_restored, Bool.and_eq_true, beq_iff_eq, Option.isNone_iff_eq_none,
        Bool.not_eq_true', and_assoc]
      refine Iff.trans (and_congr (slash_restored c ?_ ?_) Iff.rfl) ?_
      · rfl
      · rfl
      constructor
      · rintro ⟨hStake, hPhase, hProof, hStatus, hHash, hRest⟩
        exact ⟨hPhase, hProof, hStatus, hHash, hStake, hRest⟩
      · rintro ⟨hPhase, hProof, hStatus, hHash, hStake, hRest⟩
        exact ⟨hStake, hPhase, hProof, hStatus, hHash, hRest⟩
    | resolvedNoOracle =>
      simp [lockUTXO, modifyChallenge, consensus, undoableOutcome,
        hOutcome, hCh, challenge_restored, and_assoc]
    | opened | expired | revealedPending =>
      simp [modifyChallenge, consensus, undoableOutcome, hOutcome, hCh,
        challenge_restored, and_assoc]

/-! ## Models, claims and shard results -/

theorem undo_applyModelRegister :
    (undoModelRegister (applyModelRegister env blockHeight c tx) tx).consensus = c.consensus ↔
      c.mapModelManifests[tx.opoiModelId]? = none ∧ c.mapModelVotes[tx.opoiModelId]? = none := by
  simp [undoModelRegister, applyModelRegister, addModelManifest, consensus]

theorem undo_applyModelVote :
    (undoModelVote (applyModelVote env blockHeight c tx) tx).consensus = c.consensus ↔
      undoableModelVote c tx = true := by
  unfold applyModelVote addModelVote undoableModelVote
  cases hKnown : c.mapModelManifests.contains tx.opoiModelId with
  | false =>
    simp [undoModelVote, consensus, Option.all_eq_true]
  | true =>
    simp only [if_true, undoModelVote, consensus, OPoICache.mk.injEq, and_true, true_and,
      modify_insert, erase_insert, insert_eq_self_iff, Bool.not_true,
      Bool.false_or, Bool.and_eq_true, Option.all_eq_true, Option.isNone_iff_eq_none]
    rw [Std.ExtTreeMap.getD_eq_getD_getElem?]
    cases c.mapModelVotes[tx.opoiModelId]? with
    | none => simp
    | some votes =>
      simp only [Option.getD_some, Option.some.injEq, Option.isSome_some, true_and, forall_eq']
      rw [eq_comm, erase_eq_self_iff]

/-- A list with one entry for each owner, after an entry was added and the owner's entries
    were removed: it is as it was if it was there and had none of the owner. -/
theorem entries_restored {α : Type} {entries : StrMap (List α)} {key : String}
    {mine : α → Bool} {entry : α} (hMine : mine entry = true) :
    entries.insert key (((if (entries.getD key []).any mine then entries.getD key []
        else entries.getD key [] ++ [entry])).filter fun e => !mine e) = entries ↔
      (entries[key]?).any (fun l => l.all fun e => !mine e) = true := by
  rw [insert_eq_self_iff, Std.ExtTreeMap.getD_eq_getD_getElem?]
  have hFilter : ∀ l : List α, (if l.any mine then l else l ++ [entry]).filter (fun e => !mine e) =
      l.filter fun e => !mine e := by
    intro l
    split
    · rfl
    · simp [hMine]
  rw [hFilter]
  cases entries[key]? with
  | none => simp
  | some l =>
    simp only [Option.getD_some, Option.some.injEq, Option.any_some, List.all_eq_true]
    rw [eq_comm, List.filter_eq_self]

theorem undo_applyCoordinatorClaim :
    (undoCoordinatorClaim (applyCoordinatorClaim env blockHeight c tx) tx).consensus = c.consensus ↔
      (c.mapCoordinatorClaims[tx.opoiRequestId]?).any (fun claims =>
        claims.all (·.minerAddress != tx.opoiMinerAddress)) = true := by
  simp only [undoCoordinatorClaim, applyCoordinatorClaim, addCoordinatorClaim,
    consensus, modify_insert, OPoICache.mk.injEq, and_true, true_and, bne]
  exact entries_restored (beq_self_eq_true _)

theorem undo_applyShardResult :
    (undoShardResult (applyShardResult env blockHeight c tx) tx).consensus = c.consensus ↔
      (c.mapShardResults[shardKey tx.opoiRequestId tx.opoiShardIndex]?).any (fun subs =>
        subs.all (·.minerAddress != tx.opoiMinerAddress)) = true ∧
      c.isShardPaid tx.opoiRequestId tx.opoiShardIndex = false := by
  simp only [undoShardResult, applyShardResult, addShardResult,
    listShardResults, unmarkShardPaid, isShardPaid,
    consensus, modify_insert, setErase_eq_self_iff, OPoICache.mk.injEq, and_true, true_and, bne]
  exact and_congr_left fun _ => entries_restored (beq_self_eq_true _)

/-! ## Auditor votes -/

theorem removeVotes_addVote {verifs : StrMap (List AuditorVerification)} {key : String}
    {v : AuditorVerification} :
    verifs.insert key (removeVotes v.auditorAddress (addVote (verifs.getD key []) v)) = verifs ↔
      (verifs[key]?).any (fun l => l.all (·.auditorAddress != v.auditorAddress)) = true := by
  exact entries_restored (beq_self_eq_true _)

variable {verifs : List AuditorVerification} {v : AuditorVerification}

theorem any_voted_eq_false (hNew : verifs.all (·.auditorAddress != v.auditorAddress) = true) :
    verifs.any (·.auditorAddress == v.auditorAddress) = false := by
  simpa [bne] using hNew

theorem voteStatus_addVote (hNew : verifs.all (·.auditorAddress != v.auditorAddress) = true) :
    voteStatus (addVote verifs v) v.auditorAddress = v.status := by
  have hNone : verifs.find? (·.auditorAddress == v.auditorAddress) = none := by
    simpa [bne] using hNew
  rw [addVote_of_new (any_voted_eq_false hNew), voteStatus, List.find?_append, hNone]
  simp

def lockedByVote (locked : Std.ExtTreeMap COutPoint String) (verifs : List AuditorVerification)
    (v : AuditorVerification) : Std.ExtTreeMap COutPoint String :=
  if verifs.any (·.auditorAddress == v.auditorAddress) || v.auditorCollateral.isNull then locked
  else locked.insert v.auditorCollateral v.auditorAddress

def releasedByUndo (locked : Std.ExtTreeMap COutPoint String) (status : AuditorStatus)
    (out : COutPoint) : Std.ExtTreeMap COutPoint String :=
  if status = .slashed then locked else locked.erase out

theorem lockVote_consensus : (c.lockVote verifs v).consensus =
    { c.consensus with mapLockedUTXOs := lockedByVote c.mapLockedUTXOs verifs v } := by
  unfold lockVote lockedByVote
  cases verifs.any (·.auditorAddress == v.auditorAddress) with
  | true => rfl
  | false =>
    cases v.auditorCollateral.isNull with
    | true => rfl
    | false => rfl

theorem unlockUnlessSlashed_consensus (status : AuditorStatus) (out : COutPoint) :
    (unlockUnlessSlashed c status out).consensus =
      { c.consensus with mapLockedUTXOs := releasedByUndo c.mapLockedUTXOs status out } := by
  unfold unlockUnlessSlashed releasedByUndo
  split
  · rfl
  · rfl

theorem vote_restored {lists : StrMap (List AuditorVerification)} {key : String}
    {locked : Std.ExtTreeMap COutPoint String} (hPending : v.status = .pending) :
    (releasedByUndo (lockedByVote locked (lists.getD key []) v)
        (voteStatus (addVote (lists.getD key []) v) v.auditorAddress) v.auditorCollateral = locked ∧
      lists.insert key (removeVotes v.auditorAddress (addVote (lists.getD key []) v)) = lists) ↔
      locked[v.auditorCollateral]? = none ∧
        (lists[key]?).any (fun l => l.all (·.auditorAddress != v.auditorAddress)) = true := by
  rw [removeVotes_addVote]
  refine and_congr_left fun hFresh => ?_
  obtain ⟨l, hList, hNew⟩ := (Option.any_eq_true _ _).mp hFresh
  rw [getD_of_get hList, voteStatus_addVote hNew, hPending, lockedByVote, any_voted_eq_false hNew,
    Bool.false_or, releasedByUndo, if_neg (by decide)]
  split
  · exact erase_eq_self_iff
  · rw [erase_insert]
    exact erase_eq_self_iff

theorem undo_applyAuditorVerify :
    (undoAuditorVerify (applyAuditorVerify env blockHeight c tx) tx).consensus = c.consensus ↔
      undoableAuditorVerify c tx = true := by
  have hPending : (newVote env blockHeight tx).status = .pending := rfl
  rw [← consensus_undoAuditorVerify]
  unfold applyAuditorVerify undoAuditorVerify undoableAuditorVerify
  split
  · -- A vote on the whole response.
    have hApplied : (c.addAuditorVerification (newVote env blockHeight tx)).consensus =
        { c.consensus with
          mapAuditorVerifications := c.mapAuditorVerifications.insert tx.opoiRequestId
            (addVote (c.mapAuditorVerifications.getD tx.opoiRequestId [])
              (newVote env blockHeight tx))
          mapLockedUTXOs := lockedByVote c.mapLockedUTXOs
            (c.mapAuditorVerifications.getD tx.opoiRequestId []) (newVote env blockHeight tx) } :=
      lockVote_consensus _
    have hUnmark : ∀ a : OPoICache, (a.unmarkAuditorResolved tx.opoiRequestId).consensus =
        a.consensus.unmarkAuditorResolved tx.opoiRequestId := fun _ => rfl
    rw [hApplied]
    rw [hUnmark, unlockUnlessSlashed_consensus]
    simp only [Std.ExtTreeMap.getD_insert_self, modify_insert,
      unmarkAuditorResolved, isAuditorResolved, consensus,
      OPoICache.mk.injEq, true_and, and_true, setErase_eq_self_iff, Bool.and_eq_true,
      Option.isNone_iff_eq_none, Bool.not_eq_true']
    rw [← and_assoc, ← and_assoc]
    exact and_congr_left fun _ => vote_restored hPending
  · have hApplied : (c.addShardAuditorVerification tx.opoiRequestId tx.opoiShardIndex
        (newVote env blockHeight tx)).consensus =
        { c.consensus with
          mapShardAuditorVerifications := c.mapShardAuditorVerifications.insert
            (shardKey tx.opoiRequestId tx.opoiShardIndex)
            (addVote (c.mapShardAuditorVerifications.getD
              (shardKey tx.opoiRequestId tx.opoiShardIndex) []) (newVote env blockHeight tx))
          mapLockedUTXOs := lockedByVote c.mapLockedUTXOs
            (c.mapShardAuditorVerifications.getD (shardKey tx.opoiRequestId tx.opoiShardIndex) [])
            (newVote env blockHeight tx) } :=
      lockVote_consensus _
    have hUnmark : ∀ a : OPoICache,
        (a.unmarkShardAuditorResolved tx.opoiRequestId tx.opoiShardIndex).consensus =
          a.consensus.unmarkShardAuditorResolved tx.opoiRequestId tx.opoiShardIndex := fun _ => rfl
    rw [hApplied]
    dsimp only
    rw [hUnmark, unlockUnlessSlashed_consensus]
    simp only [Std.ExtTreeMap.getD_insert_self, modify_insert,
      unmarkShardAuditorResolved, isShardAuditorResolved, consensus,
      OPoICache.mk.injEq, true_and, and_true, setErase_eq_self_iff, Bool.and_eq_true,
      Option.isNone_iff_eq_none, Bool.not_eq_true']
    rw [← and_assoc, ← and_assoc]
    exact and_congr_left fun _ => vote_restored hPending

/-! ## All transactions -/

theorem undo_apply_iff :
    (undoOPoITransaction (applyOPoITransaction env chainActive blockHeight c tx) tx).consensus =
      c.consensus ↔ undoable env blockHeight c tx = true := by
  unfold undoOPoITransaction applyOPoITransaction undoable
  cases hType : tx.opoiType with
  | request => exact (undo_applyRequest env blockHeight c tx).trans Option.isNone_iff_eq_none.symm
  | response =>
    dsimp only
    split
    · exact undo_applyResponseCommit env blockHeight c tx
    · exact undo_applyResponseReveal env chainActive blockHeight c tx
  | stake =>
    simp only [Bool.and_eq_true, Option.isNone_iff_eq_none]
    exact undo_applyStake env blockHeight c tx
  | unstake =>
    simp only [Option.all_eq_true, Bool.and_eq_true, beq_iff_eq, and_assoc]
    exact undo_applyUnstake env blockHeight c tx
  | renew =>
    simp only [Option.all_eq_true, Bool.and_eq_true, beq_iff_eq, and_assoc]
    exact undo_applyRenew blockHeight c tx
  | challenge =>
    dsimp only
    split
    · exact undo_applyChallengeCommit env blockHeight c tx
    · exact undo_applyChallengeReveal env c tx
  | modelRegister =>
    simp only [Bool.and_eq_true, Option.isNone_iff_eq_none]
    exact undo_applyModelRegister env blockHeight c tx
  | modelVote => exact undo_applyModelVote env blockHeight c tx
  | coordinatorClaim => exact undo_applyCoordinatorClaim env blockHeight c tx
  | shardResult =>
    simp only [Bool.and_eq_true, Bool.not_eq_true']
    exact undo_applyShardResult env blockHeight c tx
  | auditorVerify => exact undo_applyAuditorVerify env blockHeight c tx
  | unknown => simp only

end Inverse

end CloudService
