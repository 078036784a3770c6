/-
  The handlers that branch on the cache, as single record updates with the branches inside the
  fields, and what a property must survive to survive the passes.
-/

import CloudService.OPoI.Passes

namespace CloudService

open OPoICache

variable (env : Env) (blockHeight : Nat) (c : OPoICache) (tx : CTransaction)

/-! ## Transactions -/

theorem startUnstake_eq (minerAddress : String) (height : Nat) (txHash : Uint256) :
    c.startUnstake minerAddress height txHash = c.modifyStake minerAddress fun s =>
        if s.isActive then
          { s with stakeStatus := .unstaking, unstakeHeight := height, unstakeTxHash := txHash }
        else s := by
  unfold startUnstake modifyStake
  cases hStake : c.mapStakes[minerAddress]? with
  | none =>
    have hInactive : c.isActiveStaker minerAddress = false := by
      simp [isActiveStaker, hStake]
    rw [hInactive, if_neg Bool.false_ne_true, TreeMap.modify_eq_self_iff.mpr (by simp [hStake])]
  | some s =>
    have hActive : c.isActiveStaker minerAddress = s.isActive := by
      simp [isActiveStaker, hStake]
    cases hStatus : s.isActive with
    | false =>
      rw [hActive, hStatus, if_neg Bool.false_ne_true,
        TreeMap.modify_eq_self_iff.mpr (by simp [hStake, hStatus])]
    | true =>
      rw [hActive, hStatus, if_pos rfl]
      congr 1
      apply TreeMap.modify_congr
      simp [hStake, hStatus]

/-- The stakes after an assignment to the stake of the responder of a request. -/
def responderStakes (requestId : String) (f : OPoIStake → OPoIStake) : StrMap OPoIStake :=
  match responder c requestId with
  | some m => c.mapStakes.modify m f
  | none => c.mapStakes

theorem modifyResponderStake_eq (requestId : String) (f : OPoIStake → OPoIStake) :
    modifyResponderStake c requestId f = { c with mapStakes := responderStakes c requestId f } := by
  unfold modifyResponderStake responderStakes
  cases responder c requestId with
  | none => rfl
  | some m => rfl

theorem getElem?_responderStakes (requestId : String) (f : OPoIStake → OPoIStake) (m : String) :
    (responderStakes c requestId f)[m]? =
      if responder c requestId = some m then c.mapStakes[m]?.map f else c.mapStakes[m]? := by
  unfold responderStakes
  split
  · rename_i m' hResponder
    simp [hResponder]
  · rename_i hNone
    simp [hNone]

section Votes

variable {c} {verifs : List AuditorVerification} {v : AuditorVerification}

theorem addVote_of_voted (h : verifs.any (·.auditorAddress == v.auditorAddress) = true) :
    addVote verifs v = verifs := if_pos h

theorem addVote_of_new (h : verifs.any (·.auditorAddress == v.auditorAddress) = false) :
    addVote verifs v = verifs ++ [v] := if_neg (Bool.not_eq_true _ ▸ h)

theorem lockVote_of_voted (h : verifs.any (·.auditorAddress == v.auditorAddress) = true) :
    c.lockVote verifs v = c := if_pos h

theorem lockVote_of_new (h : verifs.any (·.auditorAddress == v.auditorAddress) = false)
    (hNull : v.auditorCollateral.isNull = false) :
    c.lockVote verifs v = c.lockUTXO v.auditorCollateral v.auditorAddress v.txHash := by
  unfold lockVote
  rw [if_neg (Bool.not_eq_true _ ▸ h), if_neg (Bool.not_eq_true _ ▸ hNull)]

def OPoICache.shardVerifications (c : OPoICache) (key : String) : List AuditorVerification :=
  c.mapShardAuditorVerifications.getD key []

theorem addAuditorVerification_of_new
    (h : (c.getAuditorVerifications v.requestId).any (·.auditorAddress == v.auditorAddress)
      = false) (hNull : v.auditorCollateral.isNull = false) :
    c.addAuditorVerification v =
      { c with
        mapAuditorVerifications := c.mapAuditorVerifications.insert v.requestId
          (c.getAuditorVerifications v.requestId ++ [v])
        mapLockedUTXOs := c.mapLockedUTXOs.insert v.auditorCollateral v.auditorAddress
        mapLockingTxHash := c.mapLockingTxHash.insert v.auditorCollateral v.txHash } := by
  unfold getAuditorVerifications at h ⊢
  unfold addAuditorVerification
  dsimp only
  rw [addVote_of_new h, lockVote_of_new h hNull]
  rfl

theorem addAuditorVerification_of_voted
    (h : (c.getAuditorVerifications v.requestId).any (·.auditorAddress == v.auditorAddress)
      = true) :
    c.addAuditorVerification v =
      { c with
        mapAuditorVerifications := c.mapAuditorVerifications.insert v.requestId
          (c.getAuditorVerifications v.requestId) } := by
  unfold getAuditorVerifications at h ⊢
  unfold addAuditorVerification
  dsimp only
  rw [addVote_of_voted h, lockVote_of_voted h]

theorem addShardAuditorVerification_of_new {requestId : String} {shardIndex : Nat}
    (h : (c.shardVerifications (shardKey requestId shardIndex)).any
      (·.auditorAddress == v.auditorAddress) = false)
    (hNull : v.auditorCollateral.isNull = false) :
    c.addShardAuditorVerification requestId shardIndex v =
      { c with
        mapShardAuditorVerifications := c.mapShardAuditorVerifications.insert
          (shardKey requestId shardIndex)
          (c.shardVerifications (shardKey requestId shardIndex) ++ [v])
        mapLockedUTXOs := c.mapLockedUTXOs.insert v.auditorCollateral v.auditorAddress
        mapLockingTxHash := c.mapLockingTxHash.insert v.auditorCollateral v.txHash } := by
  unfold shardVerifications at h ⊢
  unfold addShardAuditorVerification
  dsimp only
  rw [addVote_of_new h, lockVote_of_new h hNull]
  rfl

theorem addShardAuditorVerification_of_voted {requestId : String} {shardIndex : Nat}
    (h : (c.shardVerifications (shardKey requestId shardIndex)).any
      (·.auditorAddress == v.auditorAddress) = true) :
    c.addShardAuditorVerification requestId shardIndex v =
      { c with
        mapShardAuditorVerifications := c.mapShardAuditorVerifications.insert
          (shardKey requestId shardIndex)
          (c.shardVerifications (shardKey requestId shardIndex)) } := by
  unfold shardVerifications at h ⊢
  unfold addShardAuditorVerification
  dsimp only
  rw [addVote_of_voted h, lockVote_of_voted h]

end Votes

theorem applyChallengeReveal_eq {ch : OPoIChallenge}
    (hCh : c.mapChallenges[tx.opoiRequestId]? = some ch) :
    applyChallengeReveal env c tx =
      { c with
        mapStakes :=
          if revealOutcome env c tx = .slashed then
            responderStakes c tx.opoiRequestId slashStake
          else c.mapStakes
        mapLockedUTXOs :=
          if revealOutcome env c tx = .slashed ∨ revealOutcome env c tx = .resolvedNoOracle then
            c.mapLockedUTXOs.erase ch.challengerCollateral
          else c.mapLockedUTXOs
        mapLockingTxHash :=
          if revealOutcome env c tx = .slashed ∨ revealOutcome env c tx = .resolvedNoOracle then
            c.mapLockingTxHash.erase ch.challengerCollateral
          else c.mapLockingTxHash
        mapChallenges := c.mapChallenges.modify tx.opoiRequestId fun ch =>
          { revealedChallenge env tx ch with challengeStatus := revealOutcome env c tx } } := by
  unfold applyChallengeReveal
  simp only [hCh]
  cases hOutcome : revealOutcome env c tx with
  | slashed => simp [proveChallenge, modifyResponderStake_eq, unlockUTXO,
      modifyChallenge]
  | resolvedNoOracle => simp [unlockUTXO, modifyChallenge]
  | opened => simp [modifyChallenge]
  | expired => simp [modifyChallenge]
  | revealedPending => simp [modifyChallenge]

theorem lockVote_eq (verifs : List AuditorVerification) (v : AuditorVerification) :
    ∃ locked locking, c.lockVote verifs v =
      { c with mapLockedUTXOs := locked, mapLockingTxHash := locking } := by
  unfold lockVote
  split
  · exact ⟨_, _, rfl⟩
  · split
    · exact ⟨_, _, rfl⟩
    · exact ⟨_, _, rfl⟩

structure TxFrame (tx : CTransaction) (c c' : OPoICache) : Prop where
  requests : tx.opoiType ≠ .request → tx.opoiType ≠ .response → c'.mapRequests = c.mapRequests
  responses : (tx.opoiType = .response → tx.opoiResponsePhase = 0) →
    c'.mapResponses = c.mapResponses
  commits : (tx.opoiType = .response → tx.opoiResponsePhase ≠ 0) →
    c'.mapResponseCommits = c.mapResponseCommits ∧
      c'.mapResponseCommitHeight = c.mapResponseCommitHeight
  challenges : tx.opoiType ≠ .challenge → c'.mapChallenges = c.mapChallenges
  votes : tx.opoiType ≠ .auditorVerify →
    c'.mapAuditorVerifications = c.mapAuditorVerifications ∧
      c'.mapShardAuditorVerifications = c.mapShardAuditorVerifications
  models : tx.opoiType ≠ .modelRegister → c'.mapModelManifests = c.mapModelManifests
  modelVotes : tx.opoiType ≠ .modelVote → c'.mapModelVotes = c.mapModelVotes
  submissions : tx.opoiType ≠ .shardResult → c'.mapShardResults = c.mapShardResults
  resolved : c'.setResolvedAuditorVerifications = c.setResolvedAuditorVerifications ∧
    c'.setResolvedShardAuditorVerifications = c.setResolvedShardAuditorVerifications
  paid : c'.setPaidShards = c.setPaidShards ∧ c'.setPaidResponses = c.setPaidResponses ∧
    c'.setPaidChallengerRewards = c.setPaidChallengerRewards

theorem applyOPoITransaction_txFrame (chainActive : List Uint256) :
    TxFrame tx c (applyOPoITransaction env chainActive blockHeight c tx) := by
  unfold applyOPoITransaction
  cases hType : tx.opoiType with
  | request => constructor <;> simp [hType, applyRequest, addRequest]
  | response =>
    dsimp only
    split
    · rename_i hCommit
      constructor <;> simp [hType, hCommit, applyResponseCommit, addResponseCommit, modifyRequest]
    · rename_i hReveal
      constructor <;> simp [hType, hReveal, applyResponseReveal, addResponse,
        modifyRequest, modifyStake]
  | unstake =>
    simp only [applyUnstake, startUnstake_eq]
    constructor <;> simp [modifyStake]
  | challenge =>
    dsimp only
    split
    · rw [applyChallengeCommit, modifyResponderStake_eq]
      constructor <;> simp [hType, addChallenge, lockUTXO]
    · cases hCh : c.mapChallenges[tx.opoiRequestId]? with
      | none =>
        rw [applyChallengeReveal, hCh]
        constructor <;> simp
      | some ch =>
        rw [applyChallengeReveal_eq env c tx hCh]
        constructor <;> simp [hType]
  | auditorVerify =>
    simp only [applyAuditorVerify, addAuditorVerification, addShardAuditorVerification]
    split
    · obtain ⟨_, _, hEq⟩ := lockVote_eq _ _ _
      rw [hEq]
      constructor <;> simp [hType]
    · obtain ⟨_, _, hEq⟩ := lockVote_eq _ _ _
      rw [hEq]
      constructor <;> simp [hType]
  | modelVote =>
    simp only [applyModelVote, addModelVote]
    split
    · constructor <;> simp [hType]
    · constructor <;> simp
  | modelRegister => constructor <;> simp [hType, applyModelRegister, addModelManifest]
  | shardResult => constructor <;> simp [hType, applyShardResult, addShardResult]
  | stake => constructor <;> simp [applyStake, addStake, lockUTXO]
  | renew => constructor <;> simp [applyRenew, modifyStake]
  | coordinatorClaim => constructor <;> simp [applyCoordinatorClaim, addCoordinatorClaim]
  | unknown => constructor <;> simp

/-! ## Passes -/

theorem unlockMajority_eq (majority : Nat) (verifs : List AuditorVerification) :
    ∃ locked locking,
      unlockMajority majority c verifs =
        { c with mapLockedUTXOs := locked, mapLockingTxHash := locking } ∧
      ∀ x : COutPoint, locked[x]? =
        if verifs.any fun fv => fv.result == majority && fv.auditorCollateral == x then none
        else c.mapLockedUTXOs[x]? := by
  unfold unlockMajority
  induction verifs generalizing c with
  | nil => exact ⟨c.mapLockedUTXOs, c.mapLockingTxHash, rfl, fun x => by simp⟩
  | cons fv verifs ih =>
    rw [List.foldl_cons]
    by_cases hResult : fv.result = majority
    · rw [if_pos hResult]
      obtain ⟨locked, locking, hEq, hGet⟩ := ih (c.unlockUTXO fv.auditorCollateral)
      refine ⟨locked, locking, hEq, fun x => ?_⟩
      rw [hGet x]
      by_cases hx : fv.auditorCollateral = x
      · simp [unlockUTXO, hResult, hx]
      · simp [unlockUTXO, hx]
    · rw [if_neg hResult]
      obtain ⟨locked, locking, hEq, hGet⟩ := ih c
      refine ⟨locked, locking, hEq, fun x => ?_⟩
      rw [hGet x]
      simp [hResult]

/-- Everything the pass over the challenges does to one of them: nothing, expire one that is
    not settled, or prove a pending one. -/
theorem expireChallenge_cases (key : String) :
    expireChallenge env blockHeight c key = c ∨
    (∃ ch, c.mapChallenges[key]? = some ch ∧ (ch.isOpen || ch.isPendingResolution) = true ∧
      expireChallenge env blockHeight c key =
        { c with mapChallenges := c.mapChallenges.modify key fun ch =>
            { ch with challengeStatus := .expired } }) ∨
    ∃ ch, c.mapChallenges[key]? = some ch ∧ ch.isPendingResolution = true ∧
      c.getAuditorMajorityResult ch.requestId env.params.nOPoIMinAuditors
        = some AUDITOR_VERIFY_FAIL ∧
      expireChallenge env blockHeight c key =
        { c with
          mapStakes := responderStakes c ch.requestId slashStake
          mapLockedUTXOs := c.mapLockedUTXOs.erase ch.challengerCollateral
          mapLockingTxHash := c.mapLockingTxHash.erase ch.challengerCollateral
          mapChallenges := c.mapChallenges.modify key fun ch =>
            { ch with challengeStatus := .slashed } } := by
  unfold expireChallenge
  cases hCh : c.mapChallenges[key]? with
  | none => exact .inl rfl
  | some ch =>
    simp only
    split
    · rename_i hOpen
      split
      · exact .inl rfl
      · exact .inr (.inl ⟨ch, rfl, by simp [hOpen], rfl⟩)
    · split
      · rename_i hPending
        split
        · rename_i hFail
          refine .inr (.inr ⟨ch, rfl, hPending, hFail, ?_⟩)
          unfold proveChallenge
          rw [modifyResponderStake_eq]
          rfl
        · exact .inr (.inl ⟨ch, rfl, by simp [hPending], rfl⟩)
        · exact .inl rfl
      · exact .inl rfl

theorem expireChallenge_eq (key : String) :
    ∃ challenges stakes locked locking, expireChallenge env blockHeight c key =
      { c with
        mapChallenges := challenges
        mapStakes := stakes
        mapLockedUTXOs := locked
        mapLockingTxHash := locking } := by
  rcases expireChallenge_cases env blockHeight c key with hEq | ⟨_, _, _, hEq⟩ | ⟨_, _, _, _, hEq⟩
  · exact ⟨_, _, _, _, hEq⟩
  · exact ⟨_, _, _, _, hEq⟩
  · exact ⟨_, _, _, _, hEq⟩

theorem releaseStake_eq (key : String) :
    ∃ stakes locked, releaseStake env blockHeight c key =
      { c with mapStakes := stakes, mapLockedUTXOs := locked } := by
  unfold releaseStake
  split
  · exact ⟨_, _, rfl⟩
  · split
    · exact ⟨_, _, rfl⟩
    · exact ⟨_, _, rfl⟩

theorem assignCanary_eq :
    ∃ stakes, assignCanary env blockHeight c = { c with mapStakes := stakes } := by
  unfold assignCanary
  simp only
  split
  · exact ⟨_, rfl⟩
  · split
    · exact ⟨_, rfl⟩
    · exact ⟨_, rfl⟩

theorem resolveCanary_eq (majority : Nat) (requestId : String) :
    ∃ stakes, resolveCanary majority c requestId = { c with mapStakes := stakes } := by
  unfold resolveCanary
  split
  · exact ⟨_, rfl⟩
  · split
    · exact ⟨_, rfl⟩
    · split
      · exact ⟨_, modifyResponderStake_eq _ _ _⟩
      · split
        · exact ⟨_, modifyResponderStake_eq _ _ _⟩
        · exact ⟨_, rfl⟩

/-- Everything the resolution of the votes on a response does: nothing, or it settles them,
    returns the collateral of the majority and applies the canary rule. -/
theorem resolveAuditors_cases (requestId : String) :
    resolveAuditors env c requestId = c ∨ ∃ majority locked locking,
      c.isAuditorResolved requestId = false ∧
      (∀ x : COutPoint, locked[x]? =
        if (c.getAuditorVerifications requestId).any fun fv =>
            fv.result == majority && fv.auditorCollateral == x then none
        else c.mapLockedUTXOs[x]?) ∧
      resolveAuditors env c requestId = resolveCanary majority
        { c with
          mapLockedUTXOs := locked
          mapLockingTxHash := locking
          mapAuditorVerifications :=
            c.mapAuditorVerifications.modify requestId (·.map (resolveVote majority))
          setResolvedAuditorVerifications :=
            c.setResolvedAuditorVerifications.insert requestId } requestId := by
  unfold resolveAuditors
  split
  · exact .inl rfl
  · rename_i hUnresolved
    split
    · exact .inl rfl
    · rename_i majority _
      obtain ⟨locked, locking, hEq, hGet⟩ :=
        unlockMajority_eq c majority (c.getAuditorVerifications requestId)
      rw [hEq]
      exact .inr ⟨majority, locked, locking, by simpa using hUnresolved, hGet, rfl⟩

theorem resolveShardAuditors_cases (key : String) :
    resolveShardAuditors env c key = c ∨ ∃ majority verifs front locked locking,
      c.mapShardAuditorVerifications[key]? = some verifs ∧ verifs.head? = some front ∧
      c.isShardAuditorResolved front.requestId front.shardIndex = false ∧
      (∀ x : COutPoint, locked[x]? =
        if verifs.any fun fv => fv.result == majority && fv.auditorCollateral == x then none
        else c.mapLockedUTXOs[x]?) ∧
      resolveShardAuditors env c key =
        { c with
          mapLockedUTXOs := locked
          mapLockingTxHash := locking
          mapShardAuditorVerifications :=
            c.mapShardAuditorVerifications.modify key (·.map (resolveVote majority))
          setResolvedShardAuditorVerifications := c.setResolvedShardAuditorVerifications.insert
            (shardKey front.requestId front.shardIndex) } := by
  unfold resolveShardAuditors
  cases hVerifs : c.mapShardAuditorVerifications[key]? with
  | none => exact .inl rfl
  | some verifs =>
    dsimp only
    cases hFront : verifs.head? with
    | none => exact .inl rfl
    | some front =>
      dsimp only
      split
      · exact .inl rfl
      · rename_i hUnresolved
        split
        · exact .inl rfl
        · rename_i majority _
          obtain ⟨locked, locking, hEq, hGet⟩ := unlockMajority_eq c majority verifs
          rw [hEq]
          exact .inr ⟨majority, verifs, front, locked, locking, rfl, hFront,
            by simpa using hUnresolved, hGet, rfl⟩

theorem resolveAuditors_eq (requestId : String) :
    ∃ stakes locked locking votes resolved, resolveAuditors env c requestId =
      { c with
        mapStakes := stakes
        mapLockedUTXOs := locked
        mapLockingTxHash := locking
        mapAuditorVerifications := votes
        setResolvedAuditorVerifications := resolved } := by
  rcases resolveAuditors_cases env c requestId with hEq | ⟨majority, _, _, _, _, hEq⟩
  · exact ⟨_, _, _, _, _, hEq⟩
  · obtain ⟨stakes, hCanary⟩ := resolveCanary_eq _ majority requestId
    exact ⟨stakes, _, _, _, _, hEq.trans hCanary⟩

theorem resolveShardAuditors_eq (key : String) :
    ∃ locked locking votes resolved, resolveShardAuditors env c key =
      { c with
        mapLockedUTXOs := locked
        mapLockingTxHash := locking
        mapShardAuditorVerifications := votes
        setResolvedShardAuditorVerifications := resolved } := by
  rcases resolveShardAuditors_cases env c key with hEq | ⟨_, _, _, _, _, _, _, _, _, hEq⟩
  · exact ⟨_, _, _, _, hEq⟩
  · exact ⟨_, _, _, _, hEq⟩

/-- The loop over the challenges. -/
def expireChallenges : OPoICache := c.mapChallenges.keys.foldl (expireChallenge env blockHeight) c

/-- The upkeep of stakes and requests: the late passes before the voting windows. -/
def upkeepPasses : OPoICache :=
  let c := c.mapStakes.keys.foldl (releaseStake env blockHeight) c
  let c := processExpiredRequests env blockHeight c
  let c := processResponseCommitWindows env blockHeight c
  let c := processStakeRenewals env blockHeight c
  processCanaryAudits env blockHeight c

def earlyPasses : OPoICache :=
  processModelVotingWindows env blockHeight (upkeepPasses env blockHeight c)

def markPayments (vtx : List CTransaction) : OPoICache :=
  let c := processShardPayments env vtx c
  let c := processVerifiableResponsePayments env vtx c
  processAuditSampledOpenResponsePayments env blockHeight vtx c

/-- The passes after the loop over the challenges. -/
def latePasses (vtx : List CTransaction) : OPoICache :=
  processAuditorVerifications env
    (markPayments env blockHeight (earlyPasses env blockHeight c) vtx)

theorem blockPasses_eq (vtx : List CTransaction) :
    blockPasses env blockHeight vtx c =
      latePasses env blockHeight (expireChallenges env blockHeight c) vtx := rfl

/-- A property of the cache that every elementary update of the upkeep preserves. -/
structure UpkeepPreserved (P : OPoICache → Prop) : Prop where
  releaseStake : ∀ c key, P c → P (releaseStake env blockHeight c key)
  expireRequests : ∀ c, P c →
    P { c with mapRequests := c.mapRequests.map fun _ req => expireRequest env blockHeight req }
  closeWindows : ∀ c, P c →
    P { c with mapRequests := c.mapRequests.map fun _ req => closeCommitWindow env blockHeight req }
  suspendOverdue : ∀ c, P c →
    P { c with mapStakes := c.mapStakes.map fun _ s => suspendOverdue env blockHeight s }
  strikeMissed : ∀ c, P c →
    P { c with mapStakes := c.mapStakes.map fun _ s => strikeMissed blockHeight s }
  assignCanary : ∀ c, P c → P (assignCanary env blockHeight c)

structure EarlyPreserved (P : OPoICache → Prop) : Prop extends
    UpkeepPreserved env blockHeight P where
  manifestStatus : ∀ c modelId status height, P c →
    P (c.setModelManifestStatus modelId status height)

structure SettlePreserved (P : OPoICache → Prop) : Prop where
  shardPaid : ∀ c requestId shardIndex, P c → P (c.markShardPaid requestId shardIndex)
  responsePaid : ∀ c requestId, P c → P (c.markResponsePaid requestId)
  resolveAuditors : ∀ c requestId, P c → P (resolveAuditors env c requestId)
  resolveShardAuditors : ∀ c key, P c → P (resolveShardAuditors env c key)

structure LatePreserved (P : OPoICache → Prop) : Prop extends
    EarlyPreserved env blockHeight P, SettlePreserved env P

structure PassPreserved (P : OPoICache → Prop) : Prop extends LatePreserved env blockHeight P where
  rewardPaid : ∀ c requestId, P c → P (c.markChallengerRewardPaid requestId)
  expireChallenge : ∀ c key, P c → P (expireChallenge env blockHeight c key)

namespace UpkeepPreserved

variable {env blockHeight c} {P : OPoICache → Prop}

section

variable (h : UpkeepPreserved env blockHeight P) (hc : P c)

include h hc

theorem processRequests :
    P (processResponseCommitWindows env blockHeight (processExpiredRequests env blockHeight
      c)) := by
  have hExpired : P (processExpiredRequests env blockHeight c) := by
    unfold processExpiredRequests
    split
    · exact hc
    · exact h.expireRequests c hc
  unfold processResponseCommitWindows
  split
  · exact hExpired
  · exact h.closeWindows _ hExpired

theorem processStakes :
    P (processCanaryAudits env blockHeight (processStakeRenewals env blockHeight c)) := by
  have hRenewed : P (processStakeRenewals env blockHeight c) := by
    unfold processStakeRenewals
    split
    · exact hc
    · exact h.suspendOverdue c hc
  unfold processCanaryAudits
  split
  · exact hRenewed
  · exact h.assignCanary _ (h.strikeMissed _ hRenewed)

theorem upkeepPasses : P (upkeepPasses env blockHeight c) := by
  have hReleased : P (c.mapStakes.keys.foldl (CloudService.releaseStake env blockHeight) c) :=
    List.foldlRecOn _ _ hc fun b hb key _ => h.releaseStake b key hb
  exact h.processStakes (h.processRequests hReleased)

end

end UpkeepPreserved

namespace EarlyPreserved

variable {env blockHeight c} {P : OPoICache → Prop}

theorem processModelVotingWindows (h : EarlyPreserved env blockHeight P) (hc : P c) :
    P (processModelVotingWindows env blockHeight c) := by
  have hTally : ∀ c m, P c → P (tallyManifest env blockHeight c m) := by
    intro c m hc
    unfold tallyManifest
    split
    · exact h.manifestStatus c _ _ _ hc
    · exact h.manifestStatus c _ _ _ hc
  have hActivate : ∀ c m, P c → P (activateManifest blockHeight c m) := by
    intro c m hc
    unfold activateManifest
    split
    · exact h.manifestStatus c _ _ _ hc
    · exact hc
  unfold CloudService.processModelVotingWindows
  have hTallied := List.foldlRecOn (c.listManifestsDueForTally blockHeight)
    (tallyManifest env blockHeight) hc fun b hb m _ => hTally b m hb
  exact List.foldlRecOn _ _ hTallied fun b hb m _ => hActivate b m hb

theorem earlyPasses (h : EarlyPreserved env blockHeight P) (hc : P c) :
    P (earlyPasses env blockHeight c) :=
  h.processModelVotingWindows (h.toUpkeepPreserved.upkeepPasses hc)

end EarlyPreserved

namespace SettlePreserved

variable {env blockHeight c} {P : OPoICache → Prop}

theorem markPayments (h : SettlePreserved env P) (hc : P c) (vtx : List CTransaction) :
    P (markPayments env blockHeight c vtx) := by
  have hShards : P (processShardPayments env vtx c) :=
    List.foldlRecOn _ _ hc fun b hb p _ => h.shardPaid b p.requestId p.shardIndex hb
  have hVerifiable : P (processVerifiableResponsePayments env vtx
      (processShardPayments env vtx c)) :=
    List.foldlRecOn _ _ hShards fun b hb p _ => h.responsePaid b p.requestId hb
  exact List.foldlRecOn _ _ hVerifiable fun b hb p _ => h.responsePaid b p.requestId hb

theorem processAuditorVerifications (h : SettlePreserved env P) (hc : P c) :
    P (processAuditorVerifications env c) := by
  have hResolved := List.foldlRecOn c.mapAuditorVerifications.keys
    (CloudService.resolveAuditors env) hc fun b hb r _ => h.resolveAuditors b r hb
  exact List.foldlRecOn _ _ hResolved fun b hb key _ => h.resolveShardAuditors b key hb

end SettlePreserved

theorem LatePreserved.latePasses {env blockHeight c} {P : OPoICache → Prop}
    (h : LatePreserved env blockHeight P) (hc : P c) (vtx : List CTransaction) :
    P (latePasses env blockHeight c vtx) :=
  h.toSettlePreserved.processAuditorVerifications
    (h.toSettlePreserved.markPayments (h.toEarlyPreserved.earlyPasses hc) vtx)

/-- The part of the cache that the passes after the loop over the challenges leave alone. -/
def OPoICache.lateFixed (c : OPoICache) : OPoICache :=
  { mapResponses := c.mapResponses
    mapResponseCommits := c.mapResponseCommits
    mapResponseCommitTxHash := c.mapResponseCommitTxHash
    mapResponseCommitHeight := c.mapResponseCommitHeight
    mapChallenges := c.mapChallenges
    mapModelVotes := c.mapModelVotes
    mapCoordinatorClaims := c.mapCoordinatorClaims
    mapShardResults := c.mapShardResults
    setPaidChallengerRewards := c.setPaidChallengerRewards }

theorem OPoICache.eq_of_lateFixed {c d : OPoICache} (h : c.lateFixed = d.lateFixed) :
    c.mapResponses = d.mapResponses ∧ c.mapResponseCommits = d.mapResponseCommits ∧
      c.mapResponseCommitTxHash = d.mapResponseCommitTxHash ∧
      c.mapResponseCommitHeight = d.mapResponseCommitHeight ∧
      c.mapChallenges = d.mapChallenges ∧ c.mapModelVotes = d.mapModelVotes ∧
      c.mapCoordinatorClaims = d.mapCoordinatorClaims ∧ c.mapShardResults = d.mapShardResults ∧
      c.setPaidChallengerRewards = d.setPaidChallengerRewards := by
  simpa [lateFixed] using h

theorem latePreserved_fixed (Q : OPoICache → Prop) :
    LatePreserved env blockHeight fun c => Q c.lateFixed where
  releaseStake c key h := by
    obtain ⟨_, _, hEq⟩ := releaseStake_eq env blockHeight c key
    rw [hEq]
    exact h
  expireRequests _ h := h
  closeWindows _ h := h
  suspendOverdue _ h := h
  strikeMissed _ h := h
  assignCanary c h := by
    obtain ⟨stakes, hEq⟩ := assignCanary_eq env blockHeight c
    rw [hEq]
    exact h
  manifestStatus _ _ _ _ h := h
  shardPaid _ _ _ h := h
  responsePaid _ _ h := h
  resolveAuditors c r h := by
    obtain ⟨_, _, _, _, _, hEq⟩ := resolveAuditors_eq env c r
    rw [hEq]
    exact h
  resolveShardAuditors c key h := by
    obtain ⟨_, _, _, _, hEq⟩ := resolveShardAuditors_eq env c key
    rw [hEq]
    exact h

/-- Of these fields the passes change the challenges and the paid rewards only. -/
theorem passPreserved_fixed (Q : OPoICache → Prop) : PassPreserved env blockHeight fun c =>
    Q { c.lateFixed with mapChallenges := ∅, setPaidChallengerRewards := ∅ } where
  toLatePreserved := latePreserved_fixed env blockHeight fun d =>
    Q { d with mapChallenges := ∅, setPaidChallengerRewards := ∅ }
  rewardPaid _ _ h := h
  expireChallenge c key h := by
    obtain ⟨_, _, _, _, hEq⟩ := expireChallenge_eq env blockHeight c key
    rw [hEq]
    exact h

theorem latePasses_fixed (vtx : List CTransaction) :
    (latePasses env blockHeight c vtx).lateFixed = c.lateFixed :=
  (latePreserved_fixed env blockHeight (· = c.lateFixed)).latePasses rfl vtx

theorem latePasses_frame (vtx : List CTransaction) :
    (latePasses env blockHeight c vtx).mapChallenges = c.mapChallenges ∧
      (latePasses env blockHeight c vtx).mapResponses = c.mapResponses ∧
      (latePasses env blockHeight c vtx).setPaidChallengerRewards = c.setPaidChallengerRewards := by
  obtain ⟨hResponses, _, _, _, hChallenges, _, _, _, hPaid⟩ :=
    eq_of_lateFixed (latePasses_fixed env blockHeight c vtx)
  exact ⟨hChallenges, hResponses, hPaid⟩

namespace PassPreserved

variable {env blockHeight c} {P : OPoICache → Prop}

section

variable (h : PassPreserved env blockHeight P) (hc : P c) (vtx : List CTransaction)

include h hc

theorem processChallengerRewardPayments : P (processChallengerRewardPayments env vtx c) :=
  List.foldlRecOn _ _ hc fun b hb r _ => h.rewardPaid b r.requestId hb

theorem blockPasses : P (blockPasses env blockHeight vtx c) := by
  rw [blockPasses_eq]
  refine h.toLatePreserved.latePasses ?_ vtx
  exact List.foldlRecOn _ _ hc fun b hb key _ => h.expireChallenge b key hb

theorem connectPasses : P (connectPasses env blockHeight vtx c) :=
  h.blockPasses (h.processChallengerRewardPayments hc vtx) vtx

end

theorem of_relation {R : OPoICache → OPoICache → Prop}
    (h : ∀ c₁, PassPreserved env blockHeight (R c₁)) (hRefl : ∀ c, R c c)
    (hP : ∀ {c c'}, P c → R c c' → P c') : PassPreserved env blockHeight P where
  releaseStake c key hc := hP hc ((h c).releaseStake c key (hRefl c))
  expireRequests c hc := hP hc ((h c).expireRequests c (hRefl c))
  closeWindows c hc := hP hc ((h c).closeWindows c (hRefl c))
  suspendOverdue c hc := hP hc ((h c).suspendOverdue c (hRefl c))
  strikeMissed c hc := hP hc ((h c).strikeMissed c (hRefl c))
  assignCanary c hc := hP hc ((h c).assignCanary c (hRefl c))
  manifestStatus c id status height hc := hP hc ((h c).manifestStatus c id status height (hRefl c))
  shardPaid c r i hc := hP hc ((h c).shardPaid c r i (hRefl c))
  responsePaid c r hc := hP hc ((h c).responsePaid c r (hRefl c))
  resolveAuditors c r hc := hP hc ((h c).resolveAuditors c r (hRefl c))
  resolveShardAuditors c key hc := hP hc ((h c).resolveShardAuditors c key (hRefl c))
  rewardPaid c r hc := hP hc ((h c).rewardPaid c r (hRefl c))
  expireChallenge c key hc := hP hc ((h c).expireChallenge c key (hRefl c))

/-- A property of the responses and the votes. Only the verdicts can break it. -/
theorem of_votes (hQuiet : ∀ {c c' : OPoICache}, P c → c'.mapResponses = c.mapResponses →
      c'.mapAuditorVerifications = c.mapAuditorVerifications →
      c'.mapShardAuditorVerifications = c.mapShardAuditorVerifications → P c')
    (hWhole : ∀ c r, P c → P (CloudService.resolveAuditors env c r))
    (hShards : ∀ c key, P c → P (CloudService.resolveShardAuditors env c key)) :
    PassPreserved env blockHeight P where
  releaseStake c key h := by
    obtain ⟨_, _, hEq⟩ := releaseStake_eq env blockHeight c key
    rw [hEq]
    exact hQuiet h rfl rfl rfl
  expireRequests _ h := hQuiet h rfl rfl rfl
  closeWindows _ h := hQuiet h rfl rfl rfl
  suspendOverdue _ h := hQuiet h rfl rfl rfl
  strikeMissed _ h := hQuiet h rfl rfl rfl
  assignCanary c h := by
    obtain ⟨_, hEq⟩ := assignCanary_eq env blockHeight c
    rw [hEq]
    exact hQuiet h rfl rfl rfl
  manifestStatus _ _ _ _ h := hQuiet h rfl rfl rfl
  shardPaid _ _ _ h := hQuiet h rfl rfl rfl
  responsePaid _ _ h := hQuiet h rfl rfl rfl
  resolveAuditors := hWhole
  resolveShardAuditors := hShards
  rewardPaid _ _ h := hQuiet h rfl rfl rfl
  expireChallenge c key h := by
    obtain ⟨_, _, _, _, hEq⟩ := expireChallenge_eq env blockHeight c key
    rw [hEq]
    exact hQuiet h rfl rfl rfl

end PassPreserved

end CloudService
