/-
  Every OPoI transaction keeps the lock discipline inside a block, as long as it locks a free
  outpoint and reopens no settled challenge.
-/

import CloudService.Locks.Claims
import CloudService.OPoI.Accepted

namespace CloudService

open OPoICache TreeMap

section Apply

variable {env : Env} {chainActive : List Uint256} {blockHeight : Nat} {c₀ c : OPoICache}
  {tx : CTransaction}

/-! ## Transactions without locks -/

theorem sameLocks_response :
    SameLocks c (applyResponseReveal env chainActive blockHeight c tx) := by
  have hStake : SameLocks c (c.modifyStake tx.opoiMinerAddress fun s =>
      { s with responsesTotal := u32 (s.responsesTotal + 1) }) :=
    .modifyStake fun s _ => rfl
  exact ⟨hStake.stakes, rfl, rfl, fun _ => rfl, fun _ => rfl, rfl, rfl⟩

theorem sameLocks_unstake : SameLocks c (applyUnstake env blockHeight c tx) := by
  unfold applyUnstake
  rw [startUnstake_eq]
  refine .modifyStake fun s _ => ?_
  split
  · rename_i hActive
    have hStatus : s.stakeStatus = .active := by simpa [OPoIStake.isActive] using hActive
    simp only [OPoIStake.lockView, OPoIStake.isLive, hStatus]
    rfl
  · rfl

theorem sameLocks_modelVote : SameLocks c (applyModelVote env blockHeight c tx) := by
  unfold applyModelVote addModelVote
  split
  · exact ⟨fun _ => rfl, rfl, rfl, fun _ => rfl, fun _ => rfl, rfl, rfl⟩
  · exact .refl c

theorem applyOPoITransaction_sameLocks (hStake : tx.opoiType ≠ .stake)
    (hRenew : tx.opoiType ≠ .renew) (hChallenge : tx.opoiType ≠ .challenge)
    (hAuditor : tx.opoiType ≠ .auditorVerify) :
    SameLocks c (applyOPoITransaction env chainActive blockHeight c tx) := by
  unfold applyOPoITransaction
  cases hType : tx.opoiType with
  | request => exact .of_eq rfl
  | response =>
    dsimp only
    split
    · exact .of_eq rfl
    · exact sameLocks_response
  | stake => exact absurd hType hStake
  | unstake => exact sameLocks_unstake
  | challenge => exact absurd hType hChallenge
  | auditorVerify => exact absurd hType hAuditor
  | modelRegister => exact .of_eq rfl
  | modelVote => exact sameLocks_modelVote
  | coordinatorClaim => exact .of_eq rfl
  | shardResult => exact .of_eq rfl
  | renew => exact absurd hType hRenew
  | unknown => exact .refl c

theorem sameLocks_renew {s : OPoIStake} (hStake : c.mapStakes[tx.opoiMinerAddress]? = some s)
    (hLive : s.isLive = true) : SameLocks c (applyRenew blockHeight c tx) := by
  refine .modifyStake fun t hGet => ?_
  rw [hStake] at hGet
  cases hGet
  simp only [OPoIStake.lockView, hLive]
  rfl

/-! ## Claims after a transaction that takes a lock -/

theorem claim_applyStake (o : Owner) :
    (applyStake env blockHeight c tx).claim o =
      if o = .stake tx.opoiMinerAddress then some (tx.opoiCollateralIn, tx.opoiMinerAddress)
      else c.claim o := by
  cases o with
  | stake m =>
    by_cases hm : tx.opoiMinerAddress = m
    · simp [OPoICache.claim, applyStake, addStake, lockUTXO, newStake,
        OPoIStake.claim, OPoIStake.isLive, hm]
    · simp [OPoICache.claim, applyStake, addStake, lockUTXO, newStake, hm, Ne.symm hm]
  | challenge r => rfl
  | vote r i => rfl
  | shardVote key i => rfl

theorem claim_openChallenge (o : Owner) :
    ((c.addChallenge (openedChallenge env blockHeight tx)).lockUTXO tx.opoiChallengerCollateralIn
      tx.opoiRequester (env.getHash tx)).claim o =
      if o = .challenge tx.opoiRequestId then some (tx.opoiChallengerCollateralIn, tx.opoiRequester)
      else c.claim o := by
  cases o with
  | stake m => rfl
  | challenge r =>
    by_cases hr : tx.opoiRequestId = r
    · simp [OPoICache.claim, addChallenge, lockUTXO, openedChallenge,
        OPoIChallenge.claim, OPoIChallenge.isOpen, hr]
    · simp [OPoICache.claim, addChallenge, lockUTXO, openedChallenge, hr, Ne.symm hr]
  | vote r i => rfl
  | shardVote key i => rfl

theorem claim_applyChallengeCommit (o : Owner) :
    (applyChallengeCommit env blockHeight c tx).claim o =
      if o = .challenge tx.opoiRequestId then some (tx.opoiChallengerCollateralIn, tx.opoiRequester)
      else c.claim o := by
  have hQuiet : SameLocks ((c.addChallenge (openedChallenge env blockHeight tx)).lockUTXO
      tx.opoiChallengerCollateralIn tx.opoiRequester (env.getHash tx))
      (applyChallengeCommit env blockHeight c tx) := .modifyResponderStake fun s => rfl
  rw [hQuiet.claim_eq, claim_openChallenge]

theorem getElem?_snoc_claim (verifs : List AuditorVerification) (v : AuditorVerification)
    (i : Nat) :
    (verifs ++ [v])[i]?.map AuditorVerification.claim =
      if i = verifs.length then some v.claim else verifs[i]?.map AuditorVerification.claim := by
  split
  · rename_i hEq
    rw [hEq, List.getElem?_concat_length]
    rfl
  · rename_i hNe
    rcases Nat.lt_or_gt_of_ne hNe with hLt | hGt
    · rw [List.getElem?_append_left hLt]
    · rw [List.getElem?_eq_none (by simp; omega), List.getElem?_eq_none (by omega)]

/-- A vote on a whole response, of an auditor who has not voted on it. Votes on what is
    resolved claim nothing: their collateral stays locked. -/
theorem claim_addAuditorVerification {v : AuditorVerification}
    (hNull : v.auditorCollateral.isNull = false)
    (hNew : (c.getAuditorVerifications v.requestId).any (·.auditorAddress == v.auditorAddress)
      = false) (o : Owner) :
    (c.addAuditorVerification v).claim o =
      if o = .vote v.requestId (c.getAuditorVerifications v.requestId).length ∧
          c.isAuditorResolved v.requestId = false then some v.claim
      else c.claim o := by
  rw [addAuditorVerification_of_new hNew hNull]
  cases o with
  | stake m => simp [OPoICache.claim]
  | challenge r => simp [OPoICache.claim]
  | vote r i =>
    by_cases hr : v.requestId = r
    · subst hr
      simp only [OPoICache.claim, getAuditorVerifications,
        isAuditorResolved, getD_insert_eq, if_true, getElem?_snoc_claim]
      by_cases hResolved : c.setResolvedAuditorVerifications.contains v.requestId = true
      · simp [hResolved]
      · simp [hResolved]
    · simp [OPoICache.claim, getAuditorVerifications,
        isAuditorResolved, getD_insert_eq, hr, Ne.symm hr]
  | shardVote key i => simp [OPoICache.claim, shardVerifications]

theorem sameLocks_addAuditorVerification {v : AuditorVerification}
    (hVoted : (c.getAuditorVerifications v.requestId).any (·.auditorAddress == v.auditorAddress)
      = true) : SameLocks c (c.addAuditorVerification v) := by
  rw [addAuditorVerification_of_voted hVoted]
  refine ⟨fun _ => rfl, rfl, rfl, fun r => ?_, fun _ => rfl, rfl, rfl⟩
  rw [getAuditorVerifications, getD_insert_eq]
  split
  · rename_i hEq
    rw [← hEq]
  · rfl

section

variable {v : AuditorVerification} {key : String}
  (hKey : shardKey v.requestId v.shardIndex = key)

include hKey

theorem claim_addShardAuditorVerification (hNull : v.auditorCollateral.isNull = false)
    (hNew : (c.shardVerifications key).any (·.auditorAddress == v.auditorAddress) = false)
    (o : Owner) :
    (c.addShardAuditorVerification v.requestId v.shardIndex v).claim o =
      if o = .shardVote key (c.shardVerifications key).length ∧
          c.setResolvedShardAuditorVerifications.contains key = false then some v.claim
      else c.claim o := by
  subst hKey
  rw [addShardAuditorVerification_of_new hNew hNull]
  cases o with
  | stake m => simp [OPoICache.claim]
  | challenge r => simp [OPoICache.claim]
  | vote r i => simp [OPoICache.claim, isAuditorResolved,
      getAuditorVerifications]
  | shardVote k i =>
    generalize shardKey v.requestId v.shardIndex = key
    by_cases hk : key = k
    · subst hk
      simp only [OPoICache.claim, shardVerifications, getD_insert_eq, if_true, getElem?_snoc_claim]
      by_cases hResolved : c.setResolvedShardAuditorVerifications.contains key = true
      · simp [hResolved]
      · simp [hResolved]
    · simp [OPoICache.claim, shardVerifications, getD_insert_eq, hk, Ne.symm hk]

theorem sameLocks_addShardAuditorVerification
    (hVoted : (c.shardVerifications key).any (·.auditorAddress == v.auditorAddress) = true) :
    SameLocks c (c.addShardAuditorVerification v.requestId v.shardIndex v) := by
  subst hKey
  rw [addShardAuditorVerification_of_voted hVoted]
  refine ⟨fun _ => rfl, rfl, rfl, fun _ => rfl, fun k => ?_, rfl, rfl⟩
  rw [shardVerifications, getD_insert_eq]
  split
  · rename_i hEq
    rw [← hEq]
  · rfl

end

/-! ## Taking a lock -/

section

variable (h : LockInvariant c₀ c)

include h

/-- One owner takes a lock on an outpoint that is free, at the start of the block and now.
    The lock comes with a claim unless what it is taken for is already settled. -/
theorem LockInvariant.take {c' : OPoICache} (q : Owner) (claims : Bool) {x : COutPoint}
    {a : String} (hFree₀ : c₀.lockedBy x = none) (hFree : c.lockedBy x = none)
    (hClaim : ∀ o, c'.claim o = if o = q ∧ claims = true then some (x, a) else c.claim o)
    (hLock : c'.mapLockedUTXOs = c.mapLockedUTXOs.insert x a)
    (hStakes : ∀ (m : String) (s : OPoIStake), c'.mapStakes[m]? = some s → s.minerAddress = m)
    (hKeyed : ∀ key, ∀ v ∈ c'.shardVerifications key, shardKey v.requestId v.shardIndex = key)
    (hOpen : ∀ (r : String) (ch : OPoIChallenge), c₀.mapChallenges[r]? = some ch →
      ch.isOpen = true → c'.mapChallenges[r]? = c.mapChallenges[r]?)
    (hLive : ∀ (m : String) (s : OPoIStake), c.mapStakes[m]? = some s → s.isLive = true →
      ∃ s' : OPoIStake, c'.mapStakes[m]? = some s' ∧ s'.isLive = true) :
    LockInvariant c₀ c' := by
  have hTable : ∀ y, c'.lockedBy y = if x = y then some a else c.lockedBy y := by
    intro y
    simp [lockedBy, hLock]
  -- Nobody claims the outpoint yet, so every old claim keeps its lock.
  have hApart : ∀ o y b, c.claim o = some (y, b) → x ≠ y := by
    rintro o y b hOwn rfl
    exact h.consistent.not_claimed_of_free hFree o b hOwn
  refine ⟨⟨?_, hStakes, hKeyed⟩, ?_, ?_, ?_, ?_⟩
  · cases hClaims : claims with
    | false =>
      simp only [hClaims, Bool.false_eq_true, and_false, if_false] at hClaim
      refine h.consistent.shrink (fun o y b hOwn => by rw [← hClaim]; exact hOwn) ?_
      intro o y b hOwn
      rw [hClaim] at hOwn
      rw [hTable, if_neg (hApart o y b hOwn)]
    | true =>
      simp only [hClaims, and_true] at hClaim
      refine h.consistent.take (q := q) (a := a) hFree (fun o hNe y b hOwn => ?_) ?_ ?_
        fun y hy => ?_
      · rw [hClaim, if_neg hNe] at hOwn
        exact hOwn
      · rw [hClaim, if_pos rfl]
      · rw [hTable, if_pos rfl]
      · rw [hTable, if_neg hy.symm]
  · intro o y b hOwn
    rw [hClaim] at hOwn
    split at hOwn
    · cases hOwn
      exact .inr hFree₀
    · exact h.fresh o y b hOwn
  · intro y b hLocked
    have hNe : x ≠ y := by
      rintro rfl
      rw [hFree₀] at hLocked
      cases hLocked
    rw [hTable, if_neg hNe]
    exact h.lockKept y b hLocked
  · intro r ch hCh hOpened
    rw [hOpen r ch hCh hOpened]
    exact h.openKept r ch hCh hOpened
  · intro m s hStake hAlive
    obtain ⟨s', hStake', hAlive'⟩ := h.liveKept m s hStake hAlive
    exact hLive m s' hStake' hAlive'

theorem LockInvariant.stake (hFree₀ : c₀.lockedBy tx.opoiCollateralIn = none)
    (hFree : c.lockedBy tx.opoiCollateralIn = none) :
    LockInvariant c₀ (applyStake env blockHeight c tx) := by
  refine h.take (.stake tx.opoiMinerAddress) true hFree₀ hFree
    (fun o => by simp [claim_applyStake]) rfl ?_ h.shardKeyed (fun _ _ _ _ => rfl) ?_
  · intro m s hGet
    simp only [applyStake, addStake, lockUTXO, getElem?_insert_eq] at hGet
    split at hGet
    · rename_i hEq
      cases hGet
      exact hEq
    · exact h.stakeKeyed m s hGet
  · intro m s hGet hLive
    simp only [applyStake, addStake, lockUTXO, getElem?_insert_eq]
    split
    · exact ⟨_, rfl, rfl⟩
    · exact ⟨s, hGet, hLive⟩

theorem LockInvariant.challengeCommit (hFree₀ : c₀.lockedBy tx.opoiChallengerCollateralIn = none)
    (hFree : c.lockedBy tx.opoiChallengerCollateralIn = none)
    (hClosed : ∀ ch, c₀.mapChallenges[tx.opoiRequestId]? = some ch → ch.isOpen = false) :
    LockInvariant c₀ (applyChallengeCommit env blockHeight c tx) := by
  -- The count of challenged responses is the last, quiet part of the handler.
  refine SameLocks.invariant (.modifyResponderStake fun s => rfl) ?_
  refine h.take (.challenge tx.opoiRequestId) true hFree₀ hFree
    (fun o => by simp [claim_openChallenge]) rfl h.stakeKeyed h.shardKeyed ?_
    fun m s hGet hLive => ⟨s, hGet, hLive⟩
  intro r ch hCh hOpen
  have hr : tx.opoiRequestId ≠ r := by
    rintro rfl
    rw [hClosed ch hCh] at hOpen
    cases hOpen
  simp [addChallenge, lockUTXO, openedChallenge, hr]

section

variable {v : AuditorVerification} (hNull : v.auditorCollateral.isNull = false)
  (hFree₀ : c₀.lockedBy v.auditorCollateral = none)

include hNull hFree₀

theorem LockInvariant.auditorVerification
    (hFree : (c.getAuditorVerifications v.requestId).any (·.auditorAddress == v.auditorAddress) =
      false → c.lockedBy v.auditorCollateral = none) :
    LockInvariant c₀ (c.addAuditorVerification v) := by
  cases hVoted : (c.getAuditorVerifications v.requestId).any
      (·.auditorAddress == v.auditorAddress) with
  | true => exact (sameLocks_addAuditorVerification hVoted).invariant h
  | false =>
    refine h.take (.vote v.requestId (c.getAuditorVerifications v.requestId).length)
      (!c.isAuditorResolved v.requestId) (a := v.auditorAddress) hFree₀ (hFree hVoted) (fun o => ?_)
      ?_ ?_ ?_ ?_ ?_
    · rw [claim_addAuditorVerification hNull hVoted]
      simp [AuditorVerification.claim]
    all_goals rw [addAuditorVerification_of_new hVoted hNull]
    · exact h.stakeKeyed
    · exact h.shardKeyed
    · exact fun _ _ _ _ => rfl
    · exact fun m s hGet hLive => ⟨s, hGet, hLive⟩

theorem LockInvariant.shardAuditorVerification
    (hFree : (c.shardVerifications (shardKey v.requestId v.shardIndex)).any
      (·.auditorAddress == v.auditorAddress) = false → c.lockedBy v.auditorCollateral = none) :
    LockInvariant c₀ (c.addShardAuditorVerification v.requestId v.shardIndex v) := by
  generalize hKey : shardKey v.requestId v.shardIndex = key at hFree
  cases hVoted : (c.shardVerifications key).any (·.auditorAddress == v.auditorAddress) with
  | true => exact (sameLocks_addShardAuditorVerification hKey hVoted).invariant h
  | false =>
    refine h.take (.shardVote key (c.shardVerifications key).length)
      (!c.setResolvedShardAuditorVerifications.contains key) (a := v.auditorAddress) hFree₀
      (hFree hVoted) (fun o => ?_) ?_ ?_ ?_ ?_ ?_
    · rw [claim_addShardAuditorVerification hKey hNull hVoted]
      simp [AuditorVerification.claim]
    all_goals
      subst hKey
      rw [addShardAuditorVerification_of_new hVoted hNull]
    · exact h.stakeKeyed
    · intro k w hMem
      rw [shardVerifications, getD_insert_eq] at hMem
      split at hMem
      · rename_i hEq
        subst hEq
        rcases List.mem_append.mp hMem with hOld | hNew
        · exact h.shardKeyed _ w hOld
        · rw [List.mem_singleton] at hNew
          rw [hNew]
      · exact h.shardKeyed k w hMem
    · exact fun _ _ _ _ => rfl
    · exact fun m s hGet hLive => ⟨s, hGet, hLive⟩

end

end

/-! ## Settling a challenge -/

theorem revealOutcome_eq_pending :
    revealOutcome env c tx = .revealedPending ↔
      isVerifiableRequest c tx.opoiRequestId = true ∧
        c.getAuditorMajorityResult tx.opoiRequestId env.params.nOPoIMinAuditors
          ≠ some AUDITOR_VERIFY_FAIL ∧
        c.getAuditorMajorityResult tx.opoiRequestId env.params.nOPoIMinAuditors
          ≠ some AUDITOR_VERIFY_PASS := by
  unfold revealOutcome AUDITOR_VERIFY_FAIL AUDITOR_VERIFY_PASS
  split
  · rename_i hVerifiable
    split
    · rename_i hFail
      simp [hFail]
    · rename_i hPass
      simp [hPass]
    · rename_i hFail hPass
      exact iff_of_true rfl ⟨hVerifiable, hFail, hPass⟩
  · rename_i hOpen
    simp [hOpen]

theorem slashed_lockView (m : String) :
    (if revealOutcome env c tx = .slashed then responderStakes c tx.opoiRequestId slashStake
      else c.mapStakes)[m]?.map OPoIStake.lockView = c.mapStakes[m]?.map OPoIStake.lockView := by
  split
  · rw [getElem?_responderStakes]
    split
    · rw [Option.map_map]
      congr 1
      funext s
      exact slashStake_lockView s
    · rfl
  · rfl

theorem claim_applyChallengeReveal {ch : OPoIChallenge}
    (hCh : c.mapChallenges[tx.opoiRequestId]? = some ch) (o : Owner) :
    (applyChallengeReveal env c tx).claim o =
      if o = .challenge tx.opoiRequestId then
        { revealedChallenge env tx ch with challengeStatus := revealOutcome env c tx }.claim
      else c.claim o := by
  have hQuiet : SameLocks { c with
      mapLockedUTXOs := (applyChallengeReveal env c tx).mapLockedUTXOs
      mapChallenges := c.mapChallenges.modify tx.opoiRequestId fun ch =>
        { revealedChallenge env tx ch with challengeStatus := revealOutcome env c tx } }
      (applyChallengeReveal env c tx) := by
    rw [applyChallengeReveal_eq env c tx hCh]
    refine ⟨fun m => ?_, rfl, rfl, fun _ => rfl, fun _ => rfl, rfl, rfl⟩
    exact slashed_lockView m
  rw [hQuiet.claim_eq]
  cases o with
  | stake m => rfl
  | challenge r =>
    by_cases hr : tx.opoiRequestId = r
    · subst hr
      simp [OPoICache.claim, hCh]
    · simp [OPoICache.claim, hr, Ne.symm hr]
  | vote r i => rfl
  | shardVote key i => rfl

section

variable (h : LockInvariant c₀ c) (hPre : LockDiscipline c₀)

include h hPre

theorem LockInvariant.claim_of_open {r : String} {ch : OPoIChallenge}
    (hCh : c₀.mapChallenges[r]? = some ch) (hOpen : ch.isOpen = true) {o : Owner} {a : String}
    (hOwn : c.claim o = some (ch.challengerCollateral, a)) : o = .challenge r := by
  have hClaim : c₀.claim (.challenge r) = some (ch.challengerCollateral, ch.challengerAddress) := by
    simp [OPoICache.claim, hCh, OPoIChallenge.claim, hOpen]
  rcases h.fresh _ _ _ hOwn with hOld | hFree
  · exact hPre.consistent.exclusive hOld hClaim
  · rw [hPre.consistent.backed hClaim] at hFree
    cases hFree

/-- A challenge that was open at the start of the block changes its status. Its outpoint may
    be released when it no longer claims it, and must be locked while it does. -/
theorem LockInvariant.settle {r : String} {ch : OPoIChallenge}
    (hCh : c₀.mapChallenges[r]? = some ch) (hOpen : ch.isOpen = true)
    {f : OPoIChallenge → OPoIChallenge} {locked : Std.ExtTreeMap COutPoint String}
    {locking : Std.ExtTreeMap COutPoint Uint256}
    (hCollateral : ∀ cur, (f cur).challengerCollateral = cur.challengerCollateral)
    (hAddress : ∀ cur, (f cur).challengerAddress = cur.challengerAddress)
    (hKeep : ∀ x, x ≠ ch.challengerCollateral → locked[x]? = c.mapLockedUTXOs[x]?)
    (hClaims : ∀ cur, c.mapChallenges[r]? = some cur → (f cur).claim ≠ none →
      locked[ch.challengerCollateral]? = some ch.challengerAddress)
    (hReleased : locked[ch.challengerCollateral]? = c.mapLockedUTXOs[ch.challengerCollateral]? ∨
      locked[ch.challengerCollateral]? = none) :
    LockInvariant c₀ { c with
      mapChallenges := c.mapChallenges.modify r f
      mapLockedUTXOs := locked
      mapLockingTxHash := locking } := by
  obtain ⟨cur, hCur, hCurCollateral, hCurAddress⟩ := h.openKept r ch hCh hOpen
  have hClaim₀ : c₀.claim (.challenge r) = some (ch.challengerCollateral,
    ch.challengerAddress) := by
    simp [OPoICache.claim, hCh, OPoIChallenge.claim, hOpen]
  generalize hc' : ({ c with
      mapChallenges := c.mapChallenges.modify r f
      mapLockedUTXOs := locked
      mapLockingTxHash := locking } : OPoICache) = c'
  have hOther : ∀ o, o ≠ .challenge r → c'.claim o = c.claim o := by
    intro o hNe
    subst hc'
    cases o with
    | stake m => rfl
    | challenge r' =>
      have hr : r ≠ r' := fun hEq => hNe (by rw [hEq])
      simp [OPoICache.claim, hr]
    | vote r' i => rfl
    | shardVote key i => rfl
  -- The only claim of the challenge is the one it had at the start of the block.
  have hOwn : ∀ y b, c'.claim (.challenge r) = some (y, b) →
      y = ch.challengerCollateral ∧ b = ch.challengerAddress ∧
        locked[ch.challengerCollateral]? = some ch.challengerAddress := by
    intro y b hClaim
    have hGet : c'.claim (.challenge r) = (f cur).claim := by
      simp [← hc', OPoICache.claim, hCur]
    rw [hGet] at hClaim
    have hValue : (f cur).claim = some (ch.challengerCollateral, ch.challengerAddress) := by
      unfold OPoIChallenge.claim at hClaim ⊢
      split at hClaim
      · rename_i hActive
        rw [if_pos hActive, hCollateral, hAddress, hCurCollateral, hCurAddress]
      · cases hClaim
    rw [hValue] at hClaim
    cases hClaim
    exact ⟨rfl, rfl, hClaims cur hCur (by rw [hValue]; exact Option.some_ne_none _)⟩
  have hLockedBy : ∀ x, c'.lockedBy x = locked[x]? := by
    intro x
    rw [← hc']
    rfl
  have hFresh : ∀ o y b, c'.claim o = some (y, b) →
      c₀.claim o = some (y, b) ∨ c₀.lockedBy y = none := by
    intro o y b hClaim
    by_cases ho : o = .challenge r
    · subst ho
      obtain ⟨rfl, rfl, _⟩ := hOwn y b hClaim
      exact .inl hClaim₀
    · rw [hOther o ho] at hClaim
      exact h.fresh o y b hClaim
  -- Nobody else claims the outpoint of the challenge.
  have hApart : ∀ o y b, o ≠ .challenge r → c'.claim o = some (y, b) →
      y ≠ ch.challengerCollateral := by
    intro o y b hNe hClaim hEq
    subst hEq
    rw [hOther o hNe] at hClaim
    exact hNe (h.claim_of_open hPre hCh hOpen hClaim)
  refine ⟨⟨⟨?_, ?_⟩, ?_, ?_⟩, hFresh, ?_, ?_, ?_⟩
  · intro o o' x a a' h₁ h₂
    by_cases ho : o = .challenge r
    · subst ho
      obtain ⟨rfl, _, _⟩ := hOwn x a h₁
      by_contra hNe
      exact hApart o' _ a' (fun hEq => hNe hEq.symm) h₂ rfl
    · by_cases ho' : o' = .challenge r
      · subst ho'
        obtain ⟨rfl, _, _⟩ := hOwn x a' h₂
        exact absurd rfl (hApart o _ a ho h₁)
      · rw [hOther o ho] at h₁
        rw [hOther o' ho'] at h₂
        exact h.consistent.exclusive h₁ h₂
  · intro o x a hClaim
    rw [hLockedBy]
    by_cases ho : o = .challenge r
    · subst ho
      obtain ⟨rfl, rfl, hLocked⟩ := hOwn x a hClaim
      exact hLocked
    · rw [hKeep x (hApart o x a ho hClaim)]
      rw [hOther o ho] at hClaim
      exact h.consistent.backed hClaim
  · subst hc'
    exact h.stakeKeyed
  · subst hc'
    exact h.shardKeyed
  · intro x a hLocked₀
    rw [hLockedBy]
    by_cases hx : x = ch.challengerCollateral
    · subst hx
      rcases hReleased with hSame | hNone
      · rw [hSame]
        exact h.lockKept _ a hLocked₀
      · exact .inr hNone
    · rw [hKeep x hx]
      exact h.lockKept x a hLocked₀
  · intro r' ch' hCh' hOpen'
    obtain ⟨cur', hCur', hCollateral', hAddress'⟩ := h.openKept r' ch' hCh' hOpen'
    by_cases hr : r = r'
    · refine ⟨f cur', by simp [← hc', hr, hCur'], ?_, ?_⟩
      · rw [hCollateral, hCollateral']
      · rw [hAddress, hAddress']
    · exact ⟨cur', by simp [← hc', hr, hCur'], hCollateral', hAddress'⟩
  · subst hc'
    exact h.liveKept

theorem LockInvariant.challengeReveal {ch : OPoIChallenge}
    (hCh : c₀.mapChallenges[tx.opoiRequestId]? = some ch) (hOpen : ch.isOpen = true)
    (hLocked : revealOutcome env c tx = .revealedPending →
      c.lockedBy ch.challengerCollateral ≠ none) :
    LockInvariant c₀ (applyChallengeReveal env c tx) := by
  obtain ⟨cur, hCur, hCollateral, _⟩ := h.openKept _ ch hCh hOpen
  have hBacked : c₀.lockedBy ch.challengerCollateral = some ch.challengerAddress := by
    apply hPre.consistent.backed (o := .challenge tx.opoiRequestId)
    simp [OPoICache.claim, hCh, OPoIChallenge.claim, hOpen]
  rw [applyChallengeReveal_eq env c tx hCur, hCollateral]
  -- The slash of the responder is quiet; what is left is the change of the challenge.
  refine SameLocks.invariant (c := { c with
      mapChallenges := c.mapChallenges.modify tx.opoiRequestId fun ch =>
        { revealedChallenge env tx ch with challengeStatus := revealOutcome env c tx }
      mapLockedUTXOs :=
        if revealOutcome env c tx = .slashed ∨ revealOutcome env c tx = .resolvedNoOracle then
          c.mapLockedUTXOs.erase ch.challengerCollateral
        else c.mapLockedUTXOs }) ⟨fun m => ?_, rfl, rfl, fun _ => rfl, fun _ => rfl, rfl, rfl⟩
    (h.settle hPre hCh hOpen (fun _ => rfl) (fun _ => rfl) (fun x hx => ?_)
      (fun cur hCur hOwn => ?_) ?_)
  · exact slashed_lockView m
  · split
    · simp [hx.symm]
    · rfl
  · -- The challenge still claims its outpoint, so it was left pending.
    have hPending : revealOutcome env c tx = .revealedPending := by
      unfold OPoIChallenge.claim at hOwn
      split at hOwn
      · rename_i hActive
        simp only [OPoIChallenge.isOpen, OPoIChallenge.isPendingResolution, Bool.or_eq_true,
          beq_iff_eq] at hActive
        rcases hActive with hOpened | hPending
        · unfold revealOutcome at hOpened
          split at hOpened
          · split at hOpened
            · cases hOpened
            · cases hOpened
            · cases hOpened
          · cases hOpened
        · exact hPending
      · exact absurd rfl hOwn
    simp only [hPending, reduceCtorEq, or_self, if_false]
    rcases h.lockKept _ _ hBacked with hSome | hNone
    · exact hSome
    · exact absurd hNone (hLocked hPending)
  · split
    · simp
    · exact .inl rfl

end

end Apply

end CloudService
