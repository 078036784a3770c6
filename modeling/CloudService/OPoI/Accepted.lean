/-
  What `CheckOPoITransaction` guarantees about a transaction it accepts, outside
  the start-up verification: one lemma for each transaction type, about the cache
  that it was checked against.
-/

import CloudService.OPoI.Check

namespace CloudService

section Accepted

variable {env : Env} {chainActive : List Uint256} {c : OPoICache} {tx : CTransaction}

@[simp] theorem unlessVerifying_false (check : Checked Unit) :
    unlessVerifying false check = check := rfl

theorem requireSig_eq_ok {address message reason : String}
    (h : requireSig env tx address message reason = .ok ()) :
    (env.verifyOPoISig address message tx.opoiSig).isSome = true := by
  simpa [requireSig, Option.isNone_iff_eq_none, Option.isSome_iff_ne_none] using h

theorem requireUnlocked_eq_ok {out : COutPoint} {knownReason lockedReason : String}
    (h : requireUnlocked env false c tx out knownReason lockedReason = .ok ()) :
    c.isLockedUTXO out = false := by
  simp only [requireUnlocked, check_bind_eq_ok, rejectIf_eq_ok, Bool.not_false, Bool.true_and] at h
  exact h.2

theorem checkOPoITransaction_branch
    (h : checkOPoITransaction env false chainActive c tx = .ok ()) (hOPoI : tx.isOPoITx = true) :
    (match tx.opoiType with
    | .request => checkRequest env false c tx
    | .response => checkResponse env false chainActive c tx
    | .stake => checkStake env false c tx
    | .unstake => checkUnstake env false c tx
    | .renew => checkRenew env false c tx
    | .challenge => checkChallenge env false c tx
    | .modelRegister => checkModelRegister env false c tx
    | .modelVote => checkModelVote env false c tx
    | .coordinatorClaim => checkCoordinatorClaim env false chainActive c tx
    | .shardResult => checkShardResult env false chainActive c tx
    | .auditorVerify => checkAuditorVerify env false c tx
    | .unknown => .error (dos 10 "bad-txns-opoi-invalid-type")) = .ok () := by
  have hVersion := tx.nVersion_of_isOPoITx hOPoI
  unfold checkOPoITransaction at h
  rw [if_neg (not_not.mpr hVersion), check_bind_eq_ok, rejectIf_eq_ok] at h
  exact h.2

theorem checkStake_eq_ok (h : checkStake env false c tx = .ok ()) :
    0 < tx.opoiPayment ∧ c.isLockedUTXO tx.opoiCollateralIn = false ∧
      (env.verifyOPoISig tx.opoiMinerAddress (stakeSigMsg tx) tx.opoiSig).isSome = true := by
  simp only [checkStake, check_bind_eq_ok, rejectIf_eq_ok, decide_eq_false_iff_not, Int.not_le] at h
  obtain ⟨_, _, hAmount, hUnlocked, hSig⟩ := h
  exact ⟨hAmount, requireUnlocked_eq_ok hUnlocked, requireSig_eq_ok hSig⟩

theorem checkRenew_eq_ok (h : checkRenew env false c tx = .ok ()) :
    ∃ s, c.mapStakes[tx.opoiMinerAddress]? = some s ∧
      (s.stakeStatus = .active ∨ s.stakeStatus = .suspended) := by
  simp only [checkRenew, check_bind_eq_ok, rejectIf_eq_ok, Bool.not_false, Bool.true_and,
    Bool.not_eq_false', Option.any_eq_true] at h
  obtain ⟨_, ⟨s, hStake, hStatus⟩, _⟩ := h
  exact ⟨s, hStake, by simpa using hStatus⟩

theorem checkChallenge_eq_ok (h : checkChallenge env false c tx = .ok ()) :
    tx.opoiChallengerCollateralIn.isNull = false ∧
      (c.mapResponses[tx.opoiRequestId]?).isSome = true ∧
      (if tx.opoiChallengePhase = 0 then checkChallengeCommit env false c tx
        else checkChallengeReveal env false c tx) = .ok () := by
  simp only [checkChallenge, check_bind_eq_ok, rejectIf_eq_ok, Bool.not_false, Bool.true_and] at h
  obtain ⟨_, _, hNull, hResponse, hPhase⟩ := h
  exact ⟨hNull, by simpa [Option.isSome_iff_ne_none] using hResponse, hPhase⟩

theorem checkChallengeCommit_eq_ok (h : checkChallengeCommit env false c tx = .ok ()) :
    c.isLockedUTXO tx.opoiChallengerCollateralIn = false ∧
      (∀ ch, c.mapChallenges[tx.opoiRequestId]? = some ch → ch.isOpen = false) ∧
      (env.verifyOPoISig tx.opoiRequester (challengeCommitSigMsg tx) tx.opoiSig).isSome = true := by
  simp only [checkChallengeCommit, check_bind_eq_ok, rejectIf_eq_ok, Bool.not_false,
    Bool.true_and, Option.any_eq_false] at h
  obtain ⟨_, hUnlocked, hOpen, hSig⟩ := h
  refine ⟨requireUnlocked_eq_ok hUnlocked, fun ch hCh => ?_, requireSig_eq_ok hSig⟩
  simpa using hOpen ch hCh

theorem checkChallengeReveal_eq_ok (h : checkChallengeReveal env false c tx = .ok ()) :
    ∃ ch, c.mapChallenges[tx.opoiRequestId]? = some ch ∧ ch.isOpen = true ∧
      ch.challengerAddress = tx.opoiRequester := by
  simp only [checkChallengeReveal, check_bind_eq_ok, rejectIf_eq_ok, Bool.not_false, Bool.true_and,
    Bool.not_eq_false', Option.any_eq_true] at h
  obtain ⟨_, _, ⟨ch, hCh, hOpen⟩, hAddress, _⟩ := h
  refine ⟨ch, hCh, hOpen, ?_⟩
  simpa [hCh] using hAddress

theorem checkAuditorVerify_eq_ok (h : checkAuditorVerify env false c tx = .ok ()) :
    tx.opoiAuditorCollateralIn.isNull = false ∧
      c.isLockedUTXO tx.opoiAuditorCollateralIn = false ∧
      (env.verifyOPoISig tx.opoiAuditorAddress (auditorVerifySigMsg tx) tx.opoiSig).isSome
        = true := by
  simp only [checkAuditorVerify, check_bind_eq_ok, rejectIf_eq_ok] at h
  obtain ⟨_, _, _, hNull, _, hUnlocked, hSig⟩ := h
  exact ⟨hNull, requireUnlocked_eq_ok hUnlocked, requireSig_eq_ok hSig⟩

theorem checkRequest_eq_ok (h : checkRequest env false c tx = .ok ()) :
    c.mapRequests[tx.opoiRequestId]? = none ∧ 0 < tx.opoiPayment := by
  simp only [checkRequest, check_bind_eq_ok, rejectIf_eq_ok, Bool.not_false, Bool.true_and,
    decide_eq_false_iff_not, Int.not_le] at h
  obtain ⟨_, _, _, _, hPayment, _, hNew, _⟩ := h
  exact ⟨by simpa only [Option.isSome_eq_false_iff, Option.isNone_iff_eq_none] using hNew, hPayment⟩

end Accepted

end CloudService
