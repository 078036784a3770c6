/-
  Burned collateral stays burned: it is locked and nobody claims it, as long as no lock is
  taken twice and nothing is settled twice.
-/

import CloudService.Locks.Slashing
import CloudService.OPoI.TxEffects

namespace CloudService

open OPoICache TreeMap

variable {ch : OPoIChallenge} {r : String}

/-- The outpoint is the collateral of a SLASHED vote or of an EXPIRED challenge. -/
inductive Burned (c : OPoICache) : COutPoint → Prop where
  | vote {r : String} {v : AuditorVerification} (hMem : v ∈ c.getAuditorVerifications r)
      (hStatus : v.status = .slashed) : Burned c v.auditorCollateral
  | shardVote {key : String} {v : AuditorVerification} (hMem : v ∈ c.shardVerifications key)
      (hStatus : v.status = .slashed) : Burned c v.auditorCollateral
  | challenge {r : String} {ch : OPoIChallenge} (hCh : c.mapChallenges[r]? = some ch)
      (hStatus : ch.challengeStatus = .expired) : Burned c ch.challengerCollateral

/-- The outpoint is locked, and no record has a claim on it. -/
structure Unclaimed (c : OPoICache) (x : COutPoint) (a : String) : Prop where
  locked : c.lockedBy x = some a
  free : ∀ o b, c.claim o ≠ some (x, b)

/-- Burned, or the collateral of a challenge that was open at the start of the block and is EXPIRED
    now. -/
structure BurnedFor (c₀ c : OPoICache) (x : COutPoint) (a : String) : Prop
    extends Unclaimed c x a where
  settled : ∀ (r : String) (ch₀ ch : OPoIChallenge), c₀.mapChallenges[r]? = some ch₀ →
    ch₀.isOpen = true → c.mapChallenges[r]? = some ch → ch.challengerCollateral = x →
    ch.challengeStatus = .expired

/-- The transaction locks only an outpoint that is free at this moment. -/
def locksFree (c : OPoICache) (tx : CTransaction) : Bool :=
  (c.lockOf tx).all fun lock => !c.isLockedUTXO lock.1

/-- A REVEAL finds its challenge open or waiting for the auditors, or gives it the status that
    it has. -/
def settlesOnce (env : Env) (c : OPoICache) (tx : CTransaction) : Bool :=
  (c.revealedBy tx).all fun ch =>
    ch.isOpen || ch.isPendingResolution || revealOutcome env c tx == ch.challengeStatus

/-- The transaction locks free outputs only and settles no challenge again. -/
def BurnSafe (env : Env) (_ : NodeState) (st : LoopState) (tx : CTransaction) : Prop :=
  tx.isOPoITx = true → locksFree st.cache tx = true ∧ settlesOnce env st.cache tx = true
deriving Decidable

section Burned

variable {env : Env} {node : NodeState} {chainActive : List Uint256} {blockHeight : Nat}
  {c c' : OPoICache} {tx : CTransaction} {x : COutPoint} {a : String}

theorem OPoIChallenge.claim_of_unsettled (h : (ch.isOpen || ch.isPendingResolution) = true) :
    ch.claim = some (ch.challengerCollateral, ch.challengerAddress) := by
  rw [OPoIChallenge.claim, if_pos h]

theorem claim_challenge (hCh : c.mapChallenges[r]? = some ch)
    (h : (ch.isOpen || ch.isPendingResolution) = true) :
    c.claim (.challenge r) = some (ch.challengerCollateral, ch.challengerAddress) := by
  simp only [OPoICache.claim, hCh, Option.bind_some]
  exact ch.claim_of_unsettled h

/-- The condition includes the one of the lock discipline: an undecided REVEAL finds the
    collateral locked, because its challenge still has its claim. -/
theorem lockSafe_of_burnSafe (h : LockDiscipline c) (hFree : locksFree c tx = true)
    (hOnce : settlesOnce env c tx = true) : lockSafe env c tx = true := by
  rw [lockSafe, Bool.and_eq_true]
  constructor
  · unfold locksFree at hFree
    cases hOf : c.lockOf tx with
    | none => rfl
    | some lock =>
      rw [hOf, Option.all_some] at hFree
      exact hFree
  · cases hUndecided : isUndecidedReveal env c tx with
    | false => rfl
    | true =>
      simp only [isUndecidedReveal, Bool.and_eq_true, bne_iff_ne, beq_iff_eq, ne_eq]
        at hUndecided
      obtain ⟨⟨⟨⟨hType, hReveal⟩, hVerifiable⟩, hFail⟩, hPass⟩ := hUndecided
      have hPending : revealOutcome env c tx = .revealedPending :=
        revealOutcome_eq_pending.mpr ⟨hVerifiable, hFail, hPass⟩
      simp only [settlesOnce, revealedBy, hType, hReveal, ne_eq, not_false_eq_true,
        and_self, if_true] at hOnce
      cases hCh : c.mapChallenges[tx.opoiRequestId]? with
      | none => rfl
      | some ch =>
        have hUnsettled : (ch.isOpen || ch.isPendingResolution) = true := by
          rw [hCh, Option.all_some, hPending, Bool.or_eq_true] at hOnce
          rcases hOnce with hUnsettled | hSame
          · exact hUnsettled
          · rw [beq_iff_eq] at hSame
            simp [OPoIChallenge.isPendingResolution, ← hSame]
        have hLocked := h.consistent.backed (claim_challenge hCh hUnsettled)
        simp only [Bool.not_true, Bool.false_or, isLockedUTXO,
          Std.ExtTreeMap.contains_eq_isSome_getElem?]
        rw [lockedBy] at hLocked
        rw [hLocked]
        rfl

/-! ## One transaction -/

theorem Unclaimed.not_unsettled (h : Unclaimed c x a)
    (hCh : c.mapChallenges[r]? = some ch) (hCollateral : ch.challengerCollateral = x) :
    (ch.isOpen || ch.isPendingResolution) = false := by
  rw [Bool.eq_false_iff]
  intro hUnsettled
  exact h.free _ _ (hCollateral ▸ claim_challenge hCh hUnsettled)

section

variable (h : BurnedFor node.cache c x a) (hInv : LockInvariant node.cache c)
  (hTx : AcceptedTx env node tx) (hOPoI : tx.isOPoITx = true)

include h hInv hTx hOPoI

theorem BurnedFor.reveal_expires (hOnce : settlesOnce env c tx = true)
    (hCh : c.revealedBy tx = some ch) (hCollateral : ch.challengerCollateral = x) :
    ch.challengeStatus = .expired ∧ revealOutcome env c tx = .expired := by
  obtain ⟨ch₀, hCh₀, hOpen, _⟩ := hTx.revealedBy_open hOPoI hInv hCh
  rw [settlesOnce, hCh, Option.all_some, Bool.or_eq_true] at hOnce
  unfold revealedBy at hCh
  split at hCh
  · have hExpired := h.settled _ ch₀ ch hCh₀ hOpen hCh hCollateral
    rw [h.not_unsettled hCh hCollateral, hExpired, beq_iff_eq] at hOnce
    exact ⟨hExpired, hOnce.resolve_left (by simp)⟩
  · cases hCh

theorem BurnedFor.apply (hLock : lockSafe env c tx = true) (hOnce : settlesOnce env c tx = true) :
    BurnedFor node.cache (applyOPoITransaction env node.chainActive node.nextHeight c tx) x a := by
  have hApart := lockSafe_apart hLock h.locked
  refine ⟨⟨lockedBy_kept (hTx.auditor_not_null hOPoI) h.locked hApart fun ch hCh hEq =>
    (h.reveal_expires hInv hTx hOPoI hOnce hCh hEq).2, fun o b hOwn => ?_⟩, ?_⟩
  · rcases claim_applyOPoITransaction (hTx.auditor_not_null hOPoI) (hTx.renew_live hOPoI hInv) hOwn
      with hOld | hOf | ⟨ch, hCh, hEq, hOutcome⟩
    · exact h.free o b hOld
    · exact hApart (x, b) hOf rfl
    · exact hOutcome (h.reveal_expires hInv hTx hOPoI hOnce hCh hEq).2
  · intro r ch₀ ch hCh₀ hOpen hCh hCollateral
    rcases mapChallenges_cases env node.chainActive node.nextHeight c tx with
      ⟨hType, hCommit, hMap⟩ | ⟨hType, hReveal, hMap⟩ | ⟨_, hMap⟩
    · rw [hMap, getElem?_insert_eq] at hCh
      split at hCh
      · -- a COMMIT locks its own collateral, which is another outpoint
        cases hCh
        refine absurd hCollateral (hApart (tx.opoiChallengerCollateralIn, tx.opoiRequester) ?_)
        simp [lockOf, hType, hCommit]
      · exact h.settled r ch₀ ch hCh₀ hOpen hCh hCollateral
    · rw [hMap, getElem?_modify_eq] at hCh
      split at hCh
      · rename_i hId
        obtain ⟨old, hOld, rfl⟩ := Option.map_eq_some_iff.mp hCh
        have hRevealed : c.revealedBy tx = some old := by
          simp [revealedBy, hType, hReveal, hId, hOld]
        exact (h.reveal_expires hInv hTx hOPoI hOnce hRevealed hCollateral).2
      · exact h.settled r ch₀ ch hCh₀ hOpen hCh hCollateral
    · rw [hMap] at hCh
      exact h.settled r ch₀ ch hCh₀ hOpen hCh hCollateral

end

theorem slashed_of_mem_addVote {verifs : List AuditorVerification} {v w : AuditorVerification}
    (hMem : w ∈ addVote verifs v) (hNew : v.status = .pending)
    (hSlashed : w.status = .slashed) : w ∈ verifs := by
  unfold addVote at hMem
  split at hMem
  · exact hMem
  · rcases List.mem_append.mp hMem with hOld | hLast
    · exact hOld
    · rw [List.mem_singleton.mp hLast, hNew] at hSlashed
      cases hSlashed

theorem burned_apply (h : Burned (applyOPoITransaction env chainActive blockHeight c tx) x) :
    Burned c x ∨ ∃ ch, c.revealedBy tx = some ch ∧ ch.challengerCollateral = x ∧
      revealOutcome env c tx = .expired := by
  cases h with
  | @vote r v hMem hStatus =>
    left
    rcases votes_cases env chainActive blockHeight c tx with ⟨_, _, hMap, _⟩ | ⟨_, _, hMap, _⟩ |
      ⟨_, hMap, _⟩
    · rw [getAuditorVerifications, hMap, getD_insert_eq] at hMem
      split at hMem
      · exact .vote (slashed_of_mem_addVote hMem rfl hStatus) hStatus
      · exact .vote hMem hStatus
    · rw [getAuditorVerifications, hMap] at hMem
      exact .vote hMem hStatus
    · rw [getAuditorVerifications, hMap] at hMem
      exact .vote hMem hStatus
  | @shardVote key v hMem hStatus =>
    left
    rcases votes_cases env chainActive blockHeight c tx with ⟨_, _, _, hMap⟩ | ⟨_, _, _, hMap⟩ |
      ⟨_, _, hMap⟩
    · rw [shardVerifications, hMap] at hMem
      exact .shardVote hMem hStatus
    · rw [shardVerifications, hMap, getD_insert_eq] at hMem
      split at hMem
      · exact .shardVote (slashed_of_mem_addVote hMem rfl hStatus) hStatus
      · exact .shardVote hMem hStatus
    · rw [shardVerifications, hMap] at hMem
      exact .shardVote hMem hStatus
  | @challenge r ch hCh hStatus =>
    rcases mapChallenges_cases env chainActive blockHeight c tx with ⟨_, _, hMap⟩ |
      ⟨hType, hReveal, hMap⟩ | ⟨_, hMap⟩
    · rw [hMap, getElem?_insert_eq] at hCh
      split at hCh
      · cases hCh
        cases hStatus
      · exact .inl (.challenge hCh hStatus)
    · rw [hMap, getElem?_modify_eq] at hCh
      split at hCh
      · rename_i hId
        obtain ⟨old, hOld, rfl⟩ := Option.map_eq_some_iff.mp hCh
        exact .inr ⟨old, by simp [revealedBy, hType, hReveal, hId, hOld], rfl, hStatus⟩
      · exact .inl (.challenge hCh hStatus)
    · rw [hMap] at hCh
      exact .inl (.challenge hCh hStatus)

theorem burnedFor_of_reveal (hInv : LockInvariant node.cache c) (hPre : LockDiscipline node.cache)
    (hTx : AcceptedTx env node tx) (hOPoI : tx.isOPoITx = true)
    (hLock : lockSafe env c tx = true) (hCh : c.revealedBy tx = some ch)
    (hExpired : revealOutcome env c tx = .expired)
    (hUnsettled : (ch.isOpen || ch.isPendingResolution) = true) :
    ∃ a, BurnedFor node.cache (applyOPoITransaction env node.chainActive node.nextHeight c tx)
      ch.challengerCollateral a := by
  obtain ⟨ch₀, hCh₀, hOpen, hCollateral⟩ := hTx.revealedBy_open hOPoI hInv hCh
  unfold revealedBy at hCh
  split at hCh
  · rename_i hType
    have hClaim := claim_challenge hCh hUnsettled
    have hLocked := hInv.consistent.backed hClaim
    refine ⟨ch.challengerAddress, ⟨lockedBy_kept (hTx.auditor_not_null hOPoI) hLocked
      (lockSafe_apart hLock hLocked) fun _ _ _ => hExpired, fun o b hOwn => ?_⟩, ?_⟩
    · -- the only claim was that of the challenge itself
      simp only [applyOPoITransaction, hType.1] at hOwn
      rw [if_neg hType.2, claim_applyChallengeReveal hCh] at hOwn
      split at hOwn
      · simp [OPoIChallenge.claim, hExpired, OPoIChallenge.isOpen,
          OPoIChallenge.isPendingResolution] at hOwn
      · rename_i hNe
        exact hNe (hInv.consistent.exclusive hOwn hClaim)
    · intro r ch₀' ch' hCh₀' hOpen' hCh' hCollateral'
      -- another challenge that was open on the same outpoint would have the same claim
      have hSame : r = tx.opoiRequestId := by
        obtain ⟨cur, hCur, hKept, _⟩ := (hInv.apply hPre hTx hOPoI hLock).openKept r ch₀'
          hCh₀' hOpen'
        rw [hCh'] at hCur
        cases hCur
        have hFirst := claim_challenge hCh₀' (by simp [hOpen'])
        rw [← hKept, hCollateral', hCollateral] at hFirst
        have hOwner := hPre.consistent.exclusive hFirst (claim_challenge hCh₀ (by simp [hOpen]))
        cases hOwner
        rfl
      subst hSame
      simp only [applyOPoITransaction, hType.1] at hCh'
      rw [if_neg hType.2, applyChallengeReveal_eq env c tx hCh] at hCh'
      simp only [getElem?_modify_eq, if_true, hCh, Option.map_some, Option.some.injEq]
        at hCh'
      rw [← hCh']
      exact hExpired
  · cases hCh

/-! ## Passes -/

theorem Unclaimed.drop (h : Unclaimed c x a) (hDrop : LockDrop c c') : Unclaimed c' x a where
  locked := by
    rcases hDrop.locked x with hSame | ⟨_, o, b, hOwn, _⟩
    · rw [hSame]
      exact h.locked
    · exact absurd hOwn (h.free o b)
  free o b hOwn := h.free o b (hDrop.claims o x b hOwn)

def BurnedLocked (c : OPoICache) : Prop :=
  LockDiscipline c ∧ ∀ x, Burned c x → ∃ a, Unclaimed c x a

/-- Claims are given up, and what is burned now was burned before or was claimed by a record
    that gave its claim up without a release. -/
theorem BurnedLocked.step (h : BurnedLocked c) (hDrop : LockDrop c c')
    (hBurned : ∀ x, Burned c' x → Burned c x ∨ ∃ o a, c.claim o = some (x, a) ∧
      c'.claim o = none ∧ c'.lockedBy x = c.lockedBy x) : BurnedLocked c' := by
  refine ⟨hDrop.discipline h.1, fun x hx => ?_⟩
  rcases hBurned x hx with hOld | ⟨o, a, hClaim, hDropped, hLocked⟩
  · obtain ⟨a, hUnclaimed⟩ := h.2 x hOld
    exact ⟨a, hUnclaimed.drop hDrop⟩
  · refine ⟨a, by rw [hLocked]; exact h.1.consistent.backed hClaim, fun o' b hOwn => ?_⟩
    rw [h.1.consistent.exclusive (hDrop.claims o' x b hOwn) hClaim, hDropped] at hOwn
    cases hOwn

theorem Burned.of_eq (h : Burned c' x) (hChallenges : c'.mapChallenges = c.mapChallenges)
    (hVotes : c'.mapAuditorVerifications = c.mapAuditorVerifications)
    (hShards : c'.mapShardAuditorVerifications = c.mapShardAuditorVerifications) : Burned c x := by
  cases h with
  | vote hMem hStatus =>
    rw [getAuditorVerifications, hVotes] at hMem
    exact .vote hMem hStatus
  | shardVote hMem hStatus =>
    rw [shardVerifications, hShards] at hMem
    exact .shardVote hMem hStatus
  | challenge hCh hStatus =>
    rw [hChallenges] at hCh
    exact .challenge hCh hStatus

theorem BurnedLocked.quiet (h : BurnedLocked c) (hDrop : LockDrop c c')
    (hChallenges : c'.mapChallenges = c.mapChallenges)
    (hVotes : c'.mapAuditorVerifications = c.mapAuditorVerifications)
    (hShards : c'.mapShardAuditorVerifications = c.mapShardAuditorVerifications) :
    BurnedLocked c' :=
  h.step hDrop fun _ hx => .inl (hx.of_eq hChallenges hVotes hShards)

theorem BurnedLocked.expireChallenge (h : BurnedLocked c) (key : String) :
    BurnedLocked (expireChallenge env blockHeight c key) := by
  refine h.step (lockDrop_expireChallenge key) fun x hx => ?_
  rcases expireChallenge_cases env blockHeight c key with
    hEq | ⟨ch, hCh, hUnsettled, hEq⟩ | ⟨ch, hCh, _, _, hEq⟩
  · rw [hEq] at hx
    exact .inl hx
  · rw [hEq] at hx ⊢
    cases hx with
    | vote hMem hStatus => exact .inl (.vote hMem hStatus)
    | shardVote hMem hStatus => exact .inl (.shardVote hMem hStatus)
    | @challenge r ch' hCh' hStatus =>
      simp only [getElem?_modify_eq] at hCh'
      split at hCh'
      · rename_i hKey
        subst hKey
        rw [hCh] at hCh'
        rw [Option.map_some, Option.some.injEq] at hCh'
        subst hCh'
        have hClaim := claim_challenge hCh hUnsettled
        refine .inr ⟨.challenge key, ch.challengerAddress, hClaim, ?_, rfl⟩
        simp [OPoICache.claim, hCh, OPoIChallenge.claim, OPoIChallenge.isOpen,
          OPoIChallenge.isPendingResolution]
      · exact .inl (.challenge hCh' hStatus)
  · rw [hEq] at hx
    left
    cases hx with
    | vote hMem hStatus => exact .vote hMem hStatus
    | shardVote hMem hStatus => exact .shardVote hMem hStatus
    | @challenge r ch' hCh' hStatus =>
      simp only [getElem?_modify_eq] at hCh'
      split at hCh'
      · obtain ⟨_, _, rfl⟩ := Option.map_eq_some_iff.mp hCh'
        cases hStatus
      · exact .challenge hCh' hStatus

theorem exists_of_slashed {votes : StrMap (List AuditorVerification)} {key : String}
    {majority : Nat} {v : AuditorVerification} (hStatus : v.status = .slashed)
    (hMem : v ∈ (votes.modify key (·.map (resolveVote majority))).getD r []) :
    v ∈ votes.getD r [] ∨ ∃ w ∈ votes.getD key [], w.result ≠ majority ∧
      w.auditorCollateral = v.auditorCollateral := by
  rw [getD_modify_map] at hMem
  split at hMem
  · rename_i hKey
    subst hKey
    obtain ⟨w, hw, rfl⟩ := List.mem_map.mp hMem
    refine .inr ⟨w, hw, fun hSame => ?_, rfl⟩
    simp [resolveVote, hSame] at hStatus
  · exact .inl hMem

theorem BurnedLocked.resolveAuditors (h : BurnedLocked c) (requestId : String) :
    BurnedLocked (resolveAuditors env c requestId) := by
  rcases resolveAuditors_settles env c requestId with
    hEq | ⟨majority, settled, hEq, hSettled, hShards, hVotes⟩
  · rw [hEq]
    exact h
  · have hBurned : BurnedLocked settled := by
      refine h.step hSettled.lockDrop fun x hx => ?_
      cases hx with
      | @vote r v hMem hStatus =>
        rw [getAuditorVerifications, hVotes] at hMem
        rcases exists_of_slashed hStatus hMem with hOld | ⟨w, hw, hAgainst, hSame⟩
        · exact .inl (.vote hOld hStatus)
        · obtain ⟨o, hClaim, hDropped, hLocked⟩ := hSettled.minority_locked h.1 hw hAgainst
          exact .inr ⟨o, w.auditorAddress, hSame ▸ hClaim, hDropped, hSame ▸ hLocked⟩
      | shardVote hMem hStatus =>
        rw [shardVerifications, hShards] at hMem
        exact .inl (.shardVote hMem hStatus)
      | challenge hCh hStatus =>
        rw [hSettled.challenges] at hCh
        exact .inl (.challenge hCh hStatus)
    rw [hEq]
    obtain ⟨_, hCanary⟩ := resolveCanary_eq settled majority requestId
    refine hBurned.quiet (.of_sameLocks sameLocks_resolveCanary stakesEvolve_resolveCanary) ?_ ?_ ?_
    · rw [hCanary]
    · rw [hCanary]
    · rw [hCanary]

theorem BurnedLocked.resolveShardAuditors (h : BurnedLocked c) (key : String) :
    BurnedLocked (resolveShardAuditors env c key) := by
  rcases resolveShardAuditors_settles env h.1 key with hEq | ⟨majority, hSettled, hVotes, hShards⟩
  · rw [hEq]
    exact h
  · refine h.step hSettled.lockDrop fun x hx => ?_
    cases hx with
    | vote hMem hStatus =>
      rw [getAuditorVerifications, hVotes] at hMem
      exact .inl (.vote hMem hStatus)
    | @shardVote k v hMem hStatus =>
      rw [shardVerifications, hShards] at hMem
      rcases exists_of_slashed hStatus hMem with hOld | ⟨w, hw, hAgainst, hSame⟩
      · exact .inl (.shardVote hOld hStatus)
      · obtain ⟨o, hClaim, hDropped, hLocked⟩ := hSettled.minority_locked h.1 hw hAgainst
        exact .inr ⟨o, w.auditorAddress, hSame ▸ hClaim, hDropped, hSame ▸ hLocked⟩
    | challenge hCh hStatus =>
      rw [hSettled.challenges] at hCh
      exact .inl (.challenge hCh hStatus)

theorem passPreserved_burnedLocked : PassPreserved env blockHeight BurnedLocked := by
  refine passPreserved_of_lockDrop (fun h hDrop hVotes hChallenges => ?_)
    (fun _ key h => h.expireChallenge key) (fun _ r h => h.resolveAuditors r)
    fun _ key h => h.resolveShardAuditors key
  simp only [verdicts, Prod.mk.injEq] at hVotes
  exact h.quiet hDrop hChallenges hVotes.1 hVotes.2.1

/-! ## Runs -/

theorem Unclaimed.burnedFor (h : Unclaimed c x a) : BurnedFor c c x a where
  toUnclaimed := h
  settled r ch₀ ch hCh₀ hOpen hCh hCollateral := by
    rw [hCh] at hCh₀
    cases hCh₀
    have hClosed := h.not_unsettled hCh hCollateral
    simp [hOpen] at hClosed

def BurnInvariant (node : NodeState) (c : OPoICache) : Prop :=
  LockInvariant node.cache c ∧ ∀ x, Burned c x → ∃ a, BurnedFor node.cache c x a

theorem BurnInvariant.burnedLocked (h : BurnInvariant node c) : BurnedLocked c :=
  ⟨h.1.toLockDiscipline, fun x hx =>
    let ⟨a, hFor⟩ := h.2 x hx
    ⟨a, hFor.toUnclaimed⟩⟩

theorem BurnedLocked.invariant (h : BurnedLocked c) (hCache : node.cache = c) :
    BurnInvariant node c := by
  unfold BurnInvariant
  rw [hCache]
  refine ⟨h.1.invariant, fun x hx => ?_⟩
  obtain ⟨a, hUnclaimed⟩ := h.2 x hx
  exact ⟨a, hUnclaimed.burnedFor⟩

theorem BurnInvariant.apply (h : BurnInvariant node c) (hPre : LockDiscipline node.cache)
    (hTx : AcceptedTx env node tx) (hOPoI : tx.isOPoITx = true) (hFree : locksFree c tx = true)
    (hOnce : settlesOnce env c tx = true) :
    BurnInvariant node (applyOPoITransaction env node.chainActive node.nextHeight c tx) := by
  have hLock := lockSafe_of_burnSafe h.1.toLockDiscipline hFree hOnce
  refine ⟨h.1.apply hPre hTx hOPoI hLock, fun x hx => ?_⟩
  have hKept : Burned c x → ∃ a, BurnedFor node.cache
      (applyOPoITransaction env node.chainActive node.nextHeight c tx) x a := by
    intro hOld
    obtain ⟨a, hFor⟩ := h.2 x hOld
    exact ⟨a, hFor.apply h.1 hTx hOPoI hLock hOnce⟩
  rcases burned_apply hx with hOld | ⟨ch, hCh, rfl, hExpired⟩
  · exact hKept hOld
  · by_cases hUnsettled : (ch.isOpen || ch.isPendingResolution) = true
    · exact burnedFor_of_reveal h.1 hPre hTx hOPoI hLock hCh hExpired hUnsettled
    · -- a settled challenge was EXPIRED before
      have hSame := hOnce
      rw [settlesOnce, hCh, Option.all_some, Bool.or_eq_true, hExpired, beq_iff_eq] at hSame
      unfold revealedBy at hCh
      split at hCh
      · exact hKept (.challenge hCh (hSame.resolve_left hUnsettled).symm)
      · cases hCh

theorem preserved_burnInvariant : Preserved env (BurnSafe env) BurnInvariant where
  onTx _ _ _ hPre h hTx hOPoI hSafe :=
    h.apply hPre.1.toLockDiscipline hTx hOPoI (hSafe hOPoI).1 (hSafe hOPoI).2
  onPasses node block c view _ h _ := by
    have hLocked : BurnedLocked (connectPasses env node.nextHeight block.vtx c) :=
      passPreserved_burnedLocked.connectPasses h.burnedLocked block.vtx
    exact hLocked.invariant (node.extend_cache block _ view)
  onQuiet node block view h := h.burnedLocked.invariant (node.extend_cache block _ view)

theorem preservedUnder_burned :
    PreservedUnder env (BurnSafe env) BurnInvariant fun node c => BurnedFor node.cache c x a where
  onTx _ _ _ _ hCur hK hTx hOPoI hSafe :=
    hK.apply hCur.1 hTx hOPoI (lockSafe_of_burnSafe hCur.1.toLockDiscipline (hSafe hOPoI).1
      (hSafe hOPoI).2) (hSafe hOPoI).2
  onPasses node block c view _ hCur hK _ := by
    rw [NodeState.extend_cache]
    exact (hK.toUnclaimed.drop (lockDrop_connectPasses hCur.1.toLockDiscipline block.vtx)).burnedFor
  onQuiet _ _ _ _ hK := hK

theorem burnInvariant_init : BurnInvariant (.init env) {} := by
  have hEmpty : BurnedLocked {} := by
    refine ⟨lockDiscipline_empty, fun x hx => ?_⟩
    cases hx with
    | vote hMem _ => cases hMem
    | shardVote hMem _ => cases hMem
    | challenge hCh _ => cases hCh
  exact hEmpty.invariant rfl

/-- In every run that takes no lock twice and settles no challenge twice, burned collateral
    stays locked in every later state, also between the transactions of a block. -/
theorem burned_stays_locked {early late : Machine} {inputs inputs' : List Input}
    (hBefore : SmallRun env (onTx (BurnSafe env)) inputs early)
    (hAfter : Run.Steps (smallStep env) (onTx (BurnSafe env)) early inputs' late)
    (hBurned : Burned early.cache x) : late.cache.isLockedUTXO x = true := by
  have hSat : early.Satisfies env BurnInvariant :=
    preserved_burnInvariant.run hBefore burnInvariant_init
  have hEarly : BurnInvariant early.node early.cache := by
    cases early with
    | idle node => exact hSat
    | busy node block rest st => exact hSat.1
  obtain ⟨a, hFor⟩ := hEarly.2 x hBurned
  have hLate := (preservedUnder_burned.run preserved_burnInvariant hAfter hSat hFor).locked
  rw [lockedBy] at hLate
  rw [isLockedUTXO, Std.ExtTreeMap.contains_eq_isSome_getElem?, hLate]
  rfl

end Burned

/-! ## Three votes on one request -/

def sampleVerdict (carols : COutPoint) : List CBlock :=
  [sampleFunding, sampleBlock 3 [sampleRequest "r" "alice" 2 1],
   sampleBlock 4 [sampleVote "r" "alice" ⟨4002, 1⟩ 3 AUDITOR_VERIFY_PASS,
     sampleVote "r" "bob" ⟨4002, 2⟩ 4 AUDITOR_VERIFY_PASS,
     sampleVote "r" "carol" carols 5 AUDITOR_VERIFY_FAIL]]

def carolSlashed (c : OPoICache) (x : COutPoint) : Bool :=
  (c.getAuditorVerifications "r").any fun v =>
    v.status == .slashed && v.auditorCollateral == x

theorem burned_of_carolSlashed {c : OPoICache} {x : COutPoint} (h : carolSlashed c x = true) :
    Burned c x := by
  obtain ⟨v, hMem, hv⟩ := List.any_eq_true.mp h
  simp only [Bool.and_eq_true, beq_iff_eq] at hv
  obtain ⟨hStatus, rfl⟩ := hv
  exact .vote hMem hStatus

/-- With three collaterals, that of carol stays locked. -/
theorem stays_locked_of_three_votes : ∃ early late,
    SmallRun sampleNet (onTx (BurnSafe sampleNet)) ((sampleVerdict ⟨4002, 3⟩).flatMap blockInputs)
      early ∧
    Run.Steps (smallStep sampleNet) (onTx (BurnSafe sampleNet))
      early (blockInputs (sampleBlock 5 [])) late ∧
    Burned early.cache ⟨4002, 3⟩ ∧ late.cache.isLockedUTXO ⟨4002, 3⟩ = true := by
  refine ⟨_, _, Run.steps_value .other (by decide +kernel),
    Run.steps_value .other (by decide +kernel),
    ?burned, burned_stays_locked (Run.steps_value BlockReject.other _)
      (Run.steps_value BlockReject.other _) ?burned⟩
  exact burned_of_carolSlashed (by decide +kernel)

/-- bob and carol use one collateral in one block. The return of the collateral to bob, who is
    with the majority, unlocks the burned one of carol. -/
theorem not_locked_of_shared_collateral : ∃ node,
    PlainRun sampleNet (sampleVerdict ⟨4002, 2⟩) node ∧
    Burned node.cache ⟨4002, 2⟩ ∧ node.cache.isLockedUTXO ⟨4002, 2⟩ = false := by
  exact Run.exists_steps_imp .other (fun node => carolSlashed node.cache ⟨4002, 2⟩ = true ∧
      node.cache.isLockedUTXO ⟨4002, 2⟩ = false) (by decide +kernel)
    fun _ _ h => ⟨burned_of_carolSlashed h.1, h.2⟩

end CloudService
