/-
  Who has a claim on a locked collateral: the records through which the code may unlock an
  outpoint later.
-/

import CloudService.Library.Claims
import CloudService.Stakes.Evolution

namespace CloudService

/-- The records that may claim a collateral. Votes are told apart by their position. -/
inductive Owner where
  | stake (minerAddress : String)
  | challenge (requestId : String)
  | vote (requestId : String) (i : Nat)
  | shardVote (key : String) (i : Nat)
deriving Repr, DecidableEq

/-- What a stake, a challenge and a vote claim: an outpoint, under an address. -/
def OPoIStake.claim (s : OPoIStake) : Option (COutPoint × String) :=
  if s.isLive then some (s.collateralIn, s.minerAddress) else none
def OPoIChallenge.claim (ch : OPoIChallenge) : Option (COutPoint × String) :=
  if ch.isOpen || ch.isPendingResolution then some (ch.challengerCollateral, ch.challengerAddress)
  else none
def AuditorVerification.claim (v : AuditorVerification) : COutPoint × String :=
  (v.auditorCollateral, v.auditorAddress)

namespace OPoICache

variable (c : OPoICache)

def claim : Owner → Option (COutPoint × String)
  | .stake m => c.mapStakes[m]?.bind OPoIStake.claim
  | .challenge r => c.mapChallenges[r]?.bind OPoIChallenge.claim
  | .vote r i =>
    if c.isAuditorResolved r then none
    else (c.getAuditorVerifications r)[i]?.map AuditorVerification.claim
  | .shardVote key i =>
    if c.setResolvedShardAuditorVerifications.contains key then none
    else (c.shardVerifications key)[i]?.map AuditorVerification.claim

def lockedBy (out : COutPoint) : Option String := c.mapLockedUTXOs[out]?

theorem isLockedUTXO_eq_false {out : COutPoint} :
    c.isLockedUTXO out = false ↔ c.lockedBy out = none := by
  unfold isLockedUTXO lockedBy
  rw [Std.ExtTreeMap.contains_eq_isSome_getElem?, Option.isSome_eq_false_iff,
    Option.isNone_iff_eq_none]

def votesFor (tx : CTransaction) : List AuditorVerification :=
  if tx.opoiShardIndex = OPOI_AUDITOR_VERIFY_NO_SHARD then
    c.getAuditorVerifications tx.opoiRequestId
  else c.shardVerifications (shardKey tx.opoiRequestId tx.opoiShardIndex)

/-- The lock that a transaction takes. A second vote of the same auditor is ignored. -/
def lockOf (tx : CTransaction) : Option (COutPoint × String) :=
  match tx.opoiType with
  | .stake => some (tx.opoiCollateralIn, tx.opoiMinerAddress)
  | .challenge =>
    if tx.opoiChallengePhase = 0 then some (tx.opoiChallengerCollateralIn, tx.opoiRequester)
    else none
  | .auditorVerify =>
    if (c.votesFor tx).any (·.auditorAddress == tx.opoiAuditorAddress) then none
    else some (tx.opoiAuditorCollateralIn, tx.opoiAuditorAddress)
  | _ => none

def revealedBy (tx : CTransaction) : Option OPoIChallenge :=
  if tx.opoiType = .challenge ∧ tx.opoiChallengePhase ≠ 0 then c.mapChallenges[tx.opoiRequestId]?
  else none

/-- The outpoint that a transaction releases: a REVEAL in favour of the challenger. -/
def releaseOf (env : Env) (tx : CTransaction) : Option COutPoint :=
  if revealOutcome env c tx = .slashed ∨ revealOutcome env c tx = .resolvedNoOracle then
    (c.revealedBy tx).map OPoIChallenge.challengerCollateral
  else none

end OPoICache

/-- Claims are exclusive and backed by the lock table, and records sit under their own keys. -/
structure LockDiscipline (c : OPoICache) : Prop where
  consistent : Claims.Consistent c.claim c.lockedBy
  stakeKeyed : ∀ (m : String) (s : OPoIStake), c.mapStakes[m]? = some s → s.minerAddress = m
  shardKeyed : ∀ key, ∀ v ∈ c.shardVerifications key,
    OPoICache.shardKey v.requestId v.shardIndex = key

/-- The discipline inside a block, relative to the cache `c₀` at its start: the checks read it. -/
structure LockInvariant (c₀ c : OPoICache) : Prop extends LockDiscipline c where
  fresh : ∀ o x a, c.claim o = some (x, a) → c₀.claim o = some (x, a) ∨ c₀.lockedBy x = none
  lockKept : ∀ x a, c₀.lockedBy x = some a → c.lockedBy x = some a ∨ c.lockedBy x = none
  openKept : ∀ (r : String) (ch : OPoIChallenge), c₀.mapChallenges[r]? = some ch →
    ch.isOpen = true → ∃ ch' : OPoIChallenge, c.mapChallenges[r]? = some ch' ∧
      ch'.challengerCollateral = ch.challengerCollateral ∧
      ch'.challengerAddress = ch.challengerAddress
  liveKept : ∀ (m : String) (s : OPoIStake), c₀.mapStakes[m]? = some s → s.isLive = true →
    ∃ s' : OPoIStake, c.mapStakes[m]? = some s' ∧ s'.isLive = true

theorem LockDiscipline.invariant {c : OPoICache} (h : LockDiscipline c) : LockInvariant c c where
  toLockDiscipline := h
  fresh _ _ _ hClaim := .inl hClaim
  lockKept _ _ hLocked := .inl hLocked
  openKept _ ch hCh _ := ⟨ch, hCh, rfl, rfl⟩
  liveKept _ s hStake hLive := ⟨s, hStake, hLive⟩

/-! ## Changes that no claim depends on -/

def OPoIStake.lockView (s : OPoIStake) : String × COutPoint × Bool :=
  (s.minerAddress, s.collateralIn, s.isLive)

theorem slashStake_lockView (s : OPoIStake) : (slashStake s).lockView = s.lockView := by
  unfold slashStake
  split
  · rename_i hActive
    have hStatus : s.stakeStatus = .active := by simpa [OPoIStake.isActive] using hActive
    simp only [OPoIStake.lockView, OPoIStake.isLive, hStatus]
    rfl
  · rfl

/-- The records that the locks depend on. -/
def OPoICache.lockRecords (c : OPoICache) :=
  (c.mapStakes, c.mapChallenges, c.mapLockedUTXOs, c.mapAuditorVerifications,
    c.mapShardAuditorVerifications, c.setResolvedAuditorVerifications,
    c.setResolvedShardAuditorVerifications)

structure SameLocks (c c' : OPoICache) : Prop where
  stakes : ∀ m : String,
    c'.mapStakes[m]?.map OPoIStake.lockView = c.mapStakes[m]?.map OPoIStake.lockView
  challenges : c'.mapChallenges = c.mapChallenges
  locked : c'.mapLockedUTXOs = c.mapLockedUTXOs
  votes : ∀ r, c'.getAuditorVerifications r = c.getAuditorVerifications r
  shardVotes : ∀ key, c'.shardVerifications key = c.shardVerifications key
  resolved : c'.setResolvedAuditorVerifications = c.setResolvedAuditorVerifications
  shardResolved :
    c'.setResolvedShardAuditorVerifications = c.setResolvedShardAuditorVerifications

namespace SameLocks

variable {c c' c₀ : OPoICache}

theorem refl (c : OPoICache) : SameLocks c c :=
  ⟨fun _ => rfl, rfl, rfl, fun _ => rfl, fun _ => rfl, rfl, rfl⟩

theorem of_eq (h : c'.lockRecords = c.lockRecords) : SameLocks c c' := by
  simp only [OPoICache.lockRecords, Prod.mk.injEq] at h
  obtain ⟨h₁, h₂, h₃, h₄, h₅, h₆, h₇⟩ := h
  refine ⟨fun m => by rw [h₁], h₂, h₃, fun r => ?_, fun key => ?_, h₆, h₇⟩
  · simp only [OPoICache.getAuditorVerifications, h₄]
  · simp only [OPoICache.shardVerifications, h₅]

theorem modifyStake {m : String} {f : OPoIStake → OPoIStake}
    (h : ∀ s, c.mapStakes[m]? = some s → (f s).lockView = s.lockView) :
    SameLocks c (c.modifyStake m f) := by
  refine ⟨fun m' => ?_, rfl, rfl, fun _ => rfl, fun _ => rfl, rfl, rfl⟩
  simp only [OPoICache.modifyStake, TreeMap.getElem?_modify_eq]
  split
  · rename_i hEq
    subst hEq
    cases hStake : c.mapStakes[m]? with
    | none => rfl
    | some s => simp [h s hStake]
  · rfl

theorem modifyResponderStake {r : String} {f : OPoIStake → OPoIStake}
    (h : ∀ s, (f s).lockView = s.lockView) :
    SameLocks c (CloudService.modifyResponderStake c r f) := by
  unfold CloudService.modifyResponderStake
  split
  · exact modifyStake fun s _ => h s
  · exact refl c

theorem mapStakes {f : OPoIStake → OPoIStake} (h : ∀ s, (f s).lockView = s.lockView) :
    SameLocks c { c with mapStakes := c.mapStakes.map fun _ s => f s } := by
  refine ⟨fun m => ?_, rfl, rfl, fun _ => rfl, fun _ => rfl, rfl, rfl⟩
  rw [Std.ExtTreeMap.getElem?_map, Option.map_map]
  congr 1
  funext s
  exact h s

theorem claim_eq (h : SameLocks c c') : c'.claim = c.claim := by
  have hBind : ∀ x : Option OPoIStake, x.bind OPoIStake.claim =
      (x.map OPoIStake.lockView).bind fun v => if v.2.2 then some (v.2.1, v.1) else none := by
    intro x
    cases x with
    | none => rfl
    | some s => rfl
  funext o
  cases o with
  | stake m => simp only [OPoICache.claim, hBind, h.stakes m]
  | challenge r => simp only [OPoICache.claim, h.challenges]
  | vote r i =>
    have hResolved : c'.isAuditorResolved r = c.isAuditorResolved r := by
      simp only [OPoICache.isAuditorResolved, h.resolved]
    simp only [OPoICache.claim, hResolved, h.votes]
  | shardVote key i =>
    have hResolved : c'.setResolvedShardAuditorVerifications.contains key =
        c.setResolvedShardAuditorVerifications.contains key := by rw [h.shardResolved]
    simp only [OPoICache.claim, hResolved, h.shardVotes]

theorem lockedBy_eq (h : SameLocks c c') : c'.lockedBy = c.lockedBy := by
  funext x
  simp only [OPoICache.lockedBy, h.locked]

theorem discipline (h : SameLocks c c') (hInv : LockDiscipline c) : LockDiscipline c' where
  consistent := by
    rw [h.claim_eq, h.lockedBy_eq]
    exact hInv.consistent
  stakeKeyed m s hStake := by
    have hView := h.stakes m
    rw [hStake] at hView
    obtain ⟨t, hOld, hSame⟩ := Option.map_eq_some_iff.mp hView.symm
    simp only [OPoIStake.lockView, Prod.mk.injEq] at hSame
    rw [← hSame.1]
    exact hInv.stakeKeyed m t hOld
  shardKeyed key := by
    rw [h.shardVotes]
    exact hInv.shardKeyed key

theorem invariant (h : SameLocks c c') (hInv : LockInvariant c₀ c) : LockInvariant c₀ c' where
  toLockDiscipline := h.discipline hInv.toLockDiscipline
  fresh := by
    rw [h.claim_eq]
    exact hInv.fresh
  lockKept := by
    rw [h.lockedBy_eq]
    exact hInv.lockKept
  openKept := by
    rw [h.challenges]
    exact hInv.openKept
  liveKept m s hStake hLive := by
    obtain ⟨t, hOld, hOldLive⟩ := hInv.liveKept m s hStake hLive
    have hView := h.stakes m
    rw [hOld] at hView
    obtain ⟨u, hNew, hSame⟩ := Option.map_eq_some_iff.mp hView
    simp only [OPoIStake.lockView, Prod.mk.injEq] at hSame
    exact ⟨u, hNew, by rw [hSame.2.2]; exact hOldLive⟩

end SameLocks

/-! ## Changes that only give claims up -/

/-- Claims are only given up, and an outpoint is released only together with its claim. -/
structure LockDrop (c c' : OPoICache) : Prop where
  claims : ∀ o x a, c'.claim o = some (x, a) → c.claim o = some (x, a)
  locked : ∀ x, c'.lockedBy x = c.lockedBy x ∨
    c'.lockedBy x = none ∧ ∃ o a, c.claim o = some (x, a) ∧ c'.claim o = none ∧
      ∀ m s, o = .stake m → c.mapStakes[m]? = some s → s.stakeStatus ≠ .slashed
  stakes : StakesEvolve c c'
  shardVotes : ∀ key, ∀ v' ∈ c'.shardVerifications key, ∃ v ∈ c.shardVerifications key,
    v.requestId = v'.requestId ∧ v.shardIndex = v'.shardIndex

namespace LockDrop

variable {c c' c'' : OPoICache}

theorem of_sameLocks (h : SameLocks c c') (hStakes : StakesEvolve c c') : LockDrop c c' where
  claims o x a hOwn := by
    rw [h.claim_eq] at hOwn
    exact hOwn
  locked x := by
    rw [h.lockedBy_eq]
    exact .inl rfl
  stakes := hStakes
  shardVotes key v hMem := by
    rw [h.shardVotes] at hMem
    exact ⟨v, hMem, rfl, rfl⟩

theorem refl (c : OPoICache) : LockDrop c c := of_sameLocks (.refl c) (.refl c)

theorem trans (h₁ : LockDrop c c') (h₂ : LockDrop c' c'') : LockDrop c c'' where
  claims o x a hOwn := h₁.claims o x a (h₂.claims o x a hOwn)
  locked x := by
    rcases h₂.locked x with hSame | ⟨hNone, o, a, hOwn, hDropped, hStake⟩
    · rw [hSame]
      rcases h₁.locked x with hSame' | ⟨hNone', o, a, hOwn, hDropped, hStake⟩
      · exact .inl hSame'
      · refine .inr ⟨hNone', o, a, hOwn, ?_, hStake⟩
        -- What was given up in the first part is not claimed again in the second.
        cases hLater : c''.claim o with
        | none => rfl
        | some lock =>
          rw [h₂.claims o lock.1 lock.2 hLater] at hDropped
          cases hDropped
    · refine .inr ⟨hNone, o, a, h₁.claims o x a hOwn, hDropped, fun m s hOwner hGet hSlashed => ?_⟩
      obtain ⟨s', hGet', hEvolves⟩ := h₁.stakes.get hGet
      have hStatus := hEvolves.status
      rw [hSlashed] at hStatus
      exact hStake m s' hOwner hGet' hStatus.of_slashed
  stakes := h₁.stakes.trans h₂.stakes
  shardVotes key v'' hMem := by
    obtain ⟨v', hMem', hRequest', hShard'⟩ := h₂.shardVotes key v'' hMem
    obtain ⟨v, hMem, hRequest, hShard⟩ := h₁.shardVotes key v' hMem'
    exact ⟨v, hMem, hRequest.trans hRequest', hShard.trans hShard'⟩

theorem discipline (h : LockDrop c c') (hInv : LockDiscipline c) : LockDiscipline c' where
  consistent := by
    refine hInv.consistent.shrink h.claims fun o x a hOwn => ?_
    rcases h.locked x with hSame | ⟨_, o', a', hOwn', hDropped, _⟩
    · exact hSame
    · have hOwner := hInv.consistent.exclusive (h.claims o x a hOwn) hOwn'
      rw [← hOwner, hOwn] at hDropped
      cases hDropped
  stakeKeyed m s' hStake := by
    obtain ⟨s, hGet, hEvolves⟩ := h.stakes.get_before hStake
    have hAddress := congrArg StakeIdentity.minerAddress hEvolves.identity
    exact hAddress.trans (hInv.stakeKeyed m s hGet)
  shardKeyed key v' hMem := by
    obtain ⟨v, hMem', hRequest, hShard⟩ := h.shardVotes key v' hMem
    rw [← hRequest, ← hShard]
    exact hInv.shardKeyed key v hMem'

end LockDrop

end CloudService
