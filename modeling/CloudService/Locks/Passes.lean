/-
  The per-block passes only give claims up: whatever they unlock was claimed by the
  record that they settle, and that record gives its claim up.
-/

import CloudService.Locks.Claims

namespace CloudService

open OPoICache

section Passes

variable {env : Env} {blockHeight : Nat} {c : OPoICache}

/-! ## Giving up a claim -/

theorem LockDrop.challenge {key : String} {ch : OPoIChallenge}
    (hCh : c.mapChallenges[key]? = some ch) {f : OPoIChallenge → OPoIChallenge}
    (hf : (f ch).claim = none) {locked : Std.ExtTreeMap COutPoint String}
    {locking : Std.ExtTreeMap COutPoint Uint256}
    (hKeep : ∀ x : COutPoint, locked[x]? = c.mapLockedUTXOs[x]? ∨
      locked[x]? = none ∧ ch.claim = some (x, ch.challengerAddress)) :
    LockDrop c { c with
      mapChallenges := c.mapChallenges.modify key f
      mapLockedUTXOs := locked
      mapLockingTxHash := locking } := by
  generalize hc' : ({ c with
      mapChallenges := c.mapChallenges.modify key f
      mapLockedUTXOs := locked
      mapLockingTxHash := locking } : OPoICache) = c'
  have hNone : c'.claim (.challenge key) = none := by
    simp [← hc', OPoICache.claim, hCh, hf]
  have hOther : ∀ o, o ≠ .challenge key → c'.claim o = c.claim o := by
    intro o hNe
    subst hc'
    cases o with
    | stake m => rfl
    | challenge r =>
      have hr : key ≠ r := fun hEq => hNe (by rw [hEq])
      simp [OPoICache.claim, hr]
    | vote r i => rfl
    | shardVote k i => rfl
  refine ⟨fun o x a hOwn => ?_, fun x => ?_, ?_, ?_⟩
  · have ho : o ≠ .challenge key := by
      rintro rfl
      rw [hNone] at hOwn
      cases hOwn
    rw [← hOther o ho]
    exact hOwn
  · have hGet : c'.lockedBy x = locked[x]? := by
      rw [← hc']
      rfl
    rw [hGet]
    rcases hKeep x with hSame | ⟨hFree, hClaim⟩
    · exact .inl hSame
    · refine .inr ⟨hFree, .challenge key, ch.challengerAddress, ?_, hNone, ?_⟩
      · simp [OPoICache.claim, hCh, hClaim]
      · intro m s hOwner
        cases hOwner
  · subst hc'
    exact .of_eq rfl
  · subst hc'
    exact fun key v hMem => ⟨v, hMem, rfl, rfl⟩

theorem LockDrop.stake {key : String} {stake : OPoIStake}
    (hStake : c.mapStakes[key]? = some stake) (hUnstaking : stake.stakeStatus = .unstaking)
    (hEvolve : StakesEvolve c { c with
      mapStakes := c.mapStakes.modify key fun s => { s with stakeStatus := .released }
      mapLockedUTXOs := c.mapLockedUTXOs.erase stake.collateralIn }) :
    LockDrop c { c with
      mapStakes := c.mapStakes.modify key fun s => { s with stakeStatus := .released }
      mapLockedUTXOs := c.mapLockedUTXOs.erase stake.collateralIn } := by
  generalize hc' : ({ c with
      mapStakes := c.mapStakes.modify key fun s => { s with stakeStatus := .released }
      mapLockedUTXOs := c.mapLockedUTXOs.erase stake.collateralIn } : OPoICache) = c' at hEvolve ⊢
  have hNone : c'.claim (.stake key) = none := by
    simp [← hc', OPoICache.claim, hStake, OPoIStake.claim, OPoIStake.isLive]
  refine ⟨fun o x a hOwn => ?_, fun x => ?_, hEvolve, ?_⟩
  · have ho : o ≠ .stake key := by
      rintro rfl
      rw [hNone] at hOwn
      cases hOwn
    subst hc'
    cases o with
    | stake m =>
      have hm : key ≠ m := fun hEq => ho (by rw [hEq])
      simpa [OPoICache.claim, hm] using hOwn
    | challenge r => exact hOwn
    | vote r i => exact hOwn
    | shardVote k i => exact hOwn
  · by_cases hx : stake.collateralIn = x
    · refine .inr ⟨by simp [← hc', lockedBy, hx], .stake key, stake.minerAddress, ?_,
        hNone, ?_⟩
      · simp [OPoICache.claim, hStake, OPoIStake.claim, OPoIStake.isLive, hUnstaking, hx]
      · intro m s hOwner hGet
        cases hOwner
        rw [hStake] at hGet
        cases hGet
        simp [hUnstaking]
    · exact .inl (by simp [← hc', lockedBy, hx])
  · subst hc'
    exact fun key v hMem => ⟨v, hMem, rfl, rfl⟩

/-- The votes of a list give up their claims; the outpoints of the votes with the majority are
    released. -/
structure VotesSettled (c c' : OPoICache) (owner : Nat → Owner)
    (verifs : List AuditorVerification) (majority : Nat) : Prop where
  inj : ∀ {i j}, owner i = owner j → i = j
  noStake : ∀ i m, owner i ≠ .stake m
  old : ∀ i, c.claim (owner i) = verifs[i]?.map AuditorVerification.claim
  dropped : ∀ i, c'.claim (owner i) = none
  other : ∀ o, (∀ i, o ≠ owner i) → c'.claim o = c.claim o
  locked : ∀ x, c'.lockedBy x =
    if verifs.any fun fv => fv.result == majority && fv.auditorCollateral == x then none
    else c.lockedBy x
  stakes : c'.mapStakes = c.mapStakes
  challenges : c'.mapChallenges = c.mapChallenges
  shardVotes : ∀ key, ∀ v' ∈ c'.shardVerifications key, ∃ v ∈ c.shardVerifications key,
    v.requestId = v'.requestId ∧ v.shardIndex = v'.shardIndex

namespace VotesSettled

variable {c' : OPoICache} {owner : Nat → Owner} {verifs : List AuditorVerification}
  {majority : Nat} {v : AuditorVerification}

theorem claim_of_mem (h : VotesSettled c c' owner verifs majority) (hMem : v ∈ verifs) :
    ∃ i, verifs[i]? = some v ∧ c.claim (owner i) = some v.claim := by
  obtain ⟨i, hi⟩ := List.mem_iff_getElem?.mp hMem
  exact ⟨i, hi, by rw [h.old, hi, Option.map_some]⟩

theorem lockDrop (h : VotesSettled c c' owner verifs majority) : LockDrop c c' := by
  refine ⟨fun o x a hOwn => ?_, fun x => ?_, .of_eq h.stakes, h.shardVotes⟩
  · have ho : ∀ i, o ≠ owner i := by
      rintro i rfl
      rw [h.dropped] at hOwn
      cases hOwn
    rw [← h.other o ho]
    exact hOwn
  · rw [h.locked x]
    split
    · rename_i hReleased
      obtain ⟨v, hMem, hv⟩ := List.any_eq_true.mp hReleased
      simp only [Bool.and_eq_true, beq_iff_eq] at hv
      obtain ⟨i, _, hClaim⟩ := h.claim_of_mem hMem
      refine .inr ⟨rfl, owner i, v.auditorAddress, ?_, h.dropped i, ?_⟩
      · rw [hClaim, ← hv.2]
        rfl
      · intro m s hEq
        exact absurd hEq (h.noStake i m)
    · exact .inl rfl

theorem minority_locked (h : VotesSettled c c' owner verifs majority)
    (hInv : LockDiscipline c) (hMem : v ∈ verifs) (hAgainst : v.result ≠ majority) :
    ∃ o, c.claim o = some v.claim ∧ c'.claim o = none ∧
      c'.lockedBy v.auditorCollateral = c.lockedBy v.auditorCollateral := by
  obtain ⟨i, hi, hClaim⟩ := h.claim_of_mem hMem
  refine ⟨owner i, hClaim, h.dropped i, ?_⟩
  rw [h.locked, if_neg]
  intro hReleased
  obtain ⟨w, hw, hTest⟩ := List.any_eq_true.mp hReleased
  simp only [Bool.and_eq_true, beq_iff_eq] at hTest
  obtain ⟨j, hj, hOther⟩ := h.claim_of_mem hw
  rw [AuditorVerification.claim, hTest.2] at hOther
  have hSame := h.inj (hInv.consistent.exclusive hClaim hOther)
  rw [hSame, hj] at hi
  cases hi
  exact hAgainst hTest.1

end VotesSettled

/-! ## The passes -/

theorem lockDrop_slash (requestId : String) :
    LockDrop c (modifyResponderStake c requestId slashStake) :=
  .of_sameLocks (.modifyResponderStake slashStake_lockView)
    (.modifyResponderStake slashStake_evolves)

theorem lockDrop_expireChallenge (key : String) :
    LockDrop c (expireChallenge env blockHeight c key) := by
  rcases expireChallenge_cases env blockHeight c key with
    hEq | ⟨ch, hCh, _, hEq⟩ | ⟨ch, hCh, hPending, _, hEq⟩
  · rw [hEq]
    exact .refl c
  · rw [hEq]
    exact .challenge hCh rfl fun x => .inl rfl
  · -- the collateral of a proven challenge is returned and the responder is slashed
    have hReturn : LockDrop c { c with
        mapChallenges := c.mapChallenges.modify key fun ch =>
          { ch with challengeStatus := .slashed }
        mapLockedUTXOs := c.mapLockedUTXOs.erase ch.challengerCollateral
        mapLockingTxHash := c.mapLockingTxHash.erase ch.challengerCollateral } := by
      refine .challenge hCh rfl fun x => ?_
      by_cases hx : ch.challengerCollateral = x
      · exact .inr ⟨by simp [hx], by simp [OPoIChallenge.claim, hPending, hx]⟩
      · exact .inl (by simp [hx])
    have hSlash := hReturn.trans (lockDrop_slash ch.requestId)
    rw [modifyResponderStake_eq] at hSlash
    rw [hEq]
    exact hSlash

theorem lockDrop_releaseStake (key : String) :
    LockDrop c (releaseStake env blockHeight c key) := by
  have hEvolve : StakesEvolve c (releaseStake env blockHeight c key) :=
    stakesEvolve_releaseStake key
  unfold releaseStake at hEvolve ⊢
  cases hStake : c.mapStakes[key]? with
  | none => exact .refl c
  | some stake =>
    simp only [hStake] at hEvolve ⊢
    split
    · rename_i hRelease
      rw [if_pos hRelease] at hEvolve
      have hUnstaking : stake.stakeStatus = .unstaking := by
        simp only [Bool.and_eq_true, OPoIStake.isUnstaking, beq_iff_eq] at hRelease
        exact hRelease.1
      exact .stake hStake hUnstaking hEvolve
    · exact .refl c

theorem suspendOverdue_lockView (s : OPoIStake) :
    (suspendOverdue env blockHeight s).lockView = s.lockView := by
  unfold suspendOverdue
  split
  · rename_i hOverdue
    have hStatus : s.stakeStatus = .active := by
      simp only [Bool.and_eq_true, OPoIStake.isActive, beq_iff_eq] at hOverdue
      exact hOverdue.1
    simp only [OPoIStake.lockView, OPoIStake.isLive, hStatus]
    rfl
  · rfl

theorem strikeCanary_lockView (s : OPoIStake) : (strikeCanary s).lockView = s.lockView := by
  unfold strikeCanary
  simp only [OPoIStake.lockView, OPoIStake.isLive]
  split
  · rename_i hStrikes
    have hStatus : s.stakeStatus = .active := by simpa [OPoIStake.isActive] using hStrikes.2
    rw [hStatus]
    rfl
  · rfl

theorem strikeMissed_lockView (s : OPoIStake) : (strikeMissed blockHeight s).lockView =
    s.lockView := by
  unfold strikeMissed
  split
  · rfl
  · exact strikeCanary_lockView s

theorem sameLocks_assignCanary : SameLocks c (assignCanary env blockHeight c) := by
  unfold assignCanary
  simp only
  split
  · exact .refl c
  · split
    · exact .refl c
    · exact .modifyStake fun s _ => rfl

theorem sameLocks_resolveCanary {majority : Nat} {requestId : String} :
    SameLocks c (resolveCanary majority c requestId) := by
  unfold resolveCanary
  split
  · exact .refl c
  · split
    · exact .refl c
    · split
      · exact .modifyResponderStake strikeCanary_lockView
      · split
        · exact .modifyResponderStake fun s => rfl
        · exact .refl c

theorem resolveAuditors_settles (env : Env) (c : OPoICache) (requestId : String) :
    resolveAuditors env c requestId = c ∨ ∃ majority settled,
      resolveAuditors env c requestId = resolveCanary majority settled requestId ∧
      VotesSettled c settled (.vote requestId) (c.getAuditorVerifications requestId) majority ∧
      settled.mapShardAuditorVerifications = c.mapShardAuditorVerifications ∧
      settled.mapAuditorVerifications =
        c.mapAuditorVerifications.modify requestId (·.map (resolveVote majority)) := by
  rcases resolveAuditors_cases env c requestId with
    hEq | ⟨majority, locked, locking, hUnresolved, hGet, hEq⟩
  · exact .inl hEq
  · refine .inr ⟨majority, _, hEq, ?_, rfl, rfl⟩
    refine ⟨fun hSame => by cases hSame; rfl, fun i m => by simp, fun i => ?_, fun i => ?_,
      fun o hNe => ?_, hGet, rfl, rfl, fun key v hMem => ⟨v, hMem, rfl, rfl⟩⟩
    · simp [OPoICache.claim, hUnresolved]
    · simp [OPoICache.claim, isAuditorResolved]
    · cases o with
      | stake m => rfl
      | challenge r => rfl
      | vote r i =>
        have hr : requestId ≠ r := fun hEq => hNe i (by rw [hEq])
        simp [OPoICache.claim, isAuditorResolved, getAuditorVerifications,
          Std.ExtTreeMap.getD_eq_getD_getElem?, hr]
      | shardVote k i => rfl

theorem lockDrop_resolveAuditors (requestId : String) :
    LockDrop c (resolveAuditors env c requestId) := by
  rcases resolveAuditors_settles env c requestId with
    hEq | ⟨majority, settled, hEq, hSettled, _, _⟩
  · rw [hEq]
    exact .refl c
  · rw [hEq]
    exact hSettled.lockDrop.trans
      (.of_sameLocks sameLocks_resolveCanary stakesEvolve_resolveCanary)

/-- The same for the votes on a shard. They sit under the key of that shard, so the mark is on
    their own key. -/
theorem resolveShardAuditors_settles (env : Env) (h : LockDiscipline c) (key : String) :
    resolveShardAuditors env c key = c ∨ ∃ majority,
      VotesSettled c (resolveShardAuditors env c key) (.shardVote key) (c.shardVerifications key)
        majority ∧
      (resolveShardAuditors env c key).mapAuditorVerifications = c.mapAuditorVerifications ∧
      (resolveShardAuditors env c key).mapShardAuditorVerifications =
        c.mapShardAuditorVerifications.modify key (·.map (resolveVote majority)) := by
  rcases resolveShardAuditors_cases env c key with
    hEq | ⟨majority, verifs, front, locked, locking, hVerifs, hFront, hUnresolved, hGet, hEq⟩
  · exact .inl hEq
  · have hList : c.shardVerifications key = verifs := TreeMap.getD_of_get hVerifs
    have hKey : shardKey front.requestId front.shardIndex = key :=
      h.shardKeyed key front (by rw [hList]; exact List.mem_of_head? hFront)
    rw [isShardAuditorResolved, hKey] at hUnresolved
    rw [hEq, hKey]
    refine .inr ⟨majority, ⟨fun hSame => by cases hSame; rfl, fun i m => by simp,
      fun i => ?_, fun i => ?_, fun o hNe => ?_, by rw [hList]; exact hGet, rfl, rfl, ?_⟩, rfl, rfl⟩
    · simp [OPoICache.claim, hUnresolved]
    · simp [OPoICache.claim]
    · cases o with
      | stake m => rfl
      | challenge r => rfl
      | vote r i => rfl
      | shardVote k i =>
        have hk : key ≠ k := fun hEq => hNe i (by rw [hEq])
        simp [OPoICache.claim, shardVerifications, Std.ExtTreeMap.getD_eq_getD_getElem?, hk]
    · intro k v hMem
      rw [shardVerifications, TreeMap.getD_modify_map] at hMem
      split at hMem
      · obtain ⟨w, hw, rfl⟩ := List.mem_map.mp hMem
        exact ⟨w, hw, rfl, rfl⟩
      · exact ⟨v, hMem, rfl, rfl⟩

theorem lockDrop_resolveShardAuditors (h : LockDiscipline c) (key : String) :
    LockDrop c (resolveShardAuditors env c key) := by
  rcases resolveShardAuditors_settles env h key with hEq | ⟨_, hSettled, _, _⟩
  · rw [hEq]
    exact .refl c
  · exact hSettled.lockDrop

/-! ## All passes of a block -/

theorem LockDrop.of_eq {c' : OPoICache} (h : c'.lockRecords = c.lockRecords) : LockDrop c c' :=
  .of_sameLocks (.of_eq h) (.of_eq (congrArg Prod.fst h))

def DroppedFrom (c₁ c : OPoICache) : Prop := LockDiscipline c ∧ LockDrop c₁ c

theorem DroppedFrom.step {c₁ c' : OPoICache} (h : DroppedFrom c₁ c) (hDrop : LockDrop c c') :
    DroppedFrom c₁ c' :=
  ⟨hDrop.discipline h.1, h.2.trans hDrop⟩

theorem lockDrop_suspendOverdue : LockDrop c { c with
    mapStakes := c.mapStakes.map fun _ s => suspendOverdue env blockHeight s } :=
  .of_sameLocks (.mapStakes suspendOverdue_lockView)
    (.mapStakes (suspendOverdue_evolves env blockHeight))

theorem lockDrop_strikeMissed : LockDrop c { c with
    mapStakes := c.mapStakes.map fun _ s => strikeMissed blockHeight s } :=
  .of_sameLocks (.mapStakes strikeMissed_lockView) (.mapStakes (strikeMissed_evolves blockHeight))

theorem lockDrop_assignCanary : LockDrop c (assignCanary env blockHeight c) :=
  .of_sameLocks sameLocks_assignCanary stakesEvolve_assignCanary

theorem passPreserved_droppedFrom {c₁ : OPoICache} :
    PassPreserved env blockHeight (DroppedFrom c₁) where
  rewardPaid _ _ h := h.step (.of_eq rfl)
  expireChallenge _ key h := h.step (lockDrop_expireChallenge key)
  releaseStake _ key h := h.step (lockDrop_releaseStake key)
  expireRequests _ h := h.step (.of_eq rfl)
  closeWindows _ h := h.step (.of_eq rfl)
  suspendOverdue _ h := h.step lockDrop_suspendOverdue
  strikeMissed _ h := h.step lockDrop_strikeMissed
  assignCanary _ h := h.step lockDrop_assignCanary
  manifestStatus _ _ _ _ h := h.step (.of_eq rfl)
  shardPaid _ _ _ h := h.step (.of_eq rfl)
  responsePaid _ _ h := h.step (.of_eq rfl)
  resolveAuditors _ r h := h.step (lockDrop_resolveAuditors r)
  resolveShardAuditors _ key h := h.step (lockDrop_resolveShardAuditors h.1 key)

/-- The votes, and what has a verdict. -/
def OPoICache.verdicts (c : OPoICache) :=
  (c.mapAuditorVerifications, c.mapShardAuditorVerifications,
    c.setResolvedAuditorVerifications, c.setResolvedShardAuditorVerifications)

/-- What only a vote, a verdict or a challenge could break while locks are dropped. -/
theorem passPreserved_of_lockDrop {P : OPoICache → Prop}
    (hQuiet : ∀ {c c' : OPoICache}, P c → LockDrop c c' → c'.verdicts = c.verdicts →
      c'.mapChallenges = c.mapChallenges → P c')
    (hChallenge : ∀ c key, P c → P (expireChallenge env blockHeight c key))
    (hWhole : ∀ c r, P c → P (resolveAuditors env c r))
    (hShards : ∀ c key, P c → P (resolveShardAuditors env c key)) :
    PassPreserved env blockHeight P where
  rewardPaid _ _ h := hQuiet h (.of_eq rfl) rfl rfl
  expireChallenge := hChallenge
  releaseStake c key h := by
    obtain ⟨_, _, hEq⟩ := releaseStake_eq env blockHeight c key
    exact hQuiet h (lockDrop_releaseStake key) (by rw [hEq]; rfl) (by rw [hEq])
  expireRequests _ h := hQuiet h (.of_eq rfl) rfl rfl
  closeWindows _ h := hQuiet h (.of_eq rfl) rfl rfl
  suspendOverdue _ h := hQuiet h lockDrop_suspendOverdue rfl rfl
  strikeMissed _ h := hQuiet h lockDrop_strikeMissed rfl rfl
  assignCanary c h := by
    obtain ⟨_, hEq⟩ := assignCanary_eq env blockHeight c
    exact hQuiet h lockDrop_assignCanary (by rw [hEq]; rfl) (by rw [hEq])
  manifestStatus _ _ _ _ h := hQuiet h (.of_eq rfl) rfl rfl
  shardPaid _ _ _ h := hQuiet h (.of_eq rfl) rfl rfl
  responsePaid _ _ h := hQuiet h (.of_eq rfl) rfl rfl
  resolveAuditors := hWhole
  resolveShardAuditors := hShards

theorem lockDrop_connectPasses (h : LockDiscipline c) (vtx : List CTransaction) :
    LockDrop c (connectPasses env blockHeight vtx c) :=
  (passPreserved_droppedFrom.connectPasses ⟨h, .refl c⟩ vtx).2

end Passes

end CloudService
