/-
  Two parts of the cache that the transitions do not leave: no transition reads outside of its
  part.
-/

import CloudService.OPoI.Effects

namespace CloudService

open OPoICache

/-- The cache without `mapLockingTxHash`. -/
def OPoICache.consensus (c : OPoICache) : OPoICache := { c with mapLockingTxHash := ∅ }

/-- The cache without the votes on shards, the marks of their resolutions and the locks. -/
def OPoICache.wholePart (c : OPoICache) : OPoICache :=
  { c with
    mapShardAuditorVerifications := ∅
    setResolvedShardAuditorVerifications := ∅
    mapLockedUTXOs := ∅
    mapLockingTxHash := ∅ }

inductive CachePart where
  | consensus
  | whole

def OPoICache.part : CachePart → OPoICache → OPoICache
  | .consensus, c => c.consensus
  | .whole, c => c.wholePart

section Consensus

variable (p : CachePart) (env : Env) (chainActive : List Uint256) (blockHeight : Nat)
  (c : OPoICache) (tx : CTransaction)

theorem part_applyChallengeReveal :
    (applyChallengeReveal env (c.part p) tx).part p = (applyChallengeReveal env c tx).part p := by
  have hSame : (c.part p).mapChallenges[tx.opoiRequestId]? =
      c.mapChallenges[tx.opoiRequestId]? := by cases p <;> rfl
  cases hCh : c.mapChallenges[tx.opoiRequestId]? with
  | none =>
    unfold applyChallengeReveal
    rw [hSame, hCh]
    cases p <;> rfl
  | some ch =>
    rw [applyChallengeReveal_eq env c tx hCh, applyChallengeReveal_eq env (c.part p) tx
      (hSame.trans hCh)]
    cases p <;> rfl

theorem part_lockVote (verifs : List AuditorVerification) (v : AuditorVerification) :
    ((c.part p).lockVote verifs v).part p = (c.lockVote verifs v).part p := by
  unfold lockVote
  split
  · cases p <;> rfl
  · split
    · cases p <;> rfl
    · cases p <;> rfl

theorem part_addVote (v : AuditorVerification) :
    ((c.part p).addAuditorVerification v).part p = (c.addAuditorVerification v).part p := by
  let verifs := addVote (c.mapAuditorVerifications.getD v.requestId []) v
  let added : OPoICache :=
    { c with mapAuditorVerifications := c.mapAuditorVerifications.insert v.requestId verifs }
  cases p with
  | consensus => exact part_lockVote .consensus added _ v
  | whole => exact part_lockVote .whole added _ v

theorem part_addShardVote (requestId : String) (shardIndex : Nat) (v : AuditorVerification) :
    ((c.part p).addShardAuditorVerification requestId shardIndex v).part p =
      (c.addShardAuditorVerification requestId shardIndex v).part p := by
  cases p with
  | consensus =>
    let key := shardKey requestId shardIndex
    let verifs := addVote (c.mapShardAuditorVerifications.getD key []) v
    exact part_lockVote .consensus
      { c with mapShardAuditorVerifications :=
          c.mapShardAuditorVerifications.insert key verifs } _ v
  | whole =>
    -- neither the votes on shards nor the locks are in this part
    simp only [addShardAuditorVerification]
    obtain ⟨_, _, hEq⟩ := lockVote_eq _ _ v
    obtain ⟨_, _, hEq'⟩ := lockVote_eq _ _ v
    rw [hEq, hEq']
    rfl

theorem part_apply :
    (applyOPoITransaction env chainActive blockHeight (c.part p) tx).part p =
      (applyOPoITransaction env chainActive blockHeight c tx).part p := by
  unfold applyOPoITransaction
  cases hType : tx.opoiType with
  | request => cases p <;> rfl
  | response =>
    dsimp only
    split
    · cases p <;> rfl
    · cases p <;> rfl
  | stake => cases p <;> rfl
  | unstake =>
    simp only [applyUnstake, startUnstake_eq]
    cases p <;> rfl
  | renew => cases p <;> rfl
  | challenge =>
    dsimp only
    split
    · simp only [applyChallengeCommit, modifyResponderStake_eq]
      cases p <;> rfl
    · exact part_applyChallengeReveal p env c tx
  | modelRegister => cases p <;> rfl
  | modelVote =>
    have hSame : (c.part p).mapModelManifests = c.mapModelManifests := by cases p <;> rfl
    simp only [applyModelVote, addModelVote, hSame]
    split
    · cases p <;> rfl
    · cases p <;> rfl
  | coordinatorClaim => cases p <;> rfl
  | shardResult => cases p <;> rfl
  | auditorVerify =>
    dsimp only
    unfold applyAuditorVerify
    split
    · exact part_addVote p c _
    · exact part_addShardVote p c _ _ _
  | unknown => cases p <;> rfl

theorem consensus_apply :
    (applyOPoITransaction env chainActive blockHeight c.consensus tx).consensus =
      (applyOPoITransaction env chainActive blockHeight c tx).consensus :=
  part_apply .consensus env chainActive blockHeight c tx

theorem consensus_undoChallengeReveal :
    (undoChallengeReveal c.consensus tx).consensus = (undoChallengeReveal c tx).consensus := by
  have hSame : c.consensus.mapChallenges[tx.opoiRequestId]? = c.mapChallenges[tx.opoiRequestId]? :=
    rfl
  unfold undoChallengeReveal
  rw [hSame]
  cases c.mapChallenges[tx.opoiRequestId]? with
  | none => rfl
  | some ch =>
    cases hStatus : ch.challengeStatus with
    | slashed =>
      simp only [hStatus, modifyResponderStake_eq]
      rfl
    | resolvedNoOracle | opened | expired | revealedPending =>
      simp only [hStatus]
      rfl

theorem consensus_undoAuditorVerify :
    (undoAuditorVerify c.consensus tx).consensus = (undoAuditorVerify c tx).consensus := by
  unfold undoAuditorVerify unlockUnlessSlashed
  split
  · have hSame : c.consensus.mapAuditorVerifications = c.mapAuditorVerifications := rfl
    simp only [hSame]
    split
    · rfl
    · rfl
  · have hSame : c.consensus.mapShardAuditorVerifications = c.mapShardAuditorVerifications := rfl
    simp only [hSame]
    split
    · rfl
    · rfl

theorem consensus_undo :
    (undoOPoITransaction c.consensus tx).consensus = (undoOPoITransaction c tx).consensus := by
  unfold undoOPoITransaction
  cases hType : tx.opoiType with
  | request => rfl
  | response =>
    dsimp only
    split
    · rfl
    · rfl
  | stake => rfl
  | unstake => rfl
  | renew => rfl
  | challenge =>
    dsimp only
    split
    · rfl
    · exact consensus_undoChallengeReveal c tx
  | modelRegister => rfl
  | modelVote => rfl
  | coordinatorClaim => rfl
  | shardResult => rfl
  | auditorVerify => exact consensus_undoAuditorVerify c tx
  | unknown => rfl

end Consensus

/-! ## Passes -/

/-- A transition whose effect on a part of the cache is determined by that part. -/
def ReadsPart (p : CachePart) (f : OPoICache → OPoICache) : Prop :=
  ∀ c, (f (c.part p)).part p = (f c).part p

namespace ReadsPart

variable {p : CachePart} {f g : OPoICache → OPoICache} {c d : OPoICache}

theorem congr (h : ReadsPart p f) (hSame : c.part p = d.part p) : (f c).part p = (f d).part p := by
  rw [← h c, hSame, h d]

theorem comp (hg : ReadsPart p g) (hf : ReadsPart p f) : ReadsPart p fun c => g (f c) :=
  fun c => hg.congr (hf c)

theorem foldl {α : Type} {step : OPoICache → α → OPoICache}
    (h : ∀ a, ReadsPart p fun c => step c a) (l : List α) :
    ReadsPart p fun c => l.foldl step c := by
  intro c
  have hPart : (c.part p).part p = c.part p := by cases p <;> rfl
  exact List.foldl_rel (r := fun b b' : OPoICache => b.part p = b'.part p) hPart
    fun a _ b b' hSame => (h a).congr hSame

theorem foldl_of {α : Type} {step : OPoICache → α → OPoICache} {list : OPoICache → List α}
    (hList : ∀ c, list (c.part p) = list c) (h : ∀ a, ReadsPart p fun c => step c a) :
    ReadsPart p fun c => (list c).foldl step c := by
  intro c
  dsimp only
  rw [hList]
  exact foldl h (list c) c

end ReadsPart

section Passes

variable (p : CachePart) (env : Env) (blockHeight : Nat) (vtx : List CTransaction)

theorem readsPart_expireChallenge (key : String) :
    ReadsPart p fun c => expireChallenge env blockHeight c key := by
  intro c
  have hCh : (c.part p).mapChallenges[key]? = c.mapChallenges[key]? := by cases p <;> rfl
  have hVotes : ∀ r, (c.part p).getAuditorMajorityResult r env.params.nOPoIMinAuditors =
      c.getAuditorMajorityResult r env.params.nOPoIMinAuditors := by cases p <;> exact fun _ => rfl
  simp only [expireChallenge, hCh, hVotes]
  cases c.mapChallenges[key]? with
  | none => cases p <;> rfl
  | some ch =>
    dsimp only
    split
    · split
      · cases p <;> rfl
      · cases p <;> rfl
    · split
      · split
        · simp only [proveChallenge, modifyResponderStake_eq]
          cases p <;> rfl
        · cases p <;> rfl
        · cases p <;> rfl
      · cases p <;> rfl

theorem readsPart_releaseStake (key : String) :
    ReadsPart p fun c => releaseStake env blockHeight c key := by
  intro c
  have hStake : (c.part p).mapStakes[key]? = c.mapStakes[key]? := by cases p <;> rfl
  simp only [releaseStake, hStake]
  cases c.mapStakes[key]? with
  | none => cases p <;> rfl
  | some stake =>
    dsimp only
    split
    · cases p <;> rfl
    · cases p <;> rfl

theorem readsPart_expiredRequests : ReadsPart p (processExpiredRequests env blockHeight) := by
  intro c
  unfold processExpiredRequests
  split
  · cases p <;> rfl
  · cases p <;> rfl

theorem readsPart_commitWindows : ReadsPart p (processResponseCommitWindows env blockHeight) := by
  intro c
  unfold processResponseCommitWindows
  split
  · cases p <;> rfl
  · cases p <;> rfl

theorem readsPart_stakeRenewals : ReadsPart p (processStakeRenewals env blockHeight) := by
  intro c
  unfold processStakeRenewals
  split
  · cases p <;> rfl
  · cases p <;> rfl

theorem readsPart_assignCanary : ReadsPart p (assignCanary env blockHeight) := by
  intro c
  have hStakes : (c.part p).mapStakes = c.mapStakes := by cases p <;> rfl
  simp only [assignCanary, hStakes]
  split
  · cases p <;> rfl
  · split
    · cases p <;> rfl
    · cases p <;> rfl

theorem readsPart_canaryAudits : ReadsPart p (processCanaryAudits env blockHeight) := by
  have hStrikes : ReadsPart p fun c => { c with
      mapStakes := c.mapStakes.map fun _ s => strikeMissed blockHeight s } := by
    cases p <;> exact fun _ => rfl
  intro c
  unfold processCanaryAudits
  split
  · cases p <;> rfl
  · exact (readsPart_assignCanary p env blockHeight).comp hStrikes c

theorem readsPart_modelVotingWindows :
    ReadsPart p (processModelVotingWindows env blockHeight) := by
  have hTally : ∀ m, ReadsPart p fun c => tallyManifest env blockHeight c m := by
    intro m c
    have hWeights : ((c.part p).tallyModelVotes m.modelId).1 = (c.tallyModelVotes m.modelId).1 := by
      cases p <;> rfl
    have hTotal : (c.part p).totalActiveStake = c.totalActiveStake := by cases p <;> rfl
    simp only [tallyManifest, hWeights, hTotal]
    split
    · cases p <;> rfl
    · cases p <;> rfl
  have hActivate : ∀ m, ReadsPart p fun c => activateManifest blockHeight c m := by
    intro m c
    simp only [activateManifest]
    split
    · cases p <;> rfl
    · cases p <;> rfl
  have hTallied : ReadsPart p fun c =>
      (c.listManifestsDueForTally blockHeight).foldl (tallyManifest env blockHeight) c :=
    .foldl_of (by cases p <;> exact fun _ => rfl) hTally
  have hActivated : ReadsPart p fun c =>
      ((TreeMap.vals c.mapModelManifests).filter (·.status == .approved)).foldl
        (activateManifest blockHeight) c :=
    .foldl_of (by cases p <;> exact fun _ => rfl) hActivate
  exact hActivated.comp hTallied

theorem readsPart_shardPayments : ReadsPart p (processShardPayments env vtx) :=
  .foldl_of (by cases p <;> exact fun _ => rfl) fun _ => by cases p <;> exact fun _ => rfl

theorem readsPart_verifiablePayments : ReadsPart p (processVerifiableResponsePayments env vtx) :=
  .foldl_of (by cases p <;> exact fun _ => rfl) fun _ => by cases p <;> exact fun _ => rfl

theorem readsPart_auditSampledPayments :
    ReadsPart p (processAuditSampledOpenResponsePayments env blockHeight vtx) :=
  .foldl_of (by cases p <;> exact fun _ => rfl) fun _ => by cases p <;> exact fun _ => rfl

theorem readsPart_challengerRewardPayments :
    ReadsPart p (processChallengerRewardPayments env vtx) :=
  .foldl_of (by cases p <;> exact fun _ => rfl) fun _ => by cases p <;> exact fun _ => rfl

theorem readsPart_unlockMajority (majority : Nat) (verifs : List AuditorVerification) :
    ReadsPart p fun c => unlockMajority majority c verifs := by
  refine .foldl (fun v c => ?_) verifs
  split
  · cases p <;> rfl
  · cases p <;> rfl

theorem readsPart_resolveCanary (majority : Nat) (requestId : String) :
    ReadsPart p fun c => resolveCanary majority c requestId := by
  intro c
  have hRequest : (c.part p).mapRequests[requestId]? = c.mapRequests[requestId]? := by
    cases p <;> rfl
  simp only [resolveCanary, hRequest, modifyResponderStake_eq]
  cases c.mapRequests[requestId]? with
  | none => cases p <;> rfl
  | some req =>
    dsimp only
    split
    · cases p <;> rfl
    · split
      · cases p <;> rfl
      · split
        · cases p <;> rfl
        · cases p <;> rfl

theorem readsPart_resolveAuditors (requestId : String) :
    ReadsPart p fun c => resolveAuditors env c requestId := by
  intro c
  have hResolved : (c.part p).isAuditorResolved requestId = c.isAuditorResolved requestId := by
    cases p <;> rfl
  have hVotes : (c.part p).getAuditorMajorityResult requestId env.params.nOPoIMinAuditors =
      c.getAuditorMajorityResult requestId env.params.nOPoIMinAuditors := by cases p <;> rfl
  have hList : (c.part p).getAuditorVerifications requestId =
      c.getAuditorVerifications requestId := by cases p <;> rfl
  simp only [resolveAuditors, hResolved, hVotes, hList]
  split
  · cases p <;> rfl
  · split
    · cases p <;> rfl
    · rename_i majority _
      have hMark : ReadsPart p fun c => { c with
          mapAuditorVerifications := c.mapAuditorVerifications.modify requestId
            (·.map (resolveVote majority)) }.markAuditorResolved requestId := by
        cases p <;> exact fun _ => rfl
      exact (readsPart_resolveCanary p majority requestId).comp
        (hMark.comp (readsPart_unlockMajority p majority (c.getAuditorVerifications requestId))) c

theorem readsConsensus_resolveShardAuditors (key : String) :
    ReadsPart .consensus fun c => resolveShardAuditors env c key := by
  intro c
  have hList : (c.part .consensus).mapShardAuditorVerifications[key]? =
      c.mapShardAuditorVerifications[key]? := rfl
  have hResolved : ∀ r i, (c.part .consensus).isShardAuditorResolved r i =
      c.isShardAuditorResolved r i := fun _ _ => rfl
  simp only [resolveShardAuditors, hList, hResolved]
  cases c.mapShardAuditorVerifications[key]? with
  | none => rfl
  | some verifs =>
    dsimp only
    split
    · rfl
    · split
      · rfl
      · split
        · rfl
        · rename_i front _ _ _ majority _
          have hMark : ReadsPart .consensus fun c => { c with
              mapShardAuditorVerifications := c.mapShardAuditorVerifications.modify key
                (·.map (resolveVote majority)) }.markShardAuditorResolved front.requestId
                front.shardIndex := fun _ => rfl
          exact hMark.comp (readsPart_unlockMajority .consensus majority verifs) c

theorem wholePart_resolveShards (keys : List String) (c : OPoICache) :
    (keys.foldl (resolveShardAuditors env) c).wholePart = c.wholePart := by
  refine List.foldlRecOn (motive := fun d : OPoICache => d.wholePart = c.wholePart) keys _ rfl
    fun d hd key _ => ?_
  obtain ⟨_, _, _, _, hEq⟩ := resolveShardAuditors_eq env d key
  rw [hEq]
  exact hd

theorem readsPart_auditorVerifications : ReadsPart p (processAuditorVerifications env) := by
  have hWhole : ReadsPart p fun c =>
      c.mapAuditorVerifications.keys.foldl (resolveAuditors env) c :=
    .foldl_of (by cases p <;> exact fun _ => rfl) (readsPart_resolveAuditors p env)
  cases p with
  | consensus =>
    have hShards : ReadsPart .consensus fun c =>
        c.mapShardAuditorVerifications.keys.foldl (resolveShardAuditors env) c :=
      .foldl_of (fun _ => rfl) (readsConsensus_resolveShardAuditors env)
    exact hShards.comp hWhole
  | whole =>
    intro c
    exact (wholePart_resolveShards env _ _).trans
      ((hWhole c).trans (wholePart_resolveShards env _ _).symm)

theorem readsPart_expiredChallenges : ReadsPart p (processExpiredChallenges env blockHeight) := by
  have hExpire : ReadsPart p fun c =>
      c.mapChallenges.keys.foldl (expireChallenge env blockHeight) c :=
    .foldl_of (by cases p <;> exact fun _ => rfl) (readsPart_expireChallenge p env blockHeight)
  have hRelease : ReadsPart p fun c =>
      c.mapStakes.keys.foldl (releaseStake env blockHeight) c :=
    .foldl_of (by cases p <;> exact fun _ => rfl) (readsPart_releaseStake p env blockHeight)
  exact hRelease.comp hExpire

theorem readsPart_blockPasses : ReadsPart p (blockPasses env blockHeight vtx) :=
  (readsPart_auditorVerifications p env).comp
    ((readsPart_auditSampledPayments p env blockHeight vtx).comp
      ((readsPart_verifiablePayments p env vtx).comp ((readsPart_shardPayments p env vtx).comp
          ((readsPart_modelVotingWindows p env blockHeight).comp
            ((readsPart_canaryAudits p env blockHeight).comp
              ((readsPart_stakeRenewals p env blockHeight).comp
                ((readsPart_commitWindows p env blockHeight).comp
                  ((readsPart_expiredRequests p env blockHeight).comp
                    (readsPart_expiredChallenges p env blockHeight)))))))))

theorem readsPart_connectPasses : ReadsPart p (connectPasses env blockHeight vtx) :=
  (readsPart_blockPasses p env blockHeight vtx).comp (readsPart_challengerRewardPayments p env vtx)

theorem consensus_blockPasses {c d : OPoICache} (hSame : c.consensus = d.consensus) :
    (blockPasses env blockHeight vtx c).consensus = (blockPasses env blockHeight vtx d).consensus :=
  (readsPart_blockPasses .consensus env blockHeight vtx).congr hSame

theorem wholePart_connectPasses {c d : OPoICache} (hSame : c.wholePart = d.wholePart) :
    (connectPasses env blockHeight vtx c).wholePart =
      (connectPasses env blockHeight vtx d).wholePart :=
  (readsPart_connectPasses .whole env blockHeight vtx).congr hSame

end Passes

end CloudService
