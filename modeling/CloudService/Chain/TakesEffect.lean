/-
  An OPoI transaction has no inputs, so only the checks of its type keep it from being
  connected again. Some types leave a record for good that does.
-/

import CloudService.Chain.Turns
import CloudService.Responses.Reveals

namespace CloudService

open OPoICache TreeMap

/-- A turn of the transaction in the block changes the cache. -/
def HasEffect (env : Env) (tx : CTransaction) (node : NodeState) (block : CBlock) : Prop :=
  ∃ e ∈ turns env node block, e.2 = tx ∧
    applyOPoITransaction env node.chainActive node.nextHeight e.1 e.2 ≠ e.1

/-- In at most one block of the run does the transaction change the cache. -/
def TakesEffectOnce (env : Env) (blocks : List CBlock) (tx : CTransaction) : Prop :=
  (blockTrace env blocks).Pairwise fun a b =>
    ¬(HasEffect env tx a.1 a.2 ∧ HasEffect env tx b.1 b.2)

def isReplayable (tx : CTransaction) : Bool :=
  match tx.opoiType with
  | .stake | .unstake | .challenge | .modelVote => true
  | .response => tx.opoiResponsePhase == 0
  | .request | .renew | .modelRegister | .coordinatorClaim | .shardResult | .auditorVerify
  | .unknown => false

/-- No transaction of these types is connected that is in the active chain already. -/
def NoReplay (_ : Env) (node : NodeState) (block : CBlock) : Prop :=
  ∀ tx ∈ opoiTxs block.vtx, isReplayable tx = true → ∀ b ∈ node.chain, tx ∉ b.vtx
deriving Decidable

/-- The record that a transaction of the other types leaves for good. -/
def onRecord (c : OPoICache) (tx : CTransaction) : Bool :=
  match tx.opoiType with
  | .request => (c.mapRequests[tx.opoiRequestId]?).isSome
  | .response => hasRevealed c tx.opoiRequestId tx.opoiMinerAddress
  | .modelRegister => (c.mapModelManifests[tx.opoiModelId]?).isSome
  | .coordinatorClaim => c.isClaimedCoordinator tx.opoiRequestId tx.opoiMinerAddress
  | .shardResult =>
    hasSubmitted (c.listShardResults tx.opoiRequestId tx.opoiShardIndex) tx.opoiMinerAddress
  | .auditorVerify =>
    if tx.opoiShardIndex = OPOI_AUDITOR_VERIFY_NO_SHARD then
      hasVoted (c.getAuditorVerifications tx.opoiRequestId) tx.opoiAuditorAddress
    else hasVoted (c.shardVerifications (shardKey tx.opoiRequestId tx.opoiShardIndex))
      tx.opoiAuditorAddress
  | .stake | .unstake | .renew | .challenge | .modelVote | .unknown => false

section TakesEffect

variable {env : Env} {chainActive : List Uint256} {height : Nat} {c c' : OPoICache}
  {tx t : CTransaction} {node node' : NodeState} {block : CBlock}

/-! ## The records -/

theorem Persists.onRecord (h : Persists c c') (hRecord : onRecord c tx = true) :
    onRecord c' tx = true := by
  unfold CloudService.onRecord at hRecord ⊢
  cases hType : tx.opoiType with
  | request =>
    simp only [hType] at hRecord ⊢
    obtain ⟨req, hReq⟩ := Option.isSome_iff_exists.mp hRecord
    obtain ⟨req', hReq', _⟩ := h.requests _ req hReq
    rw [hReq']
    rfl
  | response =>
    simp only [hType] at hRecord ⊢
    exact h.hasRevealed hRecord
  | modelRegister =>
    simp only [hType] at hRecord ⊢
    obtain ⟨m, hm⟩ := Option.isSome_iff_exists.mp hRecord
    obtain ⟨m', hm', _⟩ := h.manifests _ m hm
    rw [hm']
    rfl
  | coordinatorClaim =>
    simp only [hType] at hRecord ⊢
    exact h.claims _ _ hRecord
  | shardResult =>
    simp only [hType] at hRecord ⊢
    exact h.submissions _ _ hRecord
  | auditorVerify =>
    simp only [hType] at hRecord ⊢
    split
    · rename_i hWhole
      rw [if_pos hWhole] at hRecord
      exact h.votes _ _ hRecord
    · rename_i hShard
      rw [if_neg hShard] at hRecord
      exact h.shardVotes _ _ hRecord
  | stake | unstake | renew | challenge | modelVote | unknown => simp [hType] at hRecord

theorem onRecord_apply_of_record (hReveal : tx.opoiType ≠ .response)
    (hRecord : onRecord c tx = true) :
    onRecord (applyOPoITransaction env chainActive height c t) tx = true := by
  cases hType : tx.opoiType with
  | response => exact absurd hType hReveal
  | request =>
    simp only [onRecord, hType] at hRecord ⊢
    rcases mapRequests_cases env chainActive height c t with ⟨_, req, hMap, _⟩ | ⟨_, f, hMap, _⟩ |
      ⟨_, hMap⟩
    · rw [hMap, getElem?_insert_eq]
      split
      · rfl
      · exact hRecord
    · rw [hMap, getElem?_modify_eq]
      split
      · rw [Option.isSome_map]
        exact hRecord
      · exact hRecord
    · rw [hMap]
      exact hRecord
  | modelRegister =>
    simp only [onRecord, hType] at hRecord ⊢
    rcases mapModelManifests_cases env chainActive height c t with ⟨_, m, hMap, _⟩ | hMap
    · rw [hMap, getElem?_insert_eq]
      split
      · rfl
      · exact hRecord
    · rw [hMap]
      exact hRecord
  | coordinatorClaim | shardResult | auditorVerify =>
    -- without the requests and the models, every transaction keeps what is on record
    have hBase : Persists { c with mapRequests := ∅, mapModelManifests := ∅ } c :=
      { Persists.refl c with
        requests := fun r req hReq => by simp at hReq
        manifests := fun id m hm => by simp at hm }
    have hKept : Persists { c with mapRequests := ∅, mapModelManifests := ∅ }
        (applyOPoITransaction env chainActive height c t) :=
      hBase.applyNew (fun _ => by simp) fun _ => by simp
    refine hKept.onRecord ?_
    simp only [onRecord, hType] at hRecord ⊢
    exact hRecord
  | stake | unstake | renew | challenge | modelVote | unknown => simp [onRecord, hType] at hRecord

theorem onRecord_apply (hReveal : tx.opoiType ≠ .response) (hLasting : isReplayable tx = false)
    (hRenew : tx.opoiType ≠ .renew) (hKnown : tx.opoiType ≠ .unknown) :
    onRecord (applyOPoITransaction env chainActive height c tx) tx = true := by
  cases hType : tx.opoiType with
  | response => exact absurd hType hReveal
  | renew => exact absurd hType hRenew
  | unknown => exact absurd hType hKnown
  | stake | unstake | challenge | modelVote => simp [isReplayable, hType] at hLasting
  | request =>
    simp only [onRecord, applyOPoITransaction, hType]
    simp [applyRequest, addRequest]
  | modelRegister =>
    simp only [onRecord, applyOPoITransaction, hType]
    simp [applyModelRegister, addModelManifest]
  | coordinatorClaim =>
    simp only [onRecord, applyOPoITransaction, hType, applyCoordinatorClaim,
      addCoordinatorClaim, isClaimedCoordinator, Std.ExtTreeMap.getD_insert_self]
    split
    · assumption
    · simp
  | shardResult =>
    simp only [onRecord, applyOPoITransaction, hType, applyShardResult, addShardResult,
      hasSubmitted]
    rw [listShardResults, Std.ExtTreeMap.getD_insert_self]
    split
    · assumption
    · simp
  | auditorVerify =>
    have hVoted : ∀ verifs, hasVoted (addVote verifs (newVote env height tx))
        tx.opoiAuditorAddress = true := by
      intro verifs
      unfold addVote hasVoted
      split
      · assumption
      · simp [newVote]
    simp only [onRecord, hType]
    rcases votes_cases env chainActive height c tx with ⟨_, hWhole, hMap, _⟩ |
      ⟨_, hShard, _, hMap⟩ | ⟨hOther, _⟩
    · rw [if_pos hWhole, getAuditorVerifications, hMap, Std.ExtTreeMap.getD_insert_self]
      exact hVoted _
    · rw [if_neg hShard, shardVerifications, hMap, Std.ExtTreeMap.getD_insert_self]
      exact hVoted _
    · exact absurd hType hOther

theorem apply_eq_self_of_onRecord (hRecord : onRecord c tx = true)
    (hType : tx.opoiType = .coordinatorClaim ∨ tx.opoiType = .shardResult ∨
      tx.opoiType = .auditorVerify) :
    applyOPoITransaction env chainActive height c tx = c := by
  rcases hType with hType | hType | hType
  · simp only [onRecord, hType, isClaimedCoordinator] at hRecord
    simp only [applyOPoITransaction, hType, applyCoordinatorClaim, addCoordinatorClaim,
      hRecord, if_true]
    rw [insert_getD_eq_self]
    intro hNil
    simp [hNil] at hRecord
  · simp only [onRecord, hType, hasSubmitted] at hRecord
    simp only [applyOPoITransaction, hType, applyShardResult, addShardResult, hRecord, if_true]
    rw [listShardResults] at hRecord ⊢
    rw [insert_getD_eq_self]
    intro hNil
    simp [hNil] at hRecord
  · simp only [onRecord, hType] at hRecord
    simp only [applyOPoITransaction, hType, applyAuditorVerify]
    split
    · rename_i hWhole
      rw [if_pos hWhole] at hRecord
      rw [addAuditorVerification_of_voted (v := newVote env height tx) hRecord]
      unfold hasVoted getAuditorVerifications at hRecord
      unfold getAuditorVerifications
      simp only [newVote]
      rw [insert_getD_eq_self]
      intro hNil
      simp [hNil] at hRecord
    · rename_i hShard
      rw [if_neg hShard] at hRecord
      rw [addShardAuditorVerification_of_voted (v := newVote env height tx) hRecord]
      unfold hasVoted shardVerifications at hRecord
      unfold shardVerifications
      rw [insert_getD_eq_self]
      intro hNil
      simp [hNil] at hRecord

/-! ## A block -/

theorem isReveal_of_response (hType : tx.opoiType = .response)
    (hLasting : isReplayable tx = false) :
    isReveal tx = true := by
  simp only [isReplayable, hType] at hLasting
  simp only [isReveal, hType, bne, hLasting, beq_self_eq_true, Bool.not_false, Bool.and_self]

theorem onRecord_afterTxs (hBlock : AcceptedBlock env node block) (hMem : tx ∈ opoiTxs block.vtx)
    (hLasting : isReplayable tx = false) (hRenew : tx.opoiType ≠ .renew)
    (hKnown : tx.opoiType ≠ .unknown) : onRecord (afterTxs env node block.vtx) tx = true := by
  by_cases hType : tx.opoiType = .response
  · have hRevealed := hasRevealed_afterTxs hBlock hMem (isReveal_of_response hType hLasting)
    simpa only [onRecord, hType] using hRevealed
  · obtain ⟨before, after, hSplit⟩ := List.append_of_mem hMem
    rw [afterTxs, hSplit, List.foldl_append, List.foldl_cons]
    exact List.foldlRecOn (motive := fun d : OPoICache => onRecord d tx = true) after _
      (onRecord_apply hType hLasting hRenew hKnown) fun d hd t _ =>
        onRecord_apply_of_record hType hd

theorem not_hasEffect_of_onRecord (hBlock : AcceptedBlock env node block)
    (hLasting : isReplayable tx = false) (hRecord : onRecord node.cache tx = true) :
    ¬HasEffect env tx node block := by
  rintro ⟨e, he, rfl, hEffect⟩
  obtain ⟨hIn, hMem⟩ := inBlock_of_turn hBlock e he
  obtain ⟨hVtx, hOPoI⟩ := mem_opoiTxs.mp hMem
  have hChecked := (hBlock.txs e.2 hVtx).checked
  have hBranch := checkOPoITransaction_branch hChecked hOPoI
  cases hType : e.2.opoiType with
  | request =>
    simp only [hType] at hBranch
    simp [onRecord, hType, (checkRequest_eq_ok hBranch).1] at hRecord
  | response =>
    have hNew := (reveal_of_accepted hChecked hOPoI (isReveal_of_response hType hLasting)).2.1
    simp [onRecord, hType, hNew] at hRecord
  | modelRegister =>
    simp only [hType] at hBranch
    simp [onRecord, hType, Persists.checkModelRegister_new hBranch] at hRecord
  | coordinatorClaim | shardResult | auditorVerify =>
    exact hEffect (apply_eq_self_of_onRecord (hIn.kept.onRecord hRecord) (by simp [hType]))
  | stake | unstake | renew | challenge | modelVote | unknown => simp [onRecord, hType] at hRecord

/-! ## Runs -/

/-- What a transaction leaves behind: it is in the chain, or its record is in the cache. -/
def Seen (tx : CTransaction) (node : NodeState) : Prop :=
  (isReplayable tx = true → ∃ b ∈ node.chain, tx ∈ b.vtx) ∧
    (isReplayable tx = false → onRecord node.cache tx = true)

theorem Seen.keep (h : Seen tx node) (hTip : connectTip env node block = .ok node') :
    Seen tx node' := by
  obtain ⟨_, hChain, _⟩ := connectTip_cache hTip
  refine ⟨fun hReplayable => ?_, fun hLasting =>
    (persists_of_connectTip hTip).onRecord (h.2 hLasting)⟩
  obtain ⟨b, hb, hMem⟩ := h.1 hReplayable
  exact ⟨b, by rw [hChain]; exact List.mem_append_left _ hb, hMem⟩

theorem seen_of_hasEffect (hRenew : tx.opoiType ≠ .renew)
    (hTip : connectTip env node block = .ok node') (hEffect : HasEffect env tx node block) :
    Seen tx node' := by
  obtain ⟨hBlock, hChain, _⟩ := connectTip_cache hTip
  obtain ⟨e, he, rfl, hChanged⟩ := hEffect
  obtain ⟨_, hMem⟩ := inBlock_of_turn hBlock e he
  obtain ⟨hVtx, hOPoI⟩ := mem_opoiTxs.mp hMem
  refine ⟨fun _ => ⟨block, by simp [hChain], hVtx⟩, fun hLasting => ?_⟩
  have hKnown : e.2.opoiType ≠ .unknown := by
    intro hType
    exact hChanged (by simp only [applyOPoITransaction, hType])
  have hActive := (hBlock.txs e.2 hVtx).active hOPoI
  exact (persists_of_afterTxs hTip hActive).onRecord
    (onRecord_afterTxs hBlock hMem hLasting hRenew hKnown)

theorem Seen.not_hasEffect (h : Seen tx node) (hTip : connectTip env node block = .ok node')
    (hNew : NoReplay env node block) : ¬HasEffect env tx node block := by
  obtain ⟨hBlock, _, _⟩ := connectTip_cache hTip
  cases hReplayable : isReplayable tx with
  | false => exact not_hasEffect_of_onRecord hBlock hReplayable (h.2 hReplayable)
  | true =>
    rintro ⟨e, he, rfl, _⟩
    obtain ⟨b, hb, hMem⟩ := h.1 hReplayable
    exact hNew e.2 (inBlock_of_turn hBlock e he).2 hReplayable b hb hMem

/-- In every forward run that connects no STAKE, UNSTAKE, RESPONSE COMMIT, CHALLENGE or
    MODEL_VOTE of its own chain again, every transaction other than a RENEW has an effect in at
    most one block. -/
theorem takesEffectOnce_of_run (env : Env) (blocks : List CBlock) (node : NodeState)
    (hRun : ForwardRun env (NoReplay env) blocks node) (tx : CTransaction)
    (hRenew : tx.opoiType ≠ .renew) : TakesEffectOnce env blocks tx := by
  have hInv := Run.Steps.invariant_trace
    (fun (past : List (NodeState × CBlock)) node =>
      past.Pairwise (fun a b => ¬(HasEffect env tx a.1 a.2 ∧ HasEffect env tx b.1 b.2)) ∧
        ∀ e ∈ past, HasEffect env tx e.1 e.2 → Seen tx node)
    (fun past s i t h hOk hStep => by
      refine ⟨List.pairwise_append.mpr ⟨h.1, List.pairwise_singleton _ _, fun a ha b hb => ?_⟩,
        fun e he hEffect => ?_⟩
      · rintro ⟨hFirst, hSecond⟩
        rw [List.mem_singleton.mp hb] at hSecond
        exact (h.2 a ha hFirst).not_hasEffect hStep hOk hSecond
      · rcases List.mem_append.mp he with hPast | hNow
        · exact (h.2 e hPast hEffect).keep hStep
        · rw [List.mem_singleton.mp hNow] at hEffect
          exact seen_of_hasEffect hRenew hStep hEffect)
    hRun [] ⟨List.Pairwise.nil, by simp⟩
  exact hInv.1

end TakesEffect

/-! ## An UNSTAKE -/

def sampleRestake : List CBlock :=
  [sampleFunding, sampleBlock 3 [sampleStake "alice" ⟨4002, 1⟩ 1],
   sampleBlock 4 [sampleUnstake "alice" 2], sampleBlock 5 [sampleStake "alice" ⟨4002, 2⟩ 3]]

def unstakesAlice (e : NodeState × CBlock) : Bool :=
  (turns sampleNet e.1 e.2).any fun t => decide (t.2 = sampleUnstake "alice" 2) &&
    t.1.isActiveStaker "alice" && !(applyOPoITransaction sampleNet e.1.chainActive
      e.1.nextHeight t.1 t.2).isActiveStaker "alice"

theorem hasEffect_of_unstakesAlice {e : NodeState × CBlock} (h : unstakesAlice e = true) :
    HasEffect sampleNet (sampleUnstake "alice" 2) e.1 e.2 := by
  obtain ⟨t, ht, hTest⟩ := List.any_eq_true.mp h
  simp only [Bool.and_eq_true, decide_eq_true_eq, Bool.not_eq_true'] at hTest
  obtain ⟨⟨hTx, hBefore⟩, hAfter⟩ := hTest
  refine ⟨t, ht, hTx, fun hSame => ?_⟩
  rw [hSame, hBefore] at hAfter
  cases hAfter

/-- The UNSTAKE is connected once and has its effect once. -/
theorem takesEffectOnce_of_restake : ∃ node,
    ForwardRun sampleNet (NoReplay sampleNet) sampleRestake node ∧
    (∃ e ∈ blockTrace sampleNet
      sampleRestake, HasEffect sampleNet (sampleUnstake "alice" 2) e.1 e.2) ∧
    TakesEffectOnce sampleNet sampleRestake (sampleUnstake "alice" 2) := by
  refine Run.exists_steps_imp .other (fun _ => True) (by decide +kernel) fun node hRun _ =>
    ⟨?_, takesEffectOnce_of_run _ _ node hRun _ (by decide)⟩
  have hEffect : (blockTrace sampleNet sampleRestake).any unstakesAlice = true := by decide +kernel
  obtain ⟨e, he, hTest⟩ := List.any_eq_true.mp hEffect
  exact ⟨e, he, hasEffect_of_unstakesAlice hTest⟩

def sampleSecondUnstake : List CBlock :=
  sampleRestake ++ [sampleBlock 6 [sampleUnstake "alice" 2]]

/-- The old UNSTAKE is accepted against the new stake and ends it. -/
theorem not_takesEffectOnce_of_second_unstake : ∃ node,
    PlainRun sampleNet sampleSecondUnstake node ∧
    ¬TakesEffectOnce sampleNet sampleSecondUnstake (sampleUnstake "alice" 2) := by
  refine Run.exists_steps_imp .other (fun _ => True) (by decide +kernel) fun _ _ _ hOnce => ?_
  have hTests : (blockTrace sampleNet
      sampleSecondUnstake).map unstakesAlice = [false, false, true, false, true] := by
    decide +kernel
  unfold TakesEffectOnce at hOnce
  generalize blockTrace sampleNet
    sampleSecondUnstake = trace at hTests hOnce
  obtain _ | ⟨_, _ | ⟨_, _ | ⟨first, _ | ⟨_, _ | ⟨second, rest⟩⟩⟩⟩⟩ := trace
  all_goals simp at hTests
  obtain ⟨_, _, hFirst, _, hSecond, _⟩ := hTests
  simp only [List.pairwise_cons] at hOnce
  exact hOnce.2.2.1 second (by simp)
    ⟨hasEffect_of_unstakesAlice hFirst, hasEffect_of_unstakesAlice hSecond⟩

end CloudService
