/-
  `RebuildOPoICache`. The replay marks no challenger reward as paid, and it sees the hashes of
  the whole chain.
-/

import CloudService.Chain.Evaluate
import CloudService.OPoI.Consensus

namespace CloudService

open CTransaction NodeState

/-- The replay of one block at its height, with the given hashes in `chainActive`. -/
def replayBlock (env : Env) (chainActive : List Uint256) (c : OPoICache) (entry : CBlock × Nat) :
    OPoICache :=
  let applied := entry.1.vtx.foldl
    (fun c tx => processOPoITransaction env chainActive tx entry.2 false c) c
  if env.params.opoiActive entry.2 then blockPasses env entry.2 entry.1.vtx applied else applied

/-- `RebuildOPoICache`: the cache of the replayed chain. -/
def rebuildOPoICache (env : Env) (chain : List CBlock) (c : OPoICache) : OPoICache :=
  chain.zipIdx.foldl (replayBlock env (chain.map CBlock.hash)) c.setNull

/-- The block of the seed is known when the response is revealed, or the hash of the revealing
    block, which only the replay sees, does not select the response. -/
def seedSettled (env : Env) (height : Nat) (blockHash : Uint256) (c : OPoICache)
    (tx : CTransaction) : Bool :=
  let key := OPoICache.commitKey tx.opoiRequestId tx.opoiMinerAddress
  tx.opoiType != .response || tx.opoiResponsePhase == 0 ||
    (c.mapRequests[tx.opoiRequestId]?).all (·.isVerifiable) ||
    match c.mapResponseCommitHeight[key]?, c.mapResponseCommits[key]? with
    | some commitHeight, some commitHash =>
      decide (commitHeight + 1 < height) || (commitHeight + 1 == height &&
        !computeOPoIAuditSampleSelected env (parseHex commitHash) blockHash
          (auditSampleRateBp env.params c tx.opoiMinerAddress))
    | _, _ => true

def SeedSettled (env : Env) (block : CBlock) (node : NodeState) (st : LoopState)
    (tx : CTransaction) : Prop :=
  tx.isOPoITx = true → seedSettled env node.nextHeight block.hash st.cache tx = true
deriving Decidable

/-- Every audit sortition is settled, and no reward is due when the transactions are applied. -/
structure Replayable (env : Env) (node : NodeState) (block : CBlock) : Prop where
  txs : onBlock env (SeedSettled env block) node block
  rewards : ∀ st, connectLoop env {} node.context block node.cache = .ok st →
    getChallengerRewardsAtHeight env st.cache block.vtx = []

instance {env : Env} {node : NodeState} {block : CBlock} : Decidable (Replayable env node block) :=
  decidable_of_iff (_ ∧ _) ⟨fun h => ⟨h.1, h.2⟩, fun h => ⟨h.txs, h.rewards⟩⟩

section Replay

variable {env : Env} {node node' : NodeState} {block : CBlock} {st st' : LoopState}
  {hashes : List Uint256} {c : OPoICache} {tx : CTransaction}

/-! ## The audit sortition -/

/-- The replay decides a settled sortition as the connected block did. -/
theorem evaluate_of_settled (hNext : isNextBlock node block = true)
    (hHashes : node.chainActive ++ [block.hash] <+: hashes) (hType : tx.opoiType = .response)
    (hReveal : tx.opoiResponsePhase ≠ 0)
    (hSettled : seedSettled env node.nextHeight block.hash c tx = true) :
    evaluateOPoIAuditSample env hashes c tx.opoiRequestId tx.opoiMinerAddress node.nextHeight =
      evaluateOPoIAuditSample env node.chainActive c tx.opoiRequestId tx.opoiMinerAddress
        node.nextHeight := by
  obtain ⟨later, rfl⟩ := hHashes
  have hLength : node.chainActive.length = node.nextHeight := by
    simp [chainActive, nextHeight]
  have hHeight : node.nextHeight < 2147483648 := by
    simp only [isNextBlock, Bool.and_eq_true, decide_eq_true_eq] at hNext
    exact hNext.2
  unfold evaluateOPoIAuditSample
  cases hRequest : c.mapRequests[tx.opoiRequestId]? with
  | none => rfl
  | some req =>
    dsimp only
    split
    · rfl
    · rename_i hOpen
      cases hCommitHeight : c.mapResponseCommitHeight[
          OPoICache.commitKey tx.opoiRequestId tx.opoiMinerAddress]? with
      | none => rfl
      | some commitHeight =>
        cases hCommit : c.mapResponseCommits[
            OPoICache.commitKey tx.opoiRequestId tx.opoiMinerAddress]? with
        | none => rfl
        | some commitHash =>
          simp only [seedSettled, hType, hRequest, hCommitHeight, hCommit, Option.all_some,
            bne_self_eq_false, beq_iff_eq, Bool.false_or, Bool.or_eq_true, Bool.and_eq_true,
            decide_eq_true_eq, Bool.not_eq_true', hReveal, hOpen, Bool.false_eq_true,
            false_or] at hSettled
          unfold getOPoIAuditSampleSeedHash
          rcases hSettled with hOld | ⟨hLast, hMissed⟩
          · -- Both see the block after the commit.
            have hIndex : u32 (commitHeight + 1) < node.chainActive.length := by
              unfold u32
              omega
            dsimp only
            rw [List.append_assoc, List.getElem?_append_left hIndex]
          · -- Only the replay sees it, and it does not select the response.
            have hIndex : u32 (commitHeight + 1) = node.chainActive.length := by
              rw [hLength, hLast]
              unfold u32
              omega
            dsimp only
            rw [hIndex]
            simp [hMissed]

/-! ## One block -/

theorem apply_of_settled (hNext : isNextBlock node block = true)
    (hHashes : node.chainActive ++ [block.hash] <+: hashes)
    (hSettled : seedSettled env node.nextHeight block.hash c tx = true) :
    applyOPoITransaction env hashes node.nextHeight c tx =
      applyOPoITransaction env node.chainActive node.nextHeight c tx := by
  unfold applyOPoITransaction
  cases hType : tx.opoiType with
  | response =>
    dsimp only
    split
    · rfl
    · rename_i hReveal
      unfold applyResponseReveal revealedResponse
      rw [evaluate_of_settled hNext hHashes hType hReveal hSettled]
  | request | stake | unstake | renew | challenge | modelRegister | modelVote | coordinatorClaim
    | shardResult | auditorVerify | unknown => rfl

theorem replay_loop (hNext : isNextBlock node block = true)
    (hHashes : node.chainActive ++ [block.hash] <+: hashes) {txs : List CTransaction}
    (hSteps : Run.Steps (connectTx env {} node.context block) (SeedSettled env block node) st txs
      st') (hTxs : ∀ tx ∈ txs, AcceptedTx env node tx) {a : OPoICache}
    (hSame : a.consensus = st.cache.consensus) :
    (txs.foldl (fun c tx => processOPoITransaction env hashes tx node.nextHeight false c)
      a).consensus = st'.cache.consensus := by
  induction hSteps generalizing a with
  | nil st => exact hSame
  | cons hTurn hOk _ ih =>
    rename_i s t u tx rest _
    have hTx : AcceptedTx env node tx := hTxs tx List.mem_cons_self
    refine ih (fun t hMem => hTxs t (List.mem_cons_of_mem _ hMem)) ?_
    rw [(connectTx_eq_ok hTurn).1, hTx.loopCache_eq]
    unfold processOPoITransaction
    cases hOPoI : tx.isOPoITx with
    | false =>
      have hVersion : tx.nVersion ≠ OPOI_TX_VERSION := by
        simpa [isOPoITx] using hOPoI
      simpa [hVersion] using hSame
    | true =>
      have hVersion := tx.nVersion_of_isOPoITx hOPoI
      simp only [hVersion, ne_eq, not_true_eq_false, if_false, Bool.false_eq_true, if_true]
      rw [← apply_of_settled hNext hHashes (hOk hOPoI),
        ← consensus_apply env hashes node.nextHeight a tx, hSame, consensus_apply]

theorem replayBlock_eq (hTip : connectTip env node block = .ok node')
    (hSafe : Replayable env node block) (hHashes : node.chainActive ++ [block.hash] <+: hashes)
    {a : OPoICache} (hSame : a.consensus = node.cache.consensus) :
    (replayBlock env hashes a (block, node.nextHeight)).consensus = node'.cache.consensus := by
  obtain ⟨st, hNext, hPre, hLoop, _, hNode⟩ := connectTip_eq_ok hTip
  have hApplied := replay_loop hNext hHashes
    (steps_of_connectLoop (p := SeedSettled env block) hLoop hSafe.txs)
    (AcceptedBlock.of_preChecks hPre).txs (a := a) hSame
  rw [hNode, extend_cache]
  unfold replayBlock
  by_cases hActive : env.params.opoiActive node.nextHeight = true
  · -- No reward is due, so the marks change nothing.
    have hMarks : processChallengerRewardPayments env block.vtx st.cache = st.cache := by
      unfold processChallengerRewardPayments
      rw [hSafe.rewards st hLoop]
      rfl
    rw [connectTransitions_of_active hActive, connectPasses, hMarks, if_pos hActive]
    exact consensus_blockPasses env node.nextHeight block.vtx hApplied
  · rw [connectTransitions_of_inactive (by simpa using hActive), if_neg hActive]
    exact hApplied

/-! ## The genesis block -/

theorem blockPasses_empty (height : Nat) {vtx : List CTransaction}
    (hVtx : ∀ tx ∈ vtx, tx.isOPoITx = false) : blockPasses env height vtx {} = {} := by
  have hTxs : ∀ t, blockTxs vtx t = [] := by
    intro t
    rw [blockTxs, List.filter_eq_nil_iff]
    intro tx hMem
    simp [isOPoI, hVtx tx (List.mem_of_mem_tail hMem)]
  have hTouched : touchedShards vtx = [] := by
    rw [touchedShards, hTxs]
    rfl
  have hExpired : processExpiredChallenges env height {} = {} := rfl
  have hRequests : processExpiredRequests env height {} = {} := ite_self _
  have hWindows : processResponseCommitWindows env height {} = {} := ite_self _
  have hRenewals : processStakeRenewals env height {} = {} := ite_self _
  have hCanary : processCanaryAudits env height {} = {} := by
    have hAssign : assignCanary env height {} = {} := ite_self _
    exact (ite_congr rfl (fun _ => rfl) fun _ => hAssign).trans (ite_self _)
  have hModels : processModelVotingWindows env height {} = {} := rfl
  have hShards : processShardPayments env vtx {} = {} := by
    rw [processShardPayments, getShardPaymentsForBlock, hTouched]
    rfl
  have hVerifiable : processVerifiableResponsePayments env vtx {} = {} := rfl
  have hSampled : processAuditSampledOpenResponsePayments env height vtx {} = {} := rfl
  have hAuditors : processAuditorVerifications env {} = {} := rfl
  simp only [blockPasses, hExpired, hRequests, hWindows, hRenewals, hCanary, hModels, hShards,
    hVerifiable, hSampled, hAuditors]

theorem replayBlock_genesis (c : OPoICache) :
    (replayBlock env hashes c.setNull (env.genesis, 0)).consensus = {} := by
  have hApplied : env.genesis.vtx.foldl
      (fun c tx => processOPoITransaction env hashes tx 0 false c) c.setNull = c.setNull := by
    refine List.foldlRecOn (motive := (· = c.setNull)) _ _ rfl fun a ha tx hMem => ?_
    have hVersion : tx.nVersion ≠ OPOI_TX_VERSION := by
      simpa [isOPoITx] using env.genesis_no_opoi tx hMem
    rw [processOPoITransaction, if_pos hVersion, ha]
  unfold replayBlock
  rw [hApplied]
  split
  · have hEmpty : c.setNull.consensus = ({} : OPoICache).consensus := rfl
    rw [consensus_blockPasses env 0 env.genesis.vtx hEmpty, blockPasses_empty 0 env.genesis_no_opoi]
    rfl
  · rfl

/-! ## The chain -/

/-- The replay of the chain of a node, inside any longer chain, gives the cache of the
    node. -/
def ReplaysTo (env : Env) (node : NodeState) : Prop :=
  ∀ (hashes : List Uint256) (c : OPoICache), node.chainActive <+: hashes →
    (node.chain.zipIdx.foldl (replayBlock env hashes) c.setNull).consensus = node.cache.consensus

theorem replaysTo_init : ReplaysTo env (.init env) := fun hashes c _ =>
  @replayBlock_genesis env hashes c

theorem ReplaysTo.connectTip (h : ReplaysTo env node) (hSafe : Replayable env node block)
    (hTip : connectTip env node block = .ok node') : ReplaysTo env node' := by
  obtain ⟨st, _, _, _, _, hNode⟩ := connectTip_eq_ok hTip
  have hChain : node'.chain = node.chain ++ [block] := by rw [hNode]; rfl
  intro hashes c hHashes
  have hExtended : node.chainActive ++ [block.hash] <+: hashes := by
    simpa [chainActive, hChain] using hHashes
  have hBefore := h hashes c ((List.prefix_append _ _).trans hExtended)
  rw [hChain, List.zipIdx_append, List.foldl_append, Nat.zero_add]
  exact replayBlock_eq hTip hSafe hExtended hBefore

end Replay

/-- Replaying the chain of a forward run gives the cache that connecting it has produced,
    when every audit sortition is settled and no challenger reward falls due. -/
theorem rebuildOPoICache_of_run {env : Env} {blocks : List CBlock} {node : NodeState}
    (hRun : ForwardRun env (Replayable env) blocks node) (c : OPoICache) :
    (rebuildOPoICache env node.chain c).consensus = node.cache.consensus := by
  have hReplays : ReplaysTo env node :=
    hRun.invariant (fun _ _ _ hReplays hSafe hTip => hReplays.connectTip hSafe hTip) replaysTo_init
  exact hReplays node.chainActive c List.prefix_rfl

/-- The blocks of a challenge that one vote has decided, before its REVEAL. -/
theorem rebuildOPoICache_of_open_challenge :
    ∃ node, ForwardRun sampleNet (Replayable sampleNet)
        sampleChallengedBlocks node ∧
      node.cache.mapChallenges.contains "r" ∧
      (rebuildOPoICache sampleNet node.chain {}).consensus = node.cache.consensus := by
  exact Run.exists_steps_imp .other (·.cache.mapChallenges.contains "r") (by decide +kernel)
    fun node hRun hChallenge => ⟨hChallenge, rebuildOPoICache_of_run hRun {}⟩

/-- The blocks up to the answer of an OPEN request, revealed one block after its commit and
    paid at once. -/
def promptRevealBlocks : List CBlock := sampleStaked
  [sampleBlock 4 [sampleRequest "r" "alice" 1 0],
   sampleBlock 5 [sampleResponseCommit "r" sampleMiner 3],
   ⟨6, [sampleCoinbase [(sampleMiner, 5)] 6, sampleResponseReveal "r" sampleMiner 4]⟩]

def isAuditSelected (c : OPoICache) (requestId : String) : Bool :=
  (c.mapResponses[requestId]?).any (·.auditSelected)

/-- The replay lacks the mark of the reward that the REVEAL of a challenge gives, and it selects
    for an audit a response that was paid at once, since it sees the block of the seed. -/
theorem rebuildOPoICache_ne_of_reveal :
    (∃ node, PlainRun sampleNet (sampleChallengedBlocks ++ [sampleSettlement []]) node ∧
      node.cache.isChallengerRewardPaid "r" = true ∧
      (rebuildOPoICache sampleNet node.chain {}).isChallengerRewardPaid "r" = false) ∧
    ∃ node, PlainRun sampleNet promptRevealBlocks node ∧
      isAuditSelected node.cache "r" = false ∧
      isAuditSelected (rebuildOPoICache sampleNet node.chain {}) "r" = true := by
  exact ⟨Run.exists_steps .other (by decide +kernel), Run.exists_steps .other (by decide +kernel)⟩

end CloudService
