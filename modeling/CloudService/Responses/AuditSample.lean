/-
  The audit sortition of a response, seeded by the block after the commit. A block that is
  being connected is not in the active chain yet.
-/

import CloudService.Chain.Turns
import CloudService.Responses.CommitWindow
import CloudService.Responses.PaidOnce

namespace CloudService

open OPoICache NodeState

variable {req : OPoIRequest} {hash : Bytes} {commitHeight : Nat}

/-- The sampling flag of the response that is on record after a turn. -/
def storedSelection (env : Env) (node : NodeState) (e : OPoICache × CTransaction) : Option Bool :=
  ((applyOPoITransaction env node.chainActive node.nextHeight e.1
    e.2).mapResponses[e.2.opoiRequestId]?).map (·.auditSelected)

/-- The commit on record for the miner and the request of a transaction: its hash and its
    height. -/
def CommitAt (c : OPoICache) (tx : CTransaction) (hash : Bytes) (commitHeight : Nat) : Prop :=
  c.getResponseCommit tx.opoiRequestId tx.opoiMinerAddress = some (hexStr hash) ∧
    c.mapResponseCommitHeight[commitKey tx.opoiRequestId tx.opoiMinerAddress]? =
      some commitHeight

/-- The stored flag is the outcome of the sortition over the committed hash and the block after that
    commit, at the rate of the miner. The block of the REVEAL counts as part of the chain. -/
def SampledFairly (env : Env) (node : NodeState) (block : CBlock) (e : OPoICache × CTransaction) :
    Prop :=
  ∃ hash commitHeight seed, CommitAt e.1 e.2 hash commitHeight ∧
    (node.chainActive ++ [block.hash])[commitHeight + 1]? = some seed ∧
    storedSelection env node e = some (computeOPoIAuditSampleSelected env hash seed
      (auditSampleRateBp env.params e.1 e.2.opoiMinerAddress))

/-- Every stored hash is the one of some commit and has a height, up to that of the next
    block. -/
def CommitsDated (node : NodeState) (c : OPoICache) : Prop :=
  ∀ (key text : String), c.mapResponseCommits[key]? = some text →
    ∃ hash commitHeight, text = hexStr hash ∧
      c.mapResponseCommitHeight[key]? = some commitHeight ∧ commitHeight ≤ node.nextHeight

section AuditSample

variable {env : Env} {node node' : NodeState} {block : CBlock} {c : OPoICache} {tx : CTransaction}
  {e : OPoICache × CTransaction}

/-! ## The commits on record -/

theorem CommitsDated.apply (h : CommitsDated node c) :
    CommitsDated node (applyOPoITransaction env node.chainActive node.nextHeight c tx) := by
  intro key text hGet
  rw [commits_apply.1] at hGet
  rw [commits_apply.2]
  split at hGet
  · rename_i hCommit
    rw [if_pos hCommit]
    rw [TreeMap.getElem?_insert_eq] at hGet ⊢
    split at hGet
    · rename_i hKey
      rw [if_pos hKey]
      exact ⟨_, _, (Option.some.inj hGet).symm, rfl, Nat.le_refl _⟩
    · rename_i hKey
      rw [if_neg hKey]
      exact h key text hGet
  · rename_i hCommit
    rw [if_neg hCommit]
    exact h key text hGet

theorem preserved_commitsDated : Preserved env (fun _ _ _ => True) CommitsDated where
  onTx _ _ _ _ hCur _ _ _ := hCur.apply
  onPasses node block c view _ hCur _ := by
    obtain ⟨hCommits, hHeights⟩ := @commits_of_connectPasses env node.nextHeight c block.vtx
    intro key text hGet
    rw [hCommits] at hGet
    obtain ⟨hash, commitHeight, hText, hHeight, hLe⟩ := hCur key text hGet
    refine ⟨hash, commitHeight, hText, by rw [hHeights, hHeight], ?_⟩
    rw [nextHeight_extend]
    omega
  onQuiet node block view h := by
    intro key text hGet
    obtain ⟨hash, commitHeight, hText, hHeight, hLe⟩ := h key text hGet
    refine ⟨hash, commitHeight, hText, hHeight, ?_⟩
    rw [nextHeight_extend]
    omega

theorem isSome_commit_apply {chainActive : List Uint256} {height : Nat} {key : String}
    (h : (c.mapResponseCommits[key]?).isSome = true) :
    ((applyOPoITransaction env chainActive height c tx).mapResponseCommits[key]?).isSome =
      true := by
  rw [commits_apply.1]
  split
  · rw [TreeMap.getElem?_insert_eq]
    split
    · rfl
    · exact h
  · exact h

theorem commitAt_of_turn (h : CommitsDated node node.cache) (hBlock : AcceptedBlock env node block)
    (he : e ∈ turns env node block) (hReveal : isReveal e.2 = true) :
    ∃ hash commitHeight, CommitAt e.1 e.2 hash commitHeight ∧ commitHeight ≤ node.nextHeight := by
  obtain ⟨before, after, hTxs, hState⟩ := Run.mem_withStates.mp he
  obtain ⟨hIn, hOPoI⟩ := mem_opoiTxs.mp (by rw [hTxs]; simp : e.2 ∈ opoiTxs block.vtx)
  have hDated : CommitsDated node e.1 := by
    rw [hState]
    exact List.foldlRecOn (motive := CommitsDated node) before _ h fun _ hc _ _ => hc.apply
  have hOpened := (reveal_of_accepted (hBlock.txs e.2 hIn).checked hOPoI hReveal).2.2
  have hKept : ∀ key : String, (node.cache.mapResponseCommits[key]?).isSome = true →
      (e.1.mapResponseCommits[key]?).isSome = true := by
    intro key hKey
    rw [hState]
    exact List.foldlRecOn (motive := fun c : OPoICache =>
      (c.mapResponseCommits[key]?).isSome = true)
      before _ hKey fun _ hc _ _ => isSome_commit_apply hc
  rw [getResponseCommit] at hOpened
  obtain ⟨text, hText⟩ := Option.isSome_iff_exists.mp (hKept _ (by rw [hOpened]; rfl))
  obtain ⟨hash, commitHeight, rfl, hHeight, hLe⟩ := hDated _ text hText
  exact ⟨hash, commitHeight, ⟨hText, hHeight⟩, hLe⟩

/-! ## The sortition -/

theorem storedSelection_eq (env : Env) (node : NodeState) (hReveal : isReveal e.2 = true)
    (hReq : e.1.mapRequests[e.2.opoiRequestId]? = some req)
    (hOpen : req.isVerifiable = false) (hCommit : CommitAt e.1 e.2 hash commitHeight) :
    storedSelection env node e =
      some ((getOPoIAuditSampleSeedHash node.chainActive commitHeight).any fun seed =>
        computeOPoIAuditSampleSelected env hash seed
          (auditSampleRateBp env.params e.1 e.2.opoiMinerAddress)) := by
  obtain ⟨hHash, hHeight⟩ := hCommit
  rw [getResponseCommit] at hHash
  rw [storedSelection, mapResponses_apply, if_pos hReveal, TreeMap.getElem?_insert_eq, if_pos rfl,
    Option.map_some, revealedResponse, evaluateOPoIAuditSample, hReq]
  simp only [hOpen, hHash, hHeight, Bool.false_eq_true, if_false, parseHex_hexStr,
    Option.some.injEq]
  cases getOPoIAuditSampleSeedHash node.chainActive commitHeight with
  | none => rfl
  | some seed =>
    dsimp only
    split
    · rename_i hSelected
      exact hSelected.symm
    · rename_i hMissed
      exact (Bool.eq_false_iff.mpr hMissed).symm

theorem seedSettled_iff
    (hReveal : isReveal e.2 = true) (hReq : e.1.mapRequests[e.2.opoiRequestId]? = some req)
    (hOpen : req.isVerifiable = false) (hCommit : CommitAt e.1 e.2 hash commitHeight) :
    seedSettled env node.nextHeight block.hash e.1 e.2 = true ↔
      commitHeight + 1 < node.nextHeight ∨ (commitHeight + 1 = node.nextHeight ∧
        computeOPoIAuditSampleSelected env hash block.hash
          (auditSampleRateBp env.params e.1 e.2.opoiMinerAddress) = false) := by
  obtain ⟨hHash, hHeight⟩ := hCommit
  rw [getResponseCommit] at hHash
  simp only [isReveal, Bool.and_eq_true, beq_iff_eq, bne_iff_ne] at hReveal
  simp [seedSettled, hReveal.1, hReveal.2, hReq, hOpen, hHash, hHeight, parseHex_hexStr]

theorem storedSelection_cases (env : Env)
    (hNext : isNextBlock node block = true) (hReveal : isReveal e.2 = true)
    (hReq : e.1.mapRequests[e.2.opoiRequestId]? = some req) (hOpen : req.isVerifiable = false)
    (hCommit : CommitAt e.1 e.2 hash commitHeight) (hLe : commitHeight ≤ node.nextHeight) :
    (commitHeight + 1 < node.nextHeight ∧ ∃ seed, node.chainActive[commitHeight + 1]? = some seed ∧
      storedSelection env node e = some (computeOPoIAuditSampleSelected env hash seed
        (auditSampleRateBp env.params e.1 e.2.opoiMinerAddress))) ∨
    (node.nextHeight ≤ commitHeight + 1 ∧ storedSelection env node e = some false) := by
  have hHeight : node.nextHeight < 2147483648 := by
    simp only [isNextBlock, Bool.and_eq_true, decide_eq_true_eq] at hNext
    exact hNext.2
  have hLength : node.chainActive.length = node.nextHeight := by
    simp [chainActive, nextHeight]
  have hIndex : u32 (commitHeight + 1) = commitHeight + 1 := by
    unfold u32
    omega
  have hStored := storedSelection_eq env node hReveal hReq hOpen hCommit
  rw [getOPoIAuditSampleSeedHash, hIndex] at hStored
  by_cases hSeed : commitHeight + 1 < node.nextHeight
  · obtain ⟨seed, hGet⟩ : ∃ seed, node.chainActive[commitHeight + 1]? = some seed :=
      ⟨_, List.getElem?_eq_getElem (by rw [hLength]; exact hSeed)⟩
    rw [hGet, Option.any_some] at hStored
    exact .inl ⟨hSeed, seed, hGet, hStored⟩
  · rw [List.getElem?_eq_none (by rw [hLength]; exact Nat.le_of_not_lt hSeed)] at hStored
    exact .inr ⟨Nat.le_of_not_lt hSeed, hStored⟩

end AuditSample

/-- For every REVEAL of an OPEN request in a block of a forward run, the stored flag is the
    outcome of the sortition exactly when the block after its commit is known, or would not
    select it. At a rate of 10000 and more a REVEAL is selected exactly when that block is
    known. -/
theorem sampledFairly_iff_seedSettled (env : Env) (blocks : List CBlock) (node node' : NodeState)
    (block : CBlock) (e : OPoICache × CTransaction) (req : OPoIRequest)
    (hRun : PlainRun env blocks node)
    (hTip : connectTip env node block = .ok node') (he : e ∈ turns env node block)
    (hReveal : isReveal e.2 = true) (hReq : e.1.mapRequests[e.2.opoiRequestId]? = some req)
    (hOpen : req.isVerifiable = false) :
    (SampledFairly env node block e ↔ seedSettled env node.nextHeight block.hash e.1 e.2 = true) ∧
    (10000 ≤ auditSampleRateBp env.params e.1 e.2.opoiMinerAddress →
      (storedSelection env node e = some true ↔ ∃ hash commitHeight,
        CommitAt e.1 e.2 hash commitHeight ∧ commitHeight + 1 < node.nextHeight)) := by
  obtain ⟨_, hNext, hPre, _⟩ := connectTip_eq_ok hTip
  have hDated : CommitsDated node node.cache :=
    preserved_commitsDated.everyRun (fun _ _ hGet => by cases hGet) hRun
  obtain ⟨hash, commitHeight, hCommit, hLe⟩ :=
    commitAt_of_turn hDated (.of_preChecks hPre) he hReveal
  have hUnique : ∀ hash' commitHeight', CommitAt e.1 e.2 hash' commitHeight' →
      hash' = hash ∧ commitHeight' = commitHeight := by
    intro hash' commitHeight' hCommit'
    obtain ⟨hHash', hHeight'⟩ := hCommit'
    rw [hCommit.1] at hHash'
    rw [hCommit.2] at hHeight'
    exact ⟨hexStr_inj (Option.some.inj hHash').symm, (Option.some.inj hHeight').symm⟩
  have hLength : node.chainActive.length = node.nextHeight := by
    simp [chainActive, nextHeight]
  rw [seedSettled_iff hReveal hReq hOpen hCommit]
  -- Is the block after the commit known before this block?
  rcases storedSelection_cases env hNext hReveal hReq hOpen hCommit hLe with
    ⟨hKnown, seed, hSeed, hStored⟩ | ⟨hUnknown, hStored⟩
  · refine ⟨⟨fun _ => .inl hKnown, fun _ => ⟨hash, commitHeight, seed, hCommit, ?_, hStored⟩⟩,
      fun hRate => ⟨fun _ => ⟨hash, commitHeight, hCommit, hKnown⟩, fun _ => ?_⟩⟩
    · rw [List.getElem?_append_left (by rw [hLength]; exact hKnown), hSeed]
    · rw [hStored, computeOPoIAuditSampleSelected, if_neg (by omega), if_pos hRate]
  · refine ⟨⟨?_, ?_⟩, fun _ => ⟨fun hSelected => ?_, ?_⟩⟩
    · rintro ⟨hash', commitHeight', seed, hCommit', hSeed, hSelected⟩
      obtain ⟨rfl, rfl⟩ := hUnique _ _ hCommit'
      rw [List.getElem?_append_right (by rw [hLength]; exact hUnknown), hLength] at hSeed
      obtain ⟨hZero, rfl⟩ : commitHeight' + 1 - node.nextHeight = 0 ∧ block.hash = seed := by
        cases hIndex : commitHeight' + 1 - node.nextHeight with
        | zero => simpa [hIndex] using hSeed
        | succ n => simp [hIndex] at hSeed
      rw [hStored, Option.some.injEq] at hSelected
      exact .inr ⟨by omega, hSelected.symm⟩
    · rintro (hKnown | ⟨hLast, hMissed⟩)
      · omega
      · refine ⟨hash, commitHeight, block.hash, hCommit, ?_, by rw [hStored, hMissed]⟩
        rw [hLast, ← hLength]
        simp
    · rw [hStored] at hSelected
      cases hSelected
    · rintro ⟨hash', commitHeight', hCommit', hKnown⟩
      obtain ⟨rfl, rfl⟩ := hUnique _ _ hCommit'
      omega

/-- A new miner whose REVEAL waits for the block after its commit is selected. -/
theorem sampledFairly_of_late_reveal :
    ∃ node node' req,
      PlainRun sampleNet
        (sampleCommittedBlocks ++ [sampleBlock 6 []]) node ∧
      connectTip sampleNet node
        (sampleBlock 7 [sampleResponseReveal "r" sampleMiner 4]) = .ok node' ∧
      node.cache.mapRequests["r"]? = some req ∧ req.isVerifiable = false ∧
      SampledFairly sampleNet node
        (sampleBlock 7 [sampleResponseReveal "r" sampleMiner 4])
        (node.cache, sampleResponseReveal "r" sampleMiner 4) ∧
      storedSelection sampleNet node
        (node.cache, sampleResponseReveal "r" sampleMiner 4) = some true := by
  refine ⟨_, _, _, Run.steps_value .other (by decide +kernel), Run.eq_value (by decide +kernel),
    Run.eq_valueOf (by decide +kernel), ?isOpen, (sampledFairly_iff_seedSettled _ _ _ _ _ (_, _) _
      (Run.steps_value .other _) (Run.eq_value (by decide +kernel)) List.mem_cons_self rfl
      (Run.eq_valueOf _) ?isOpen).1.mpr ?settled, by decide +kernel⟩
  · decide +kernel
  · decide +kernel

/-- The same miner reveals in the block right after its commit: the sampling rate is 10000, the
    block is accepted, the response is not selected and is paid in that block. -/
theorem not_sampledFairly_of_early_reveal :
    ∃ node node' req,
      PlainRun sampleNet sampleCommittedBlocks node ∧
      connectTip sampleNet node ⟨6, [sampleCoinbase [(sampleMiner, 5)] 6,
        sampleResponseReveal "r" sampleMiner 4]⟩ = .ok node' ∧
      node.cache.mapRequests["r"]? = some req ∧ req.isVerifiable = false ∧
      auditSampleRateBp sampleParams node.cache sampleMiner = 10000 ∧
      storedSelection sampleNet node
        (node.cache, sampleResponseReveal "r" sampleMiner 4) = some false ∧
      ¬ SampledFairly sampleNet node ⟨6, [sampleCoinbase [(sampleMiner, 5)] 6,
        sampleResponseReveal "r" sampleMiner 4]⟩
        (node.cache, sampleResponseReveal "r" sampleMiner 4) := by
  refine ⟨_, _, _, Run.steps_value .other (by decide +kernel), Run.eq_value (by decide +kernel),
    Run.eq_valueOf (by decide +kernel), by decide +kernel, ?rate, ?missed, ?_⟩
  · decide +kernel
  · decide +kernel
  · rintro ⟨hash, commitHeight, seed, -, -, hSelected⟩
    rw [show storedSelection _ _ _ = some false by decide +kernel,
      show auditSampleRateBp _ _ _ = 10000
      by decide +kernel] at hSelected
    cases hSelected

end CloudService
