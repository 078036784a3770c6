/-
  A COMMIT is accepted while the window is open, a REVEAL once it is closed, so a REVEAL opens
  a hash of an earlier block.
-/

import CloudService.Library.Trailing
import CloudService.Primitives.Hex
import CloudService.Responses.Reveals

namespace CloudService

open OPoICache

def isCommit (tx : CTransaction) : Bool :=
  tx.opoiType == .response && tx.opoiResponsePhase == 0

def InRun (env : Env) (blocks : List CBlock) (e : NodeState × CBlock) (tx : CTransaction) : Prop :=
  e ∈ blockTrace env blocks ∧ tx ∈ opoiTxs e.2.vtx

/-- No answer is committed after another one was revealed, and every REVEAL opens a hash that a
    COMMIT of an earlier block stored under the same key, of the same miner and request unless an
    address has a colon. -/
structure WindowKept (env : Env) (blocks : List CBlock) : Prop where
  ordered : ∀ e e' tx tx', InRun env blocks e tx → InRun env blocks e' tx' →
    isCommit tx = true → isReveal tx' = true → tx.opoiRequestId = tx'.opoiRequestId →
    e.1.nextHeight < e'.1.nextHeight
  opened : ∀ e tx, InRun env blocks e tx → isReveal tx = true →
    e.1.cache.getResponseCommit tx.opoiRequestId tx.opoiMinerAddress =
      some (hexStr (revealCommitment env tx))
  stored : ∀ e' tx', InRun env blocks e' tx' → isReveal tx' = true →
    ∃ e tx, InRun env blocks e tx ∧ isCommit tx = true ∧ e.1.nextHeight < e'.1.nextHeight ∧
      tx.opoiResponseCommitHash = revealCommitment env tx' ∧
      commitKey tx.opoiRequestId tx.opoiMinerAddress =
        commitKey tx'.opoiRequestId tx'.opoiMinerAddress ∧
      (':' ∉ tx.opoiMinerAddress.toList → ':' ∉ tx'.opoiMinerAddress.toList →
        tx.opoiRequestId = tx'.opoiRequestId ∧ tx.opoiMinerAddress = tx'.opoiMinerAddress)

def CommitsFrom (past : List (NodeState × CBlock)) (c : OPoICache) : Prop :=
  ∀ (key hash : String), c.mapResponseCommits[key]? = some hash →
    ∃ e ∈ past, ∃ tx ∈ opoiTxs e.2.vtx, isCommit tx = true ∧
      commitKey tx.opoiRequestId tx.opoiMinerAddress = key ∧
      hexStr tx.opoiResponseCommitHash = hash

section CommitWindow

variable {env : Env} {chainActive hashes : List Uint256} {height : Nat} {c : OPoICache}
  {tx : CTransaction} {node node' : NodeState} {block : CBlock} {past : List (NodeState × CBlock)}

/-! ## One transaction -/

theorem commitKey_inj {r r' m m' : String} (hm : ':' ∉ m.toList) (hm' : ':' ∉ m'.toList)
    (h : commitKey r m = commitKey r' m') : r = r' ∧ m = m' := by
  have hChars := congrArg String.toList h
  simp only [commitKey, String.toList_append, List.append_assoc] at hChars
  have hNone : ∀ {cs : List Char}, ':' ∉ cs → ∀ ch ∈ cs, (ch != ':') = true :=
    fun hCs ch hMem => bne_iff_ne.mpr fun hEq => hCs (hEq ▸ hMem)
  obtain ⟨hRequest, _, hMiner⟩ := Trailing.append_cons_inj (p := (· != ':')) (by decide)
    (by decide) (hNone hm) (hNone hm') hChars
  exact ⟨String.toList_inj.mp hRequest, String.toList_inj.mp hMiner⟩

theorem commit_of_accepted (h : checkOPoITransaction env false hashes c tx = .ok ())
    (hOPoI : tx.isOPoITx = true) (hCommit : isCommit tx = true) :
    (c.mapRequests[tx.opoiRequestId]?).any (·.commitWindowClosed) = false := by
  simp only [isCommit, Bool.and_eq_true, beq_iff_eq] at hCommit
  have hBranch := checkOPoITransaction_branch h hOPoI
  simp only [hCommit.1, checkResponse, check_bind_eq_ok, hCommit.2, if_true, checkResponseCommit,
    rejectIf_eq_ok, Bool.false_eq_true, if_false] at hBranch
  obtain ⟨_, _, _, _, _, _, _, hOpen, _⟩ := hBranch
  exact hOpen

theorem commits_apply :
    (applyOPoITransaction env chainActive height c tx).mapResponseCommits =
        (if isCommit tx then c.mapResponseCommits.insert
          (commitKey tx.opoiRequestId tx.opoiMinerAddress) (hexStr tx.opoiResponseCommitHash)
        else c.mapResponseCommits) ∧
      (applyOPoITransaction env chainActive height c tx).mapResponseCommitHeight =
        if isCommit tx then c.mapResponseCommitHeight.insert
          (commitKey tx.opoiRequestId tx.opoiMinerAddress) height
        else c.mapResponseCommitHeight := by
  by_cases hCommit : isCommit tx = true
  · rw [if_pos hCommit, if_pos hCommit]
    simp only [isCommit, Bool.and_eq_true, beq_iff_eq] at hCommit
    simp only [applyOPoITransaction, hCommit.1, hCommit.2, if_true]
    exact ⟨rfl, rfl⟩
  · rw [if_neg hCommit, if_neg hCommit]
    refine (applyOPoITransaction_txFrame env height c tx chainActive).commits fun hType => ?_
    simpa [isCommit, hType] using hCommit

/-! ## A block -/

theorem commits_of_connectPasses (vtx : List CTransaction) :
    (connectPasses env height vtx c).mapResponseCommits = c.mapResponseCommits ∧
      (connectPasses env height vtx c).mapResponseCommitHeight = c.mapResponseCommitHeight := by
  have hPass := passPreserved_fixed env height fun d =>
    d.mapResponseCommits = c.mapResponseCommits ∧
      d.mapResponseCommitHeight = c.mapResponseCommitHeight
  simpa only [OPoICache.lateFixed] using hPass.connectPasses (c := c) ⟨rfl, rfl⟩ vtx

theorem CommitsFrom.connectTip (h : CommitsFrom past node.cache)
    (hTip : connectTip env node block = .ok node') :
    CommitsFrom (past ++ [(node, block)]) node'.cache := by
  have hKept : CommitsFrom (past ++ [(node, block)]) node.cache := by
    intro key hash hGet
    obtain ⟨e, he, hFrom⟩ := h key hash hGet
    exact ⟨e, List.mem_append_left _ he, hFrom⟩
  obtain ⟨hBlock, _, hCache⟩ := connectTip_cache hTip
  rw [hCache]
  split
  · have hAfter : CommitsFrom (past ++ [(node, block)]) (afterTxs env node block.vtx) := by
      refine hBlock.induction hKept fun c tx hMem _ hc key hash hGet => ?_
      rw [commits_apply.1] at hGet
      split at hGet
      · rename_i hCommit
        rw [TreeMap.getElem?_insert_eq] at hGet
        split at hGet
        · rename_i hKey
          exact ⟨(node, block), by simp, tx, hMem, hCommit, hKey, Option.some.inj hGet⟩
        · exact hc key hash hGet
      · exact hc key hash hGet
    intro key hash hGet
    rw [(commits_of_connectPasses block.vtx).1] at hGet
    exact hAfter key hash hGet
  · exact hKept

end CommitWindow

/-! ## Runs -/

/-- A block follows another one: it is higher, and what was on record still is. -/
def Follows (node node' : NodeState) : Prop :=
  node.nextHeight < node'.nextHeight ∧ Persists node.cache node'.cache

theorem follows_of_connectTip {env : Env} {node node' : NodeState} {block : CBlock}
    (hTip : connectTip env node block = .ok node') : Follows node node' := by
  refine ⟨?_, persists_of_connectTip hTip⟩
  rw [NodeState.nextHeight, NodeState.nextHeight, (connectTip_cache hTip).2.1, List.length_append,
    List.length_singleton]
  exact Nat.lt_succ_self _

theorem Follows.trans {a b d : NodeState} (h₁ : Follows a b) (h₂ : Follows b d) : Follows a d :=
  ⟨h₁.1.trans h₂.1, h₁.2.trans h₂.2⟩

/-- On every forward run the commit windows are kept. -/
theorem windowKept_of_run (env : Env) (blocks : List CBlock) (node : NodeState)
    (hRun : PlainRun env blocks node) : WindowKept env blocks := by
  have hAccepted : ∀ e tx, InRun env blocks e tx →
      checkOPoITransaction env false e.1.chainActive e.1.cache tx = .ok () ∧
        tx.isOPoITx = true := by
    rintro e tx ⟨he, hMem⟩
    obtain ⟨_, _, _, _, _, hTip, _⟩ := hRun.split_trace e he
    obtain ⟨hIn, hOPoI⟩ := mem_opoiTxs.mp hMem
    exact ⟨((connectTip_cache hTip).1.txs tx hIn).checked, hOPoI⟩
  refine ⟨fun e e' tx tx' hTx hTx' hCommit hReveal hId => ?_, fun e tx hTx hReveal => ?_,
    fun e' tx' hTx' hReveal => ?_⟩
  · obtain ⟨hChecked, hOPoI⟩ := hAccepted e tx hTx
    obtain ⟨hChecked', hOPoI'⟩ := hAccepted e' tx' hTx'
    have hOpen := commit_of_accepted hChecked hOPoI hCommit
    obtain ⟨⟨req, hReq, hClosed⟩, _⟩ := reveal_of_accepted hChecked' hOPoI' hReveal
    -- the window of the request is closed in every later block, and in this one
    have hNotLater : ¬Persists e'.1.cache e.1.cache := by
      intro hKept
      obtain ⟨req', hReq', hEvolves⟩ := hKept.requests _ req hReq
      rw [hId, hReq', Option.any_some, hEvolves.closed hClosed] at hOpen
      cases hOpen
    rcases hRun.linked_of_mem_trace Follows Follows.trans (fun _ _ _ => follows_of_connectTip) hTx.1
      hTx'.1 with hSame | hBefore | hAfter
    · exact absurd (hSame ▸ Persists.refl _) hNotLater
    · exact hBefore.1
    · exact absurd hAfter.2 hNotLater
  · obtain ⟨hChecked, hOPoI⟩ := hAccepted e tx hTx
    exact (reveal_of_accepted hChecked hOPoI hReveal).2.2
  · obtain ⟨hChecked', hOPoI'⟩ := hAccepted e' tx' hTx'
    have hStored := (reveal_of_accepted hChecked' hOPoI' hReveal).2.2
    obtain ⟨before, after, _, _, hBefore, _, hTrace⟩ := hRun.split_trace e' hTx'.1
    have hFrom := Run.Steps.invariant_trace
      (fun past (node : NodeState) => CommitsFrom past node.cache)
      (fun past s i t h _ hStep => h.connectTip hStep) hBefore []
      (fun _ _ hGet => by cases hGet)
    obtain ⟨e, he, tx, hMem, hCommit, hKey, hHash⟩ := hFrom _ _ hStored
    have hInTrace : e ∈ blockTrace env blocks := by
      rw [blockTrace, hTrace]
      exact List.mem_append_left _ he
    have hLower : e.1.nextHeight < e'.1.nextHeight := by
      have hPairs := hRun.pairwise_trace Follows Follows.trans fun _ _ _ => follows_of_connectTip
      rw [hTrace, List.pairwise_append] at hPairs
      exact (hPairs.2.2 e he e' List.mem_cons_self).1
    exact ⟨e, tx, ⟨hInTrace, hMem⟩, hCommit, hLower, hexStr_inj hHash, hKey,
      fun hm hm' => commitKey_inj hm hm' hKey⟩

/-! ## A commit and its REVEAL -/

def sampleAnswer : List CBlock := sampleAnswered []

theorem windowKept_of_answer :
    (∃ e ∈ blockTrace sampleNet
        sampleAnswer, sampleResponseReveal "r" sampleMiner 4 ∈ opoiTxs e.2.vtx) ∧
      WindowKept sampleNet sampleAnswer := by
  exact ⟨by decide +kernel, windowKept_of_run _ _ _ (Run.steps_value .other (by decide +kernel))⟩

end CloudService
