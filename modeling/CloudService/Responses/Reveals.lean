/-
  Who answered a request. A RESPONSE REVEAL is accepted once for each miner, and the last
  one that is applied is on record: a later miner replaces the answer of an earlier one.
-/

import CloudService.Chain.AppliedTxs

namespace CloudService

open List

/-- The transaction is a RESPONSE REVEAL: every phase other than 0. -/
def isReveal (tx : CTransaction) : Bool :=
  tx.opoiType == .response && tx.opoiResponsePhase != 0

def hasRevealed (c : OPoICache) (r m : String) : Bool :=
  (c.mapRequests[r]?).any (·.responseReveals.contains m)

/-- The miner of every response is listed as having revealed. -/
def RevealsRecorded (c : OPoICache) : Prop :=
  ∀ (r : String) (resp : OPoIResponse), c.mapResponses[r]? = some resp →
    hasRevealed c r resp.minerAddress = true

/-- The commitment on record. -/
def OPoICache.getResponseCommit (c : OPoICache) (requestId minerAddress : String) :
    Option String :=
  c.mapResponseCommits[OPoICache.commitKey requestId minerAddress]?

section Reveals

variable {env : Env} {chainActive hashes : List Uint256} {height : Nat} {c c' : OPoICache}
  {tx : CTransaction} {node node' : NodeState} {block : CBlock} {r m : String}

/-! ## One transaction -/

theorem reveal_of_accepted (h : checkOPoITransaction env false hashes c tx = .ok ())
    (hOPoI : tx.isOPoITx = true) (hReveal : isReveal tx = true) :
    (∃ req, c.mapRequests[tx.opoiRequestId]? = some req ∧ req.commitWindowClosed = true) ∧
      hasRevealed c tx.opoiRequestId tx.opoiMinerAddress = false ∧
      c.getResponseCommit tx.opoiRequestId tx.opoiMinerAddress =
        some (hexStr (revealCommitment env tx)) := by
  simp only [isReveal, Bool.and_eq_true, beq_iff_eq, bne_iff_ne] at hReveal
  have hBranch := checkOPoITransaction_branch h hOPoI
  simp only [hReveal.1, checkResponse, check_bind_eq_ok, hReveal.2, if_false, checkResponseReveal,
    rejectIf_eq_ok, Bool.not_false, Bool.true_and, Bool.false_eq_true, Bool.not_eq_false',
    Option.any_eq_true, bne_eq_false_iff_eq] at hBranch
  obtain ⟨_, _, _, _, _, _, ⟨req, hReq, hClosed⟩, hNew, _, _, hHash, _⟩ := hBranch
  exact ⟨⟨req, hReq, hClosed⟩, hNew, hHash⟩

theorem mapResponses_apply :
    (applyOPoITransaction env chainActive height c tx).mapResponses =
      if isReveal tx then c.mapResponses.insert tx.opoiRequestId
        (revealedResponse env chainActive height c tx)
      else c.mapResponses := by
  by_cases hReveal : isReveal tx = true
  · rw [if_pos hReveal]
    simp only [isReveal, Bool.and_eq_true, beq_iff_eq, bne_iff_ne] at hReveal
    simp only [applyOPoITransaction, hReveal.1, hReveal.2, if_false]
    rfl
  · rw [if_neg hReveal]
    refine (applyOPoITransaction_txFrame env height c tx chainActive).responses fun hType => ?_
    simpa [isReveal, hType] using hReveal

theorem request_evolves_apply {req : OPoIRequest}
    (hOther : tx.opoiType = .request → tx.opoiRequestId ≠ r) (hReq : c.mapRequests[r]? = some req) :
    ∃ req', (applyOPoITransaction env chainActive height c tx).mapRequests[r]? = some req' ∧
      req.Evolves req' := by
  rcases mapRequests_cases env chainActive height c tx with ⟨hType, _, hMap, _⟩ |
    ⟨_, f, hMap, hf⟩ | ⟨_, hMap⟩
  · refine ⟨req, ?_, .refl req⟩
    rw [hMap, TreeMap.getElem?_insert_eq, if_neg (hOther hType), hReq]
  · rw [hMap, TreeMap.getElem?_modify_eq, hReq]
    split
    · exact ⟨f req, rfl, (hf req).1⟩
    · exact ⟨req, rfl, .refl req⟩
  · rw [hMap]
    exact ⟨req, hReq, .refl req⟩

theorem hasRevealed_apply (hReveal : isReveal tx = true)
    (hReq : (c.mapRequests[tx.opoiRequestId]?).isSome = true) :
    hasRevealed (applyOPoITransaction env chainActive height c tx) tx.opoiRequestId
      tx.opoiMinerAddress = true := by
  have hRequests : (applyOPoITransaction env chainActive height c tx).mapRequests =
      c.mapRequests.modify tx.opoiRequestId (Persists.revealedRequest tx) := by
    simp only [isReveal, Bool.and_eq_true, beq_iff_eq, bne_iff_ne] at hReveal
    simp only [applyOPoITransaction, hReveal.1, hReveal.2, if_false]
    exact TreeMap.modify_modify
  obtain ⟨req, hReq⟩ := Option.isSome_iff_exists.mp hReq
  simp [hasRevealed, hRequests, hReq, Persists.revealedRequest]

theorem Persists.hasRevealed (h : Persists c c') (hRevealed : hasRevealed c r m = true) :
    hasRevealed c' r m = true := by
  simp only [CloudService.hasRevealed, Option.any_eq_true] at hRevealed ⊢
  obtain ⟨req, hReq, hm⟩ := hRevealed
  obtain ⟨req', hReq', hKept⟩ := h.requests r req hReq
  exact ⟨req', hReq', hKept.reveals m hm⟩

/-! ## A block -/

theorem response_of_afterTxs {resp : OPoIResponse}
    (h : (afterTxs env node block.vtx).mapResponses[r]? = some resp) :
    node.cache.mapResponses[r]? = some resp ∨
      ∃ tx ∈ opoiTxs block.vtx, isReveal tx = true ∧ tx.opoiRequestId = r ∧
        ∃ c, resp = revealedResponse env node.chainActive node.nextHeight c tx := by
  have hLoop := foldlRecOn (motive := fun c : OPoICache => ∀ resp : OPoIResponse,
      c.mapResponses[r]? = some resp → node.cache.mapResponses[r]? = some resp ∨
        ∃ tx ∈ opoiTxs block.vtx, isReveal tx = true ∧ tx.opoiRequestId = r ∧
          ∃ c, resp = revealedResponse env node.chainActive node.nextHeight c tx)
    (opoiTxs block.vtx) (applyOPoITransaction env node.chainActive node.nextHeight)
    (b := node.cache) (fun _ h => .inl h) fun c hc tx hMem resp hResp => by
      rw [mapResponses_apply] at hResp
      split at hResp
      · rename_i hReveal
        rw [TreeMap.getElem?_insert_eq] at hResp
        split at hResp
        · rename_i hId
          cases hResp
          exact .inr ⟨tx, hMem, hReveal, hId, c, rfl⟩
        · exact hc resp hResp
      · exact hc resp hResp
  exact hLoop resp h

/-- After the transactions of a block the miners of its REVEALs are noted. -/
theorem hasRevealed_afterTxs (hBlock : AcceptedBlock env node block)
    (hMem : tx ∈ opoiTxs block.vtx) (hReveal : isReveal tx = true) :
    hasRevealed (afterTxs env node block.vtx) tx.opoiRequestId tx.opoiMinerAddress = true := by
  obtain ⟨before, after, hSplit⟩ := append_of_mem hMem
  have hAccepted : ∀ t ∈ opoiTxs block.vtx, AcceptedTx env node t ∧ t.isOPoITx = true :=
    fun t ht => ⟨hBlock.txs t (mem_opoiTxs.mp ht).1, (mem_opoiTxs.mp ht).2⟩
  have hKnown : ∃ req, node.cache.mapRequests[tx.opoiRequestId]? = some req := by
    obtain ⟨⟨req, hReq, _⟩, _⟩ :=
      reveal_of_accepted (hAccepted tx hMem).1.checked (hAccepted tx hMem).2 hReveal
    exact ⟨req, hReq⟩
  have hStep : ∀ c t, t ∈ opoiTxs block.vtx → Persists node.cache c →
      Persists node.cache (applyOPoITransaction env node.chainActive node.nextHeight c t) :=
    fun c t ht hc => hc.apply (hAccepted t ht).1.checked (hAccepted t ht).2
  unfold afterTxs
  rw [hSplit, foldl_append, foldl_cons]
  have hBefore : Persists node.cache
      (before.foldl (applyOPoITransaction env node.chainActive node.nextHeight) node.cache) :=
    foldlRecOn _ _ (.refl _) fun c hc t ht =>
      hStep c t (by rw [hSplit]; exact mem_append_left _ ht) hc
  generalize before.foldl (applyOPoITransaction env node.chainActive node.nextHeight) node.cache = c
    at hBefore
  obtain ⟨req, hReq⟩ := hKnown
  obtain ⟨req', hReq', _⟩ := hBefore.requests _ req hReq
  have hNow : hasRevealed (applyOPoITransaction env node.chainActive node.nextHeight c tx)
      tx.opoiRequestId tx.opoiMinerAddress = true := hasRevealed_apply hReveal (by rw [hReq']; rfl)
  -- the rest of the block keeps the note
  have hRest := foldlRecOn (motive := fun d : OPoICache => Persists node.cache d ∧
      hasRevealed d tx.opoiRequestId tx.opoiMinerAddress = true) after
    (applyOPoITransaction env node.chainActive node.nextHeight)
    ⟨hStep c tx hMem hBefore, hNow⟩ fun d hd t ht => by
      have hT : t ∈ opoiTxs block.vtx := by
        rw [hSplit]
        exact mem_append_right _ (mem_cons_of_mem _ ht)
      refine ⟨hStep d t hT hd.1, ?_⟩
      obtain ⟨q, hq, hm⟩ := (Option.any_eq_true _ _).mp hd.2
      have hOther : t.opoiType = .request → t.opoiRequestId ≠ tx.opoiRequestId := by
        intro hType hId
        have hBranch := checkOPoITransaction_branch (hAccepted t hT).1.checked (hAccepted t hT).2
        rw [hType] at hBranch
        rw [← hId, (checkRequest_eq_ok hBranch).1] at hReq
        cases hReq
      obtain ⟨q', hq', hKept⟩ : ∃ q', (applyOPoITransaction env node.chainActive node.nextHeight d
          t).mapRequests[tx.opoiRequestId]? = some q' ∧ q.Evolves q' :=
        request_evolves_apply hOther hq
      exact (Option.any_eq_true _ _).mpr ⟨q', hq', hKept.reveals _ hm⟩
  exact hRest.2

theorem mapResponses_of_connectTip (h : connectTip env node block = .ok node') :
    node'.cache.mapResponses = (afterTxs env node block.vtx).mapResponses := by
  obtain ⟨hBlock, _, hCache⟩ := connectTip_cache h
  rw [hCache]
  split
  · have hExpired : (expireChallenges env node.nextHeight (processChallengerRewardPayments env
        block.vtx (afterTxs env node block.vtx))).mapResponses =
        (afterTxs env node block.vtx).mapResponses := by
      have hRewards : (processChallengerRewardPayments env block.vtx
          (afterTxs env node block.vtx)).mapResponses = (afterTxs env node
            block.vtx).mapResponses :=
        foldlRecOn (motive := fun d : OPoICache => d.mapResponses = _) _ _ rfl
          fun _ h _ _ => h
      refine foldlRecOn (motive := fun d : OPoICache => d.mapResponses = _) _ _ hRewards
        fun d hd key _ => ?_
      rcases expireChallenge_cases env node.nextHeight d key with hEq | ⟨_, _, _, hEq⟩ |
        ⟨_, _, _, _, hEq⟩
      · rw [hEq, hd]
      · rw [hEq, ← hd]
      · rw [hEq, ← hd]
    rw [connectPasses, blockPasses_eq, (latePasses_frame env node.nextHeight _ block.vtx).2.1,
      hExpired]
  · rename_i hInactive
    have hNone : opoiTxs block.vtx = [] := by
      rw [opoiTxs, filter_eq_nil_iff]
      intro tx hMem hOPoI
      exact hInactive ((hBlock.txs tx hMem).active hOPoI)
    rw [afterTxs, hNone]
    rfl

theorem persists_of_afterTxs (h : connectTip env node block = .ok node')
    (hActive : env.params.opoiActive node.nextHeight = true) :
    Persists (afterTxs env node block.vtx) node'.cache := by
  obtain ⟨_, _, hCache⟩ := connectTip_cache h
  rw [hCache, if_pos hActive]
  exact (Persists.passPreserved env node.nextHeight _).connectPasses (.refl _) _

theorem revealsRecorded_of_connectTip (h : RevealsRecorded node.cache)
    (hTip : connectTip env node block = .ok node') : RevealsRecorded node'.cache := by
  intro r resp hResp
  rw [mapResponses_of_connectTip hTip] at hResp
  obtain ⟨hBlock, _, _⟩ := connectTip_cache hTip
  rcases response_of_afterTxs hResp with hOld | ⟨tx, hMem, hReveal, hId, _, rfl⟩
  · exact (persists_of_connectTip hTip).hasRevealed (h r resp hOld)
  · have hActive := (hBlock.txs tx (mem_opoiTxs.mp hMem).1).active (mem_opoiTxs.mp hMem).2
    rw [← hId]
    exact (persists_of_afterTxs hTip hActive).hasRevealed
      (hasRevealed_afterTxs hBlock hMem hReveal)

/-- No response is on record that its request does not list as revealed. -/
theorem revealsRecorded_of_run {blocks : List CBlock}
    (hRun : PlainRun env blocks node) : RevealsRecorded node.cache := by
  refine Run.Steps.invariant (I := fun node => RevealsRecorded node.cache)
    (fun _ _ _ hRecorded _ hTip => revealsRecorded_of_connectTip hRecorded hTip) hRun ?_
  intro _ _ hNone
  cases hNone

end Reveals

theorem revealsRecorded_of_challenged : ∃ node,
    PlainRun sampleNet sampleChallengedBlocks node ∧
    node.cache.mapResponses.size = 1 ∧ RevealsRecorded node.cache :=
  Run.exists_steps_imp .other (fun node => node.cache.mapResponses.size = 1) (by decide +kernel)
    fun _ hRun hSize => ⟨hSize, revealsRecorded_of_run hRun⟩

end CloudService
