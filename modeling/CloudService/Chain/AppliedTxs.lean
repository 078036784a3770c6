/-
  The cache after the transactions of a connected block, and after its passes, as functions of
  the node before the block.
-/

import CloudService.Chain.Evaluate
import CloudService.OPoI.Persistence

namespace CloudService

/-- The OPoI transactions of a block. -/
def opoiTxs (vtx : List CTransaction) : List CTransaction := vtx.filter (·.isOPoITx)

/-- The cache after the OPoI transactions of a block, before the passes. -/
def afterTxs (env : Env) (node : NodeState) (vtx : List CTransaction) : OPoICache :=
  (opoiTxs vtx).foldl (applyOPoITransaction env node.chainActive node.nextHeight) node.cache

section AppliedTxs

variable {env : Env} {node node' : NodeState} {block : CBlock} {st st' : LoopState}

theorem cache_of_steps {txs : List CTransaction}
    (hSteps : Run.Steps (connectTx env {} node.context block) (fun _ _ => True) st txs st')
    (hTxs : ∀ tx ∈ txs, AcceptedTx env node tx) :
    st'.cache = (opoiTxs txs).foldl
      (applyOPoITransaction env node.chainActive node.nextHeight) st.cache := by
  induction hSteps with
  | nil st => rfl
  | @cons s t u tx rest hTurn _ _ ih =>
    rw [ih fun tx hMem => hTxs tx (List.mem_cons_of_mem _ hMem), (connectTx_eq_ok hTurn).1,
      (hTxs tx List.mem_cons_self).loopCache_eq]
    unfold opoiTxs
    cases hOPoI : tx.isOPoITx with
    | false => simp [hOPoI]
    | true => simp [hOPoI]

theorem cache_of_connectLoop (hBlock : AcceptedBlock env node block)
    (h : connectLoop env {} node.context block node.cache = .ok st) :
    st.cache = afterTxs env node block.vtx :=
  cache_of_steps (steps_of_connectLoop (p := fun _ _ _ => True) h fun _ _ => trivial) hBlock.txs

theorem connectTip_cache (h : connectTip env node block = .ok node') :
    AcceptedBlock env node block ∧ node'.chain = node.chain ++ [block] ∧
      node'.cache = if env.params.opoiActive node.nextHeight then
        connectPasses env node.nextHeight block.vtx (afterTxs env node block.vtx)
      else node.cache := by
  obtain ⟨st, _, hPre, hLoop, _, hNode⟩ := connectTip_eq_ok h
  have hBlock := AcceptedBlock.of_preChecks hPre
  refine ⟨hBlock, by rw [hNode]; rfl, ?_⟩
  cases hActive : env.params.opoiActive node.nextHeight with
  | true =>
    rw [hNode, NodeState.extend_cache, connectTransitions_of_active hActive,
      cache_of_connectLoop hBlock hLoop, if_pos rfl]
  | false => rw [cache_of_inactive h hActive, if_neg Bool.false_ne_true]

theorem connectTip_height (h : connectTip env node block = .ok node') :
    node.nextHeight < 2147483648 ∧ node'.nextHeight = node.nextHeight + 1 := by
  obtain ⟨_, hNext, _, _, _, hNode⟩ := connectTip_eq_ok h
  simp only [isNextBlock, Bool.and_eq_true, decide_eq_true_eq] at hNext
  exact ⟨hNext.2, by rw [hNode, NodeState.nextHeight_extend]⟩

theorem mem_opoiTxs {vtx : List CTransaction} {tx : CTransaction} :
    tx ∈ opoiTxs vtx ↔ tx ∈ vtx ∧ tx.isOPoITx = true :=
  List.mem_filter

theorem opoiTxs_of_inactive (hBlock : AcceptedBlock env node block)
    (hInactive : env.params.opoiActive node.nextHeight = false) : opoiTxs block.vtx = [] := by
  rw [List.eq_nil_iff_forall_not_mem]
  intro tx hMem
  obtain ⟨hIn, hOPoI⟩ := mem_opoiTxs.mp hMem
  rw [(hBlock.txs tx hIn).active hOPoI] at hInactive
  cases hInactive

theorem blockTxs_eq (hBlock : AcceptedBlock env node block) (t : OPoITxType) :
    blockTxs block.vtx t = (opoiTxs block.vtx).filter (·.opoiType == t) := by
  obtain ⟨coinbase, rest, hVtx, hCoinbase, _⟩ := hBlock.shape
  have hOther : coinbase.isOPoITx = false := by
    cases hOPoI : coinbase.isOPoITx with
    | false => rfl
    | true =>
      have hTx := hBlock.txs coinbase (by rw [hVtx]; exact List.mem_cons_self)
      rw [hTx.not_coinBase hOPoI] at hCoinbase
      cases hCoinbase
  rw [hVtx, blockTxs, opoiTxs, List.tail_cons, List.filter_filter,
    List.filter_cons_of_neg (by simp [hOther])]
  refine List.filter_congr fun tx _ => ?_
  rw [CTransaction.isOPoI, Bool.and_comm]

theorem Preserved.afterTxs {p : NodeState → LoopState → CTransaction → Prop}
    {J : NodeState → OPoICache → Prop} (h : Preserved env p J) (hPre : J node node.cache)
    (hTip : connectTip env node block = .ok node') (hOk : onBlock env p node block) :
    J node (afterTxs env node block.vtx) := by
  obtain ⟨st, hLoop, hSteps, _⟩ := smallSteps_of_connectTip hTip hOk
  rw [← cache_of_connectLoop (connectTip_cache hTip).1 hLoop]
  exact (h.run hSteps hPre).1

theorem AcceptedBlock.induction {P : OPoICache → Prop} (hBlock : AcceptedBlock env node block)
    (hStart : P node.cache)
    (hStep : ∀ c tx, tx ∈ opoiTxs block.vtx → AcceptedTx env node tx → P c →
      P (applyOPoITransaction env node.chainActive node.nextHeight c tx)) :
    P (afterTxs env node block.vtx) :=
  List.foldlRecOn _ _ hStart fun c hc tx hMem =>
    hStep c tx hMem (hBlock.txs tx (mem_opoiTxs.mp hMem).1) hc

theorem AcceptedBlock.persists (hBlock : AcceptedBlock env node block) :
    Persists node.cache (afterTxs env node block.vtx) :=
  hBlock.induction (.refl _) fun _ _ hMem hTx h => h.apply hTx.checked (mem_opoiTxs.mp hMem).2

theorem persists_of_connectTip (h : connectTip env node block = .ok node') :
    Persists node.cache node'.cache := by
  obtain ⟨hBlock, _, hCache⟩ := connectTip_cache h
  rw [hCache]
  split
  · exact (Persists.passPreserved env node.nextHeight node.cache).connectPasses hBlock.persists _
  · exact .refl _

/-- Connected blocks take no record away. -/
theorem persists_of_steps {blocks : List CBlock}
    (hRun : Run.Steps (connectTip env) (fun _ _ => True) node blocks node') :
    Persists node.cache node'.cache := by
  induction hRun with
  | nil => exact .refl _
  | cons hStep _ _ ih => exact (persists_of_connectTip hStep).trans ih

end AppliedTxs

theorem persists_of_settlement : ∃ node node',
    PlainRun sampleNet sampleChallengedBlocks node ∧
    connectTip sampleNet node (sampleSettlement []) = .ok node' ∧
    node.cache.mapResponses.size = 1 ∧ Persists node.cache node'.cache :=
  Run.exists_next_imp .other (fun node _ => node.cache.mapResponses.size = 1) (by decide +kernel)
    fun _ _ _ hTip hSize => ⟨hSize, persists_of_steps (.cons hTip trivial (.nil _))⟩

end CloudService
