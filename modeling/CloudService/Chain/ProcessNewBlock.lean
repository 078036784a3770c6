/-
  `ProcessNewBlock` calls `CheckBlock` when a block arrives, so its transactions are checked
  against the cache of the active tip, not of its parent.
-/

import CloudService.Chain.AppliedTxs
import CloudService.OPoI.CacheTests

namespace CloudService

/-- No transaction of an arriving block is rejected by the OPoI check in `CheckBlock`. -/
def AcceptedOnArrival (env : Env) (node : NodeState) (block : CBlock) : Prop :=
  ∀ tx ∈ block.vtx, checkOPoITransaction env false node.chainActive node.cache tx = .ok ()

/-- The cache of the tip has the records that a block relies on, and none in its way. -/
def CacheFits (env : Env) (node : NodeState) (block : CBlock) : Prop :=
  ∀ tx ∈ opoiTxs block.vtx,
    standing env node.cache tx = true ∧ unclashed env node.chainActive node.cache tx = true
deriving Decidable

/-- A block that connects to one chain is accepted on arrival at a node with any other tip
    exactly when the cache of that tip fits it: the fields and signatures are good anywhere. -/
theorem acceptedOnArrival_iff_cacheFits (env : Env) (node node' : NodeState) (block : CBlock)
    (hTip : connectTip env node block = .ok node') (other : NodeState) :
    AcceptedOnArrival env other block ↔ CacheFits env other block := by
  obtain ⟨hBlock, _, _⟩ := connectTip_cache hTip
  constructor
  · intro hArrival tx hMem
    obtain ⟨hVtx, hOPoI⟩ := mem_opoiTxs.mp hMem
    exact ((checkOPoITransaction_iff hOPoI).mp (hArrival tx hVtx)).2
  · intro hFits tx hVtx
    cases hOPoI : tx.isOPoITx with
    | false =>
      rw [CTransaction.isOPoITx, beq_eq_false_iff_ne] at hOPoI
      simp [checkOPoITransaction, hOPoI]
    | true =>
      have hTx := (hBlock.txs tx hVtx).checked
      exact (checkOPoITransaction_iff hOPoI).mpr
        ⟨((checkOPoITransaction_iff hOPoI).mp hTx).1, hFits tx (mem_opoiTxs.mpr ⟨hVtx, hOPoI⟩)⟩

def aliceRequestBlock (n : Nat) (id : String) : CBlock :=
  sampleBlock n [sampleRequest id "alice" 2 1]

/-- A block with another request arrives when its sibling is the tip. -/
theorem acceptedOnArrival_of_sibling :
    ∃ node node' other, PlainRun sampleNet [sampleFunding] node ∧
      connectTip sampleNet node (aliceRequestBlock 3 "q") = .ok node' ∧
      connectTip sampleNet node (aliceRequestBlock 4 "r") = .ok other ∧
      AcceptedOnArrival sampleNet other (aliceRequestBlock 3 "q") := by
  obtain ⟨node, hRun, node', hTip, other, hOther, hFits⟩ : ∃ node,
      PlainRun sampleNet [sampleFunding] node ∧
      ∃ node', connectTip sampleNet node (aliceRequestBlock 3 "q") = .ok node' ∧
        ∃ other, connectTip sampleNet node (aliceRequestBlock 4 "r") = .ok other ∧
          CacheFits sampleNet other (aliceRequestBlock 3 "q") :=
    Run.exists_steps .other (by decide +kernel)
  exact ⟨node, node', other, hRun, hTip, hOther,
    (acceptedOnArrival_iff_cacheFits _ node node' _ hTip other).mpr hFits⟩

/-- Two blocks on one parent hold the same REQUEST. The one that arrives second is rejected,
    although it connects to the parent. -/
theorem not_acceptedOnArrival_of_sibling :
    ∃ node node' other, PlainRun sampleNet [sampleFunding] node ∧
      connectTip sampleNet node (aliceRequestBlock 3 "r") = .ok node' ∧
      connectTip sampleNet node (aliceRequestBlock 4 "r") = .ok other ∧
      checkOPoITransaction sampleNet false other.chainActive other.cache
          (sampleRequest "r" "alice" 2 1) =
        .error (alreadyKnown "bad-txns-opoi-request-already-known") ∧
      ¬AcceptedOnArrival sampleNet other (aliceRequestBlock 3 "r") := by
  refine ⟨_, _, _, Run.steps_value .other (by decide +kernel), Run.eq_value (by decide +kernel),
    Run.eq_value (by decide +kernel), ?rejected, fun hArrival => ?_⟩
  · decide +kernel
  · have hAccepted := hArrival (sampleRequest "r" "alice" 2 1)
      (by simp [aliceRequestBlock, sampleBlock])
    exact absurd hAccepted (by decide +kernel)

end CloudService
