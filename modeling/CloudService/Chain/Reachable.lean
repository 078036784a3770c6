/-
  Everything that changes the cache of a node: a block that connects, one that fails, a
  disconnected tip, and a rebuilt cache.
-/

import CloudService.Chain.Replay
import CloudService.Undo.Guard

namespace CloudService

open List

/-- The transactions are undone in reverse order. The per-block passes have no undo. -/
def disconnectBlock (env : Env) (height : Nat) (block : CBlock) (c : OPoICache) : OPoICache :=
  block.vtx.reverse.foldl (fun c tx => processOPoITransaction env [] tx height true c) c

/-- One step of a node. The coins after a disconnect are not tracked. -/
inductive NodeStep (env : Env) : NodeState → NodeState → Prop
  | connect {node node' : NodeState} {block : CBlock} (h : connectTip env node block = .ok node') :
      NodeStep env node node'
  | fail {node : NodeState} {block : CBlock} {e : BlockReject}
      (h : (connectBlock env {} node.context block node.cache).verdict = .error e) :
      NodeStep env node { node with cache := (connectBlock env {} node.context block
        node.cache).cache }
  | disconnect {node : NodeState} {block : CBlock} {chain : List CBlock} (view : CoinsView)
      (hChain : node.chain = chain ++ [block]) (hGenesis : chain ≠ []) :
      NodeStep env node ⟨chain, disconnectBlock env chain.length block node.cache, view⟩
  | rebuild {node : NodeState} :
      NodeStep env node { node with cache := rebuildOPoICache env node.chain node.cache }

/-- Connected and failed blocks, disconnected tips and rebuilds lead to the state. -/
def Reachable (env : Env) (node : NodeState) : Prop :=
  Relation.ReflTransGen (NodeStep env) (.init env) node

theorem reachable_of_forwardRun {env : Env} {ok : NodeState → CBlock → Prop} {blocks : List CBlock}
    {node : NodeState} (h : ForwardRun env ok blocks node) : Reachable env node :=
  h.invariant (fun _ _ _ hReach _ hTip => hReach.tail (.connect hTip)) .refl

/-! ## Invariants -/

/-- A property that every elementary change preserves, for accepted transactions. -/
structure CacheInvariant (env : Env) (ok : CTransaction → Prop) (P : OPoICache → Prop) : Prop where
  accepted : ∀ hashes c tx, checkOPoITransaction env false hashes c tx = .ok () →
    tx.isOPoITx = true → ok tx
  onNull : ∀ c : OPoICache, P c.setNull
  onApply : ∀ hashes height c tx, ok tx → P c → P (applyOPoITransaction env hashes height c tx)
  onUndo : ∀ c tx, P c → P (undoOPoITransaction c tx)
  onPasses : ∀ height, PassPreserved env height P

def OnChain (ok : CTransaction → Prop) (node : NodeState) : Prop :=
  ∀ block ∈ node.chain, ∀ tx ∈ block.vtx, tx.isOPoITx = true → ok tx

section Invariant

variable {env : Env} {ok : CTransaction → Prop} {P : OPoICache → Prop} {node node' : NodeState}
  {block : CBlock}

theorem mem_vtx_of_applied {ctx : ConnectContext} (txs : List CTransaction) {st : LoopState}
    (hPast : ∀ tx ∈ st.vAppliedOPoITxs, tx ∈ block.vtx) (hTxs : ∀ tx ∈ txs, tx ∈ block.vtx) :
    ∀ tx ∈ (loopEnd (txs.foldlM (connectTx env {} ctx block) st)).vAppliedOPoITxs,
      tx ∈ block.vtx := by
  induction txs generalizing st with
  | nil => exact hPast
  | cons next txs ih =>
    have hApply : ∀ tx ∈ (connectTxApply env {} ctx st next).vAppliedOPoITxs, tx ∈ block.vtx := by
      intro tx hMem
      unfold connectTxApply at hMem
      split at hMem
      · rcases mem_append.mp hMem with hOld | hNew
        · exact hPast tx hOld
        · rw [mem_singleton.mp hNew]
          exact hTxs next mem_cons_self
      · exact hPast tx hMem
    have hRest : ∀ tx ∈ txs, tx ∈ block.vtx := fun tx hMem =>
      hTxs tx (mem_cons_of_mem _ hMem)
    rw [foldlM_cons]
    unfold connectTx
    split
    · exact hPast
    · dsimp only
      split
      · exact hApply
      · exact ih hApply hRest

theorem accepted_of_applied {tx : CTransaction}
    (h : tx ∈ appliedTxs env node.context block node.cache) :
    tx.isOPoITx = true ∧ checkOPoITransaction env false node.chainActive node.cache tx =
      .ok () := by
  have hRecorded : Recorded env node.context node.cache
      (loopEnd (connectLoop env {} node.context block node.cache)) :=
    recorded_loopEnd block.vtx ⟨rfl, fun _ hMem => by cases hMem⟩
  unfold appliedTxs at h
  split at h
  · cases h
  · rename_i hPre
    have hMem : tx ∈ block.vtx :=
      mem_vtx_of_applied block.vtx (fun _ hPast => by cases hPast) (fun _ hTx => hTx) tx h
    exact ⟨by simpa [CTransaction.isOPoITx] using hRecorded.2 tx h,
      ((AcceptedBlock.of_preChecks hPre).txs tx hMem).checked⟩

section

variable (h : CacheInvariant env ok P)

include h

theorem CacheInvariant.process {c : OPoICache} {tx : CTransaction}
    (hTx : tx.isOPoITx = true → ok tx) (hashes : List Uint256) (height : Nat) (hc : P c) :
    P (processOPoITransaction env hashes tx height false c) := by
  unfold processOPoITransaction
  split
  · exact hc
  · rename_i hVersion
    have hOPoI : tx.isOPoITx = true := by simpa [CTransaction.isOPoITx] using hVersion
    exact h.onApply hashes height c tx (hTx hOPoI) hc

theorem CacheInvariant.connect (hc : P node.cache) (hTip : connectTip env node block = .ok node') :
    P node'.cache := by
  have hPreserved : Preserved env (fun _ _ _ => True) fun _ c => P c :=
    { onTx := fun node st tx _ hCur hTx hOPoI _ =>
        h.onApply _ _ _ _ (h.accepted _ _ tx hTx.checked hOPoI) hCur
      onPasses := fun node block c _ _ hCur _ => (h.onPasses node.nextHeight).connectPasses hCur _
      onQuiet := fun _ _ _ hc => hc }
  have hRun : Run.Steps (connectTip env) (onBlock env fun _ _ _ => True) node [block] node' :=
    .cons hTip (fun _ _ => trivial) (.nil _)
  exact hPreserved.run (smallSteps_of_blocks hRun) hc

theorem CacheInvariant.fail (hc : P node.cache) {e : BlockReject}
    (hFail : (connectBlock env {} node.context block node.cache).verdict = .error e) :
    P (connectBlock env {} node.context block node.cache).cache := by
  rw [connectBlock_failed hFail]
  refine foldlRecOn _ _ ?_ fun b hb tx _ => h.onUndo b tx hb
  refine foldlRecOn _ _ hc fun b hb tx hMem => ?_
  obtain ⟨hOPoI, hAccepted⟩ := accepted_of_applied hMem
  exact h.onApply _ _ b tx (h.accepted _ _ tx hAccepted hOPoI) hb

theorem CacheInvariant.disconnect {c : OPoICache} (hc : P c) (height : Nat) (block : CBlock) :
    P (disconnectBlock env height block c) := by
  refine foldlRecOn _ _ hc fun b hb tx _ => ?_
  unfold processOPoITransaction
  split
  · exact hb
  · exact h.onUndo b tx hb

theorem CacheInvariant.rebuild (hChain : OnChain ok node) (c : OPoICache) :
    P (rebuildOPoICache env node.chain c) := by
  refine foldlRecOn _ _ (h.onNull c) fun b hb entry hMem => ?_
  have hBlock : entry.1 ∈ node.chain := fst_mem_of_mem_zipIdx hMem
  have hApplied : P (entry.1.vtx.foldl
      (fun c tx => processOPoITransaction env (node.chain.map CBlock.hash) tx entry.2 false c) b) :=
    foldlRecOn _ _ hb fun a ha tx hTx => h.process (hChain entry.1 hBlock tx hTx) _ _ ha
  unfold replayBlock
  split
  · exact (h.onPasses entry.2).blockPasses hApplied _
  · exact hApplied

end

theorem OnChain.step (hAccepted : ∀ hashes c tx,
      checkOPoITransaction env false hashes c tx = .ok () → tx.isOPoITx = true → ok tx)
    (hChain : OnChain ok node) (hStep : NodeStep env node node') : OnChain ok node' := by
  cases hStep with
  | connect hTip =>
    rename_i block
    obtain ⟨st, _, hPre, _, _, hNode⟩ := connectTip_eq_ok hTip
    intro b hb tx hMem hOPoI
    rw [hNode] at hb
    rcases mem_append.mp hb with hOld | hNew
    · exact hChain b hOld tx hMem hOPoI
    · rw [mem_singleton.mp hNew] at hMem
      exact hAccepted _ _ tx ((AcceptedBlock.of_preChecks hPre).txs tx hMem).checked hOPoI
  | fail _ => exact hChain
  | disconnect _ hSplit _ =>
    intro b hb
    exact hChain b (by rw [hSplit]; exact mem_append_left _ hb)
  | rebuild => exact hChain

theorem CacheInvariant.reachable (h : CacheInvariant env ok P) (hReach : Reachable env node) :
    P node.cache := by
  suffices hBoth : P node.cache ∧ OnChain ok node from hBoth.1
  induction hReach with
  | refl =>
    refine ⟨h.onNull {}, fun b hb tx hMem hOPoI => ?_⟩
    rw [mem_singleton.mp hb] at hMem
    rw [env.genesis_no_opoi tx hMem] at hOPoI
    cases hOPoI
  | tail _ hStep ih =>
    obtain ⟨hc, hChain⟩ := ih
    refine ⟨?_, hChain.step h.accepted hStep⟩
    cases hStep with
    | connect hTip => exact h.connect hc hTip
    | fail hFail => exact h.fail hc hFail
    | disconnect _ _ _ => exact h.disconnect hc _ _
    | rebuild => exact h.rebuild hChain _

end Invariant

end CloudService
