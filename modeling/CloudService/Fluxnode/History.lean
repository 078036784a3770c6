/-
  Runs of a node that connects and disconnects blocks: the undo data fits the chain
  (`IndexOk`), and the trackers fit its ledger (`Tracks`).
-/

import CloudService.Fluxnode.Ledger

namespace CloudService

variable {chain : List CBlock} {prev : CBlock} {undo : CFluxnodeTxBlockUndo}

/-- A chain all of whose blocks are in the block index, from the last block to the genesis
    block. -/
def Indexed (env : FluxnodeEnv) (index : Std.ExtTreeMap Uint256 CBlockIndex) : List CBlock → Prop
  | [] => False
  | [block] => block = env.genesis
  | block :: prev :: chain =>
    (∃ e, index[block.hash]? = some e ∧ e.block = block ∧ e.pprev = prev.hash) ∧
      Indexed env index (prev :: chain)

def EntryOk (env : FluxnodeEnv) (index : Std.ExtTreeMap Uint256 CBlockIndex) (e : CBlockIndex) :
    Prop :=
  ∃ prev chain pays w, Indexed env index (prev :: chain) ∧ prev.hash = e.pprev ∧
    Undoable env chain.length e.block (chainEvents env (prev :: chain) e.block) pays
      e.fluxnodeUndo w (ledger env (prev :: chain))

structure IndexOk (env : FluxnodeEnv) (index : Std.ExtTreeMap Uint256 CBlockIndex) : Prop where
  genesis : index[env.genesis.hash]? = none
  entry : ∀ (hash : Uint256) (e : CBlockIndex), index[hash]? = some e →
    e.block.hash = hash ∧ EntryOk env index e

section Index

variable {env : FluxnodeEnv} {index index' : Std.ExtTreeMap Uint256 CBlockIndex}

theorem Indexed.mono (hIndex : ∀ (hash : Uint256) (e : CBlockIndex), index[hash]? = some e →
      index'[hash]? = some e) (h : Indexed env index chain) :
    Indexed env index' chain := by
  induction chain with
  | nil => exact h
  | cons block chain ih =>
    cases chain with
    | nil => exact h
    | cons prev chain =>
      obtain ⟨⟨e, hGet, hBlock, hPrev⟩, hRest⟩ := h
      exact ⟨⟨e, hIndex _ _ hGet, hBlock, hPrev⟩, ih hRest⟩

theorem Indexed.unique (hGenesis : index[env.genesis.hash]? = none) {b b' : CBlock}
    {chain' : List CBlock} (h : Indexed env index (b :: chain))
    (h' : Indexed env index (b' :: chain')) (hHash : b.hash = b'.hash) :
    b :: chain = b' :: chain' := by
  induction chain generalizing b b' chain' with
  | nil =>
    cases chain' with
    | nil => rw [show b = env.genesis from h, show b' = env.genesis from h']
    | cons prev' chain' =>
      obtain ⟨⟨e, hGet, _⟩, _⟩ := h'
      rw [← hHash, show b = env.genesis from h, hGenesis] at hGet
      cases hGet
  | cons prev chain ih =>
    obtain ⟨⟨e, hGet, hBlock, hPrev⟩, hRest⟩ := h
    cases chain' with
    | nil =>
      rw [hHash, show b' = env.genesis from h', hGenesis] at hGet
      cases hGet
    | cons prev' chain' =>
      obtain ⟨⟨e', hGet', hBlock', hPrev'⟩, hRest'⟩ := h'
      rw [← hHash, hGet] at hGet'
      cases hGet'
      rw [← hBlock, ← hBlock', ih hRest hRest' (hPrev.symm.trans hPrev')]

theorem Indexed.genesis_mem (h : Indexed env index chain) :
    env.genesis ∈ chain := by
  induction chain with
  | nil => exact h.elim
  | cons block chain ih =>
    cases chain with
    | nil => exact List.mem_singleton.mpr (show block = env.genesis from h).symm
    | cons prev chain => exact List.mem_cons_of_mem _ (ih h.2)

theorem EntryOk.mono (hIndex : ∀ (hash : Uint256) (e : CBlockIndex), index[hash]? = some e →
      index'[hash]? = some e) {e : CBlockIndex} (h : EntryOk env index e) :
    EntryOk env index' e := by
  obtain ⟨prev, chain, pays, w, hChain, hRest⟩ := h
  exact ⟨prev, chain, pays, w, hChain.mono hIndex, hRest⟩

theorem IndexOk.undoable (h : IndexOk env index) {block : CBlock}
    (hChain : Indexed env index (block :: prev :: chain)) :
    ∃ e pays w, index[block.hash]? = some e ∧
      Undoable env chain.length block (chainEvents env (prev :: chain) block) pays e.fluxnodeUndo w
        (ledger env (prev :: chain)) := by
  obtain ⟨⟨e, hGet, hBlock, hPrev⟩, hRest⟩ := hChain
  obtain ⟨_, prev', chain', pays, w, hOwn, hHash, hUndoable⟩ := h.entry _ _ hGet
  cases hOwn.unique h.genesis hRest (hHash.trans hPrev)
  rw [hBlock] at hUndoable
  exact ⟨e, pays, w, hGet, hUndoable⟩

theorem IndexOk.ledger_valid (h : IndexOk env index) {block : CBlock}
    (hChain : Indexed env index (block :: chain)) (o : COutPoint) :
    (ledger env (block :: chain) o).Valid env chain.length o := by
  cases chain with
  | nil => trivial
  | cons prev chain =>
    obtain ⟨_, _, _, _, hUndoable⟩ := h.undoable hChain
    exact (hUndoable.valid o).step (hUndoable.admits o) _

end Index

structure Tracks (env : FluxnodeEnv) (s : FullNode) : Prop where
  index : IndexOk env s.mapBlockIndex
  chain : Indexed env s.mapBlockIndex s.node.chain.reverse
  view : s.node.view = chainCoins env.toEnv s.node.chain.reverse
  holds : ∃ f, s.fluxnodeCache.Holds f ∧ ∀ o, (f o).SameButPaid (ledger env s.node.chain.reverse o)

namespace Tracks

variable {env : FluxnodeEnv} {s s' : FullNode} {block : CBlock}

theorem init : Tracks env (.init env) where
  index := ⟨by simp [FullNode.init], fun hash e h => by simp [FullNode.init] at h⟩
  chain := rfl
  view := rfl
  holds := ⟨fun _ => .absent, fun o => by simp [FullNode.init, FluxnodeCache.place,
    NodeStatus.place],
    fun o => .refl _⟩

end Tracks

/-! ## Connecting a block -/

namespace FullNode

variable {env : FluxnodeEnv} {s s' : FullNode} {block : CBlock}

theorem connect_eq_ok (h : s.connect env block = .ok s') :
    ∃ l undo, startsWithoutIp block = true ∧ checkFluxnodeTxOuts block = .ok () ∧
      (∀ tx ∈ block.vtx, contextualCheckFluxnodeTx env s.fluxnodeCache s.node.nextHeight
        s.node.view tx = .ok ()) ∧
      connectTip (s.payingEnv env) s.node block = .ok s'.node ∧
      connectFluxnodes env s.fluxnodeCache s.node.nextHeight (s.paidNodes env) s.node.view block =
        .ok (l, undo) ∧
      s.indexBlock block undo = .ok s'.mapBlockIndex ∧
      s'.fluxnodeCache = (l.flush (s.checkedCache env)).1 := by
  unfold connect at h
  rw [check_bind_eq_ok, check_bind_eq_ok, check_bind_eq_ok, except_bind_eq_ok, requireOther_eq_ok,
    liftCheck_eq_ok, liftCheck_eq_ok, forM_eq_ok] at h
  obtain ⟨hIp, hOuts, hChecks, node, hTip, hRest⟩ := h
  split at hRest
  · cases hRest
  · rename_i l undo hFluxnodes
    rw [except_bind_eq_ok] at hRest
    obtain ⟨index, hIndex, hEnd⟩ := hRest
    cases hEnd
    exact ⟨l, undo, hIp, hOuts, hChecks, hTip, hFluxnodes, hIndex, rfl⟩

theorem place_checkedCache (o : COutPoint) :
    (s.checkedCache env).place o = s.fluxnodeCache.place o := by
  unfold checkedCache
  split
  · exact List.foldlRecOn (motive := fun g : FluxnodeCache =>
      g.place o = s.fluxnodeCache.place o) Tier.all _ rfl
      fun g hg tier _ => hg
  · rfl

theorem paidNodes_eq_some {f : COutPoint → NodeStatus} (hHolds : s.fluxnodeCache.Holds f)
    {tier : Tier} {i : Nat × COutPoint} (h : s.paidNodes env tier = some i) :
    i.1 = s.node.nextHeight ∧ ∃ d, f i.2 = .confirmed d := by
  unfold paidNodes at h
  split at h
  · obtain ⟨payment, hPayment, rfl⟩ := Option.map_eq_some_iff.mp h
    refine ⟨rfl, ?_⟩
    obtain ⟨out, _, hData⟩ := Option.bind_eq_some_iff.mp hPayment
    obtain ⟨d, hGet, hDest⟩ := Option.bind_eq_some_iff.mp hData
    obtain ⟨dest, _, rfl⟩ := Option.map_eq_some_iff.mp hDest
    rw [hHolds.confirmed, NodeStatus.place_confirmed_eq_some] at hGet
    exact ⟨d, hGet⟩
  · cases h

theorem nextHeight_eq
    (hChain : s.node.chain.reverse = prev :: chain) : s.node.nextHeight = chain.length + 1 := by
  have hLength := congrArg List.length hChain
  rw [List.length_reverse] at hLength
  exact hLength

structure Advances (env : FluxnodeEnv) (s s' : FullNode) (block prev : CBlock) (chain : List CBlock)
    (f : COutPoint → NodeStatus) (l : LocalFluxnodeCache) (undo : CFluxnodeTxBlockUndo) :
    Prop where
  connected : ConnectedNodes env (chain.length + 1) (chainCoins env.toEnv (prev :: chain)) block
    (s.paidNodes env) f l undo
  undoable : Undoable env chain.length block (chainEvents env (prev :: chain) block) l.pays undo f f
  flush : s'.fluxnodeCache = (l.flush (s.checkedCache env)).1
  holds : s'.fluxnodeCache.Holds fun o => (f o).step env (chain.length + 1)
    ((chainEvents env (prev :: chain) block).node o) (l.pays o)
  tip : connectTip (s.payingEnv env) s.node block = .ok s'.node
  fluxnodes : connectFluxnodes env s.fluxnodeCache s.node.nextHeight (s.paidNodes env) s.node.view
    block = .ok (l, undo)
  index : s.indexBlock block undo = .ok s'.mapBlockIndex

theorem advances_of_connect (h : s.connect env block = .ok s')
    (hChain : s.node.chain.reverse = prev :: chain)
    (hView : s.node.view = chainCoins env.toEnv (prev :: chain)) {f : COutPoint → NodeStatus}
    (hHolds : s.fluxnodeCache.Holds f) (hValid : ∀ o, (f o).Valid env chain.length o) :
    ∃ l undo, Advances env s s' block prev chain f l undo := by
  obtain ⟨l, undo, hIp, _, hChecks, hTip, hFluxnodes, hIndex, hFlush⟩ := connect_eq_ok h
  have hHeight := nextHeight_eq hChain
  have hLocal := hFluxnodes
  rw [hHeight, hView] at hChecks hFluxnodes
  obtain ⟨st, _, hPre, _, _, _⟩ := connectTip_eq_ok hTip
  have hValidBlock := ValidBlock.of_preChecks hPre
  have hCoinBase : ∀ tx ∈ block.vtx, tx.isFluxnodeTx = true → tx.isCoinBase = false := by
    intro tx hMem hFluxnode
    have hEmpty := ((hValidBlock.txs tx hMem).inputless_empty
      (by simp [CTransaction.isInputless, hFluxnode])).1
    simp [CTransaction.isCoinBase, hEmpty]
  have hAdmits : ∀ o, (f o).Admits env (chain.length + 1) o
      ((chainEvents env (prev :: chain) block).node o) := by
    refine admits_of_checks hHolds hChecks fun tx hMem hStart => ?_
    have hTest := List.all_eq_true.mp hIp tx hMem
    simpa [hStart] using hTest
  obtain ⟨hConnected, st, hCollected⟩ := ConnectedNodes.of_connectFluxnodes hHolds hValid
    (fun tier i hPaid => hHeight ▸ paidNodes_eq_some hHolds hPaid) hFluxnodes
  have hChecked : (s.checkedCache env).Holds f := fun o =>
    (place_checkedCache o).trans (hHolds o)
  refine ⟨l, undo, hConnected, ?_, hFlush, ?_, hTip, hLocal, hIndex⟩
  · exact ⟨hConnected.written, fun o => .refl _, hValid, hAdmits,
      hCollected.isSome_starts_iff hCoinBase, hCollected.isSome_confirms_iff hCoinBase⟩
  · rw [hFlush]
    exact hConnected.holds_flush hChecked (recordsKeyed_of_valid hChecked hValid) hAdmits

theorem Advances.chain_eq {f : COutPoint → NodeStatus} {l : LocalFluxnodeCache}
    (h : Advances env s s' block prev chain f l undo)
    (hChain : s.node.chain.reverse = prev :: chain) :
    s'.node.chain.reverse = block :: prev :: chain := by
  obtain ⟨st, _, _, _, _, hNode⟩ := connectTip_eq_ok h.tip
  rw [hNode]
  simp [NodeState.extend, hChain]

theorem indexBlock_eq_ok
    {index : Std.ExtTreeMap Uint256 CBlockIndex} (h : s.indexBlock block undo = .ok index) :
    (s.mapBlockIndex[block.hash]? = none ∧
        index = s.mapBlockIndex.insert block.hash ⟨s.node.view.hashBlock, block, undo⟩) ∨
      (index = s.mapBlockIndex ∧ ∃ e, s.mapBlockIndex[block.hash]? = some e ∧ e.block = block ∧
        e.pprev = s.node.view.hashBlock) := by
  unfold indexBlock at h
  split at h
  · rename_i hNone
    cases h
    exact .inl ⟨hNone, rfl⟩
  · rename_i e hSome
    split at h
    · rename_i hSame
      cases h
      exact .inr ⟨rfl, e, hSome, hSame.2, hSame.1⟩
    · cases h

end FullNode

namespace Tracks

variable {env : FluxnodeEnv} {s s' : FullNode} {block : CBlock}

theorem chain_eq (h : Tracks env s) : ∃ prev chain, s.node.chain.reverse = prev :: chain := by
  have hChain := h.chain
  cases hEq : s.node.chain.reverse with
  | nil =>
    rw [hEq] at hChain
    exact hChain.elim
  | cons prev chain => exact ⟨prev, chain, rfl⟩

section

variable (h : Tracks env s) {prev : CBlock} {chain : List CBlock}
  (hChain : s.node.chain.reverse = prev :: chain)

include h hChain

theorem hashBlock_eq : s.node.view.hashBlock = prev.hash := by
  have hIndexed := h.chain
  rw [hChain] at hIndexed
  rw [h.view, hChain]
  cases chain with
  | nil => rw [show prev = env.genesis from hIndexed]; rfl
  | cons _ _ => rfl

theorem indexOk_connect {f : COutPoint → NodeStatus}
    (hSame : ∀ o, (f o).SameButPaid (ledger env (prev :: chain) o)) {l : LocalFluxnodeCache}
      (hStep : FullNode.Advances env s s' block prev chain f l undo) :
    IndexOk env s'.mapBlockIndex ∧ Indexed env s'.mapBlockIndex (block :: prev :: chain) ∧
      ∀ (hash : Uint256) (e : CBlockIndex), s.mapBlockIndex[hash]? = some e →
        s'.mapBlockIndex[hash]? = some e := by
  have hIndexed := h.chain
  rw [hChain] at hIndexed
  have hHash := h.hashBlock_eq hChain
  have hUndoable := hStep.undoable.of_same hSame
  rcases FullNode.indexBlock_eq_ok hStep.index with ⟨hNone, hIndex⟩ |
    ⟨hIndex, e, hGet, hBlock, hPrev⟩
  · rw [hIndex]
    have hKept : ∀ (hash : Uint256) (e : CBlockIndex), s.mapBlockIndex[hash]? = some e →
        (s.mapBlockIndex.insert block.hash ⟨s.node.view.hashBlock, block, undo⟩)[hash]? =
          some e := by
      intro hash e hGet
      rw [TreeMap.getElem?_insert_eq, if_neg, hGet]
      rintro rfl
      rw [hNone] at hGet
      cases hGet
    refine ⟨⟨?_, fun hash e hGet => ?_⟩, ⟨⟨_, TreeMap.getElem?_insert_eq .. |>.trans (if_pos rfl),
      rfl, hHash⟩, hIndexed.mono hKept⟩, hKept⟩
    · obtain ⟨_, hNext, _⟩ := connectTip_eq_ok hStep.tip
      have hNew : ∀ b ∈ s.node.chain, b.hash ≠ block.hash := by
        simp only [isNextBlock, Bool.and_eq_true, Bool.not_eq_true', List.any_eq_false,
          beq_iff_eq] at hNext
        exact hNext.1
      have hGenesis : env.genesis ∈ s.node.chain := by
        rw [← List.mem_reverse, hChain]
        exact hIndexed.genesis_mem
      rw [TreeMap.getElem?_insert_eq, if_neg (hNew _ hGenesis).symm]
      exact h.index.genesis
    · rw [TreeMap.getElem?_insert_eq] at hGet
      split at hGet
      · rename_i hKey
        cases hGet
        exact ⟨hKey, prev, chain, l.pays, f, hIndexed.mono hKept, hHash.symm, hUndoable⟩
      · obtain ⟨hOwn, hEntry⟩ := h.index.entry hash e hGet
        exact ⟨hOwn, hEntry.mono hKept⟩
  -- A block that was connected before keeps the undo data of that time.
  · rw [hIndex]
    exact ⟨h.index, ⟨⟨e, hGet, hBlock, hPrev.trans hHash⟩, hIndexed⟩, fun _ _ hOld => hOld⟩

end

theorem advances (h : Tracks env s) (hConnect : s.connect env block = .ok s')
    (hChain : s.node.chain.reverse = prev :: chain)
    {f : COutPoint → NodeStatus} (hHolds : s.fluxnodeCache.Holds f)
    (hSame : ∀ o, (f o).SameButPaid (ledger env (prev :: chain) o)) :
    ∃ l undo, FullNode.Advances env s s' block prev chain f l undo := by
  have hIndexed := h.chain
  have hView := h.view
  rw [hChain] at hIndexed hView
  exact FullNode.advances_of_connect hConnect hChain hView hHolds fun o =>
    (hSame o).valid.mpr (h.index.ledger_valid hIndexed o)

theorem connect (h : Tracks env s) (hConnect : s.connect env block = .ok s') : Tracks env s' := by
  obtain ⟨prev, chain, hChain⟩ := h.chain_eq
  obtain ⟨f, hHolds, hSame⟩ := h.holds
  rw [hChain] at hSame
  obtain ⟨l, undo, hStep⟩ := h.advances hConnect hChain hHolds hSame
  obtain ⟨hIndex, hNewChain, _⟩ := h.indexOk_connect hChain hSame hStep
  have hExtended := hStep.chain_eq hChain
  refine ⟨hIndex, hExtended ▸ hNewChain, ?_, _, hStep.holds, fun o => ?_⟩
  · rw [view_of_connectTip hStep.tip, hExtended, h.view, hChain, FullNode.nextHeight_eq hChain]
    rfl
  · rw [hExtended]
    exact (hSame o).step _ _

theorem disconnect (h : Tracks env s) (hDisconnect : s.disconnect env = .ok s') :
    Tracks env s' := by
  unfold FullNode.disconnect at hDisconnect
  split at hDisconnect
  · rename_i block prev chain hChain
    cases hDisconnect
    have hIndexed := h.chain
    obtain ⟨f', hHolds, hNow⟩ := h.holds
    rw [hChain] at hIndexed hNow
    obtain ⟨e, pays, w, hGet, hUndoable⟩ := h.index.undoable hIndexed
    rw [hGet]
    obtain ⟨height, hBack⟩ := hUndoable.holds_flush hHolds hNow
    refine ⟨h.index, ?_, ?_, _, hBack, fun o => ?_⟩
    · rw [List.reverse_reverse]
      exact hIndexed.2
    · rw [List.reverse_reverse]
    · rw [List.reverse_reverse]
      exact NodeStatus.sameButPaid_withPaid _
  · cases hDisconnect

theorem of_run {ok : FullNode → TipChange → Prop} {changes : List TipChange}
    (h : Run.Steps (FullNode.step env) ok (.init env) changes s) : Tracks env s := by
  refine h.invariant (fun s change t hTracks _ hStep => ?_) .init
  cases change with
  | connect block => exact hTracks.connect hStep
  | disconnect => exact hTracks.disconnect hStep

end Tracks

end CloudService
