/-
  The collateral of a confirmed node. Spending it expires the node, if that was confirmed
  before the block.
-/

import CloudService.Coins.View
import CloudService.Fluxnode.Queues

namespace CloudService

open CoinsView

/-- The block confirms a node and spends its collateral. -/
def CBlock.SpendsNewNode (block : CBlock) : Prop :=
  ∃ tx ∈ block.vtx, tx.isInitialConfirm = true ∧ ∃ t ∈ block.vtx, tx.collateralIn ∈ spentBy t
deriving Decidable

/-- The collateral of every confirmed node is unspent. -/
def FullNode.HoldsCollateral (s : FullNode) : Prop :=
  ∀ (o : COutPoint) (d : FluxnodeCacheData),
    s.fluxnodeCache.mapConfirmedFluxnodeData[o]? = some d → (s.node.view.unspent o).isSome = true

section Coins

variable {getHash : CTransaction → Uint256} {txs : List CTransaction} {v : CoinsView}
  {nHeight : Nat} {o : COutPoint}

theorem coin_foldl_updateCoins (hIds : ∀ tx ∈ txs, getHash tx ≠ o.hash) :
    (txs.foldl (fun v tx => v.updateCoins (getHash tx) tx nHeight) v).coin o =
      if ∃ tx ∈ txs, o ∈ spentBy tx then none else v.coin o := by
  induction txs generalizing v with
  | nil => simp
  | cons tx txs ih =>
    rw [List.foldl_cons, ih fun t ht => hIds t (List.mem_cons_of_mem _ ht), coin_updateCoins,
      if_neg (hIds tx List.mem_cons_self).symm]
    by_cases hRest : ∃ t ∈ txs, o ∈ spentBy t
    · simp [hRest]
    · by_cases hHere : o ∈ spentBy tx
      · simp [hHere]
      · simp [hRest, hHere]

theorem coin_of_foldl_updateCoins {c : Coin}
    (h : (txs.foldl (fun v tx => v.updateCoins (getHash tx) tx nHeight) v).coin o = some c) :
    c.nHeight = nHeight ∨ v.coin o = some c := by
  induction txs using List.reverseRecOn generalizing c with
  | nil => exact .inr h
  | append_singleton txs tx ih =>
    rw [List.foldl_append, List.foldl_cons, List.foldl_nil, coin_updateCoins] at h
    split at h
    · rw [CCoins.coin_fromTx] at h
      obtain ⟨out, _, rfl⟩ := Option.map_eq_some_iff.mp h
      exact .inl rfl
    · split at h
      · cases h
      · exact ih h

theorem nHeight_of_coin {c : Coin} (h : v.coin o = some c) :
    ((v.cacheCoins[o.hash]?).getD {}).nHeight = c.nHeight := by
  obtain ⟨coins, hGet, hCoin⟩ := Option.bind_eq_some_iff.mp h
  obtain ⟨out, _, rfl⟩ := Option.map_eq_some_iff.mp hCoin
  rw [hGet]
  rfl

end Coins

/-! ## One block -/

namespace FullNode

variable {env : FluxnodeEnv} {s s' : FullNode} {block prev : CBlock} {chain : List CBlock}
  {f : COutPoint → NodeStatus} {l : LocalFluxnodeCache} {undo : CFluxnodeTxBlockUndo}

theorem coin_of_connect (h : connectTip (s.payingEnv env) s.node block = .ok s'.node)
    {o : COutPoint} {c : Coin} (hCoin : s.node.view.coin o = some c) :
    s'.node.view.coin o = if ∃ tx ∈ block.vtx, o ∈ spentBy tx then none else some c := by
  obtain ⟨_, _, hPre, _, _, _⟩ := connectTip_eq_ok h
  have hBlock := ValidBlock.of_preChecks hPre
  have hIds : ∀ tx ∈ block.vtx, env.getHash tx ≠ o.hash := by
    intro tx hMem hHash
    have hNew := hBlock.noOverwrite tx hMem
    have hOld := s.node.view.overwrites_of_coin hCoin
    rw [← hHash] at hOld
    exact Bool.false_ne_true (hNew.symm.trans hOld)
  have hView : s'.node.view.coin o = (block.vtx.foldl (fun v tx =>
      v.updateCoins (env.getHash tx) tx s.node.nextHeight) s.node.view).coin o := by
    rw [view_of_connectTip h]
    rfl
  rw [hView, coin_foldl_updateCoins hIds, hCoin]

theorem Advances.coin_of_confirm (h : Advances env s s' block prev chain f l undo)
    (hView : s.node.view = chainCoins env.toEnv (prev :: chain)) {o : COutPoint}
    (hConfirm : ∃ tx ∈ block.vtx, tx.isInitialConfirm = true ∧ tx.collateralIn = o) :
    ∃ c, s.node.view.coin o = some c := by
  rw [h.undoable.confirms, Option.isSome_iff_exists] at hConfirm
  obtain ⟨ip, hEvent⟩ := hConfirm
  obtain ⟨before, tx, after, ⟨tier, nCollateral⟩, _, _, rfl, hInput⟩ :=
    (EventSources.of_eventsLoop block.vtx).confirm o ip hEvent
  obtain ⟨out, hUnspent, _, _, hDepth, _⟩ := checkFluxnodeTxInput_eq_ok hInput
  rw [unspent_eq] at hUnspent
  obtain ⟨c, hCoin, _⟩ := Option.map_eq_some_iff.mp hUnspent
  rw [nHeight_of_coin hCoin] at hDepth
  rw [eventsLoop_fst] at hCoin
  rcases coin_of_foldl_updateCoins hCoin with hNew | hOld
  · rw [hNew, FLUXNODE_MIN_CONFIRMATION_DETERMINISTIC] at hDepth
    simp at hDepth
  · exact ⟨c, hView ▸ hOld⟩

theorem mem_spentBy_of_not_spent (h : Advances env s s' block prev chain f l undo) {o : COutPoint}
    (hSpent : (chainEvents env (prev :: chain) block).spent.contains o = false) :
    ¬ ∃ tx ∈ block.vtx, o ∈ spentBy tx := by
  rintro ⟨tx, hMem, hIn⟩
  obtain ⟨_, _, hPre, _, _, _⟩ := connectTip_eq_ok h.tip
  have hBlock := ValidBlock.of_preChecks hPre
  unfold spentBy at hIn
  split at hIn
  · cases hIn
  · rename_i hCoinBase
    obtain ⟨txin, hTxin, hOut⟩ := List.mem_map.mp hIn
    have hFluxnode : tx.isFluxnodeTx = false := by
      rw [← Bool.not_eq_true]
      intro hIs
      rw [((hBlock.txs tx hMem).inputless_empty
        (by simp [CTransaction.isInputless, hIs])).1] at hTxin
      cases hTxin
    have hIsSpent : (chainEvents env (prev :: chain) block).spent.contains o = true :=
      ((EventSources.of_eventsLoop block.vtx).spent o).mpr
        ⟨tx, hMem, by simpa using hCoinBase, hFluxnode, txin, hTxin, hOut⟩
    rw [hSpent] at hIsSpent
    cases hIsSpent

theorem HoldsCollateral.connect_iff (h : s.HoldsCollateral) (hTracks : Tracks env s)
    (hConnect : s.connect env block = .ok s') : s'.HoldsCollateral ↔ ¬ block.SpendsNewNode := by
  obtain ⟨prev, chain, hChain⟩ := hTracks.chain_eq
  obtain ⟨f, hHolds, hSame⟩ := hTracks.holds
  have hView := hTracks.view
  rw [hChain] at hSame hView
  obtain ⟨l, undo, hStep⟩ := hTracks.advances hConnect hChain hHolds hSame
  have hAfter := fun o => (hStep.holds.confirmed (o := o))
  constructor
  · rintro hHeld ⟨tx, hMem, hInitial, hSpends⟩
    have hConfirm : ∃ t ∈ block.vtx, t.isInitialConfirm = true ∧
        t.collateralIn = tx.collateralIn := ⟨tx, hMem, hInitial, rfl⟩
    obtain ⟨c, hCoin⟩ := hStep.coin_of_confirm hView hConfirm
    rw [hStep.undoable.confirms] at hConfirm
    obtain ⟨d, hStarted⟩ := (hStep.undoable.admits tx.collateralIn).confirm hConfirm
    obtain ⟨ip, hEvent⟩ := Option.isSome_iff_exists.mp hConfirm
    have hConfirmed : s'.fluxnodeCache.mapConfirmedFluxnodeData[tx.collateralIn]? =
        some (d.confirm (chain.length + 1) ip) := by
      rw [hAfter, hStarted]
      simp [NodeStatus.step, BlockEvents.node, hEvent, NodeStatus.place]
    have hUnspent := hHeld _ _ hConfirmed
    rw [unspent_eq, coin_of_connect hStep.tip hCoin, if_pos hSpends] at hUnspent
    cases hUnspent
  · intro hGood o d hGet
    rw [hAfter, NodeStatus.place_confirmed_eq_some] at hGet
    suffices hKept : ∃ c, s.node.view.coin o = some c ∧ ¬ ∃ tx ∈ block.vtx, o ∈ spentBy tx by
      obtain ⟨c, hCoin, hNotSpent⟩ := hKept
      rw [unspent_eq, coin_of_connect hStep.tip hCoin, if_neg hNotSpent]
      rfl
    rcases NodeStatus.step_eq_confirmed hGet with
      ⟨started, ip, hStarted, hEvent, _⟩ | ⟨old, _, hOld, hExpires, _⟩
    · -- the block confirms the node
      have hSome : (chainEvents env (prev :: chain) block).confirms[o]?.isSome = true := by
        rw [show (chainEvents env (prev :: chain) block).confirms[o]? = some ip from hEvent]
        rfl
      have hConfirm := (hStep.undoable.confirms o).mpr hSome
      obtain ⟨c, hCoin⟩ := hStep.coin_of_confirm hView hConfirm
      obtain ⟨tx, hMem, hInitial, rfl⟩ := hConfirm
      exact ⟨c, hCoin, fun hSpends => hGood ⟨tx, hMem, hInitial, hSpends⟩⟩
    · -- the node was confirmed and does not expire
      have hBefore : s.fluxnodeCache.mapConfirmedFluxnodeData[o]? = some old := by
        rw [hHolds.confirmed, hOld]
        rfl
      have hUnspent := h o old hBefore
      rw [unspent_eq, Option.isSome_map, Option.isSome_iff_exists] at hUnspent
      obtain ⟨c, hCoin⟩ := hUnspent
      simp only [NodeEvents.expires, Bool.or_eq_false_iff] at hExpires
      exact ⟨c, hCoin, mem_spentBy_of_not_spent hStep hExpires.2⟩

/-- On runs without a block that confirms a node and spends its collateral, every confirmed
    node has its collateral. After such a run, a block keeps it so exactly when it is not of
    this kind. -/
theorem confirmed_hold_collateral_iff (env : FluxnodeEnv) :
    (∀ blocks s, Run.Steps (connect env) (fun _ block => ¬ block.SpendsNewNode)
      (.init env) blocks s → s.HoldsCollateral) ∧
    ∀ blocks s block s', Run.Steps (connect env) (fun _ block => ¬ block.SpendsNewNode) (.init env)
      blocks s → s.connect env block = .ok s' →
      (s'.HoldsCollateral ↔ ¬ block.SpendsNewNode) := by
  have hInv : ∀ blocks s, Run.Steps (connect env) (fun _ block => ¬ block.SpendsNewNode)
      (.init env) blocks s → Tracks env s ∧ s.HoldsCollateral := by
    intro blocks s hRun
    refine hRun.invariant (I := fun s => Tracks env s ∧ s.HoldsCollateral)
      (fun s block t hInv hOk hStep => ?_) ⟨.init, fun o d hGet => ?_⟩
    · exact ⟨hInv.1.connect hStep, (hInv.2.connect_iff hInv.1 hStep).mpr hOk⟩
    · simp [init] at hGet
  refine ⟨fun blocks s hRun => (hInv blocks s hRun).2, fun blocks s block s' hRun hConnect => ?_⟩
  obtain ⟨hTracks, hHeld⟩ := hInv blocks s hRun
  exact hHeld.connect_iff hTracks hConnect

end FullNode

def sampleSpend (n : Nat) : CTransaction :=
  { vin := [⟨sampleCollateral n⟩]
    vout := [⟨10000 * COIN, []⟩]
    sigTime := n + 21 }

namespace FullNode

set_option maxRecDepth 10000 in
theorem collateral_held_on_sampleNodeBlocks : ∃ s, Run.Steps (connect sampleFluxnodeEnv)
    (fun _ block => ¬ block.SpendsNewNode) (.init sampleFluxnodeEnv) sampleNodeBlocks s ∧
    s.fluxnodeCache.mapConfirmedFluxnodeData.contains (sampleCollateral 0) = true ∧
    s.HoldsCollateral := by
  exact Run.exists_steps_imp .other (fun s : FullNode =>
      s.fluxnodeCache.mapConfirmedFluxnodeData.contains (sampleCollateral 0) = true)
    (by decide +kernel) fun _ hSteps hConfirmed =>
      ⟨hConfirmed, (confirmed_hold_collateral_iff sampleFluxnodeEnv).1 _ _ hSteps⟩

set_option maxRecDepth 10000 in
/-- A started node is confirmed and its collateral spent by the next transaction of the block:
    the node is confirmed and has no collateral. -/
theorem confirmed_without_collateral : ∃ s : FullNode, s.ReachedForward sampleFluxnodeEnv ∧
    ∃ d, s.fluxnodeCache.mapConfirmedFluxnodeData[sampleCollateral 1]? = some d ∧
      s.node.view.unspent (sampleCollateral 1) = none := by
  obtain ⟨s, hSteps, d, hGet, hSpent⟩ : ∃ s : FullNode,
      Run.Steps (connect sampleFluxnodeEnv) (fun _ _ => True) (.init sampleFluxnodeEnv)
        (sampleNodeBlocks ++ [nodeBlock 0 103 [sampleConfirm 1, sampleSpend 1]]) s ∧
      ∃ d, s.fluxnodeCache.mapConfirmedFluxnodeData[sampleCollateral 1]? = some d ∧
        s.node.view.unspent (sampleCollateral 1) = none :=
    Run.exists_steps .other (by decide +kernel)
  exact ⟨s, ⟨_, hSteps⟩, d, hGet, hSpent⟩

end FullNode

end CloudService
