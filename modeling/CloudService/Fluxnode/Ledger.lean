/-
  The nodes of a chain as a function of its blocks, with no cache, no lists and no undo data.
  A tier pays the confirmed node that waits longest.
-/

import CloudService.Fluxnode.Connect
import CloudService.Fluxnode.Node

namespace CloudService

def IsNextPayee (f : COutPoint → NodeStatus) (tier : Tier) (o : COutPoint) : Prop :=
  ∃ d, f o = .confirmed d ∧ d.nTier = tier ∧ ∀ o' d', f o' = .confirmed d' → d'.nTier = tier →
    o' ≠ o → d.listData.lt d'.listData = true

open Classical in
noncomputable def ledgerPays (env : FluxnodeEnv) (nHeight : Nat) (f : COutPoint → NodeStatus)
    (o : COutPoint) : Bool :=
  decide (env.startFluxnodePayments ≤ nHeight ∧ ∃ tier, IsNextPayee f tier o)

theorem ledgerPays_eq_true {env : FluxnodeEnv} {nHeight : Nat} {f : COutPoint → NodeStatus}
    {o : COutPoint} : ledgerPays env nHeight f o = true ↔
      env.startFluxnodePayments ≤ nHeight ∧ ∃ tier, IsNextPayee f tier o := by
  classical exact decide_eq_true_iff

/-- The events of a block on a chain. The chain is given from the last block to the genesis
    block. -/
def chainEvents (env : FluxnodeEnv) (chain : List CBlock) (block : CBlock) : BlockEvents :=
  fluxnodeEvents env chain.length (chainCoins env.toEnv chain) block

noncomputable def ledger (env : FluxnodeEnv) : List CBlock → COutPoint → NodeStatus
  | [] | [_] => fun _ => .absent
  | block :: prev :: chain => fun o =>
    (ledger env (prev :: chain) o).step env (chain.length + 1)
      ((chainEvents env (prev :: chain) block).node o)
      (ledgerPays env (chain.length + 1) (ledger env (prev :: chain)) o)

theorem view_of_connectTip {env : Env} {node node' : NodeState} {block : CBlock}
    (h : connectTip env node block = .ok node') :
    node'.view = blockCoins env node.nextHeight block node.view := by
  obtain ⟨st, _, _, hLoop, _, rfl⟩ := connectTip_eq_ok h
  have hSteps := steps_of_connectLoop (p := fun _ _ _ => True) hLoop fun _ _ => trivial
  have hView : st.view = block.vtx.foldl
      (fun v tx => v.updateCoins (env.getHash tx) tx node.nextHeight) node.view := by
    refine hSteps.invariant_split (fun done st => st.view = done.foldl
      (fun v tx => v.updateCoins (env.getHash tx) tx node.nextHeight) node.view) ?_ rfl
    intro done tx rest s t _ hDone _ hTurn
    rw [(CoinTurn.of_connectTx hTurn).view, hDone, List.foldl_append]
    rfl
  unfold blockCoins
  rw [← hView]
  rfl

end CloudService
