/-
  A node with its fluxnode cache: `ConnectTip` and `DisconnectTip` (`main.cpp`). The undo data
  of a block is written when it is connected for the first time only.
-/

import CloudService.Chain.Reachable
import CloudService.Fluxnode.Block

namespace CloudService

/-- The previous block, the block on disk, and the fluxnode undo data in the database. -/
structure CBlockIndex where
  pprev : Uint256
  block : CBlock
  fluxnodeUndo : CFluxnodeTxBlockUndo

/-- A node, the global fluxnode cache, and the blocks that were connected once, by hash. -/
structure FullNode where
  node : NodeState
  fluxnodeCache : FluxnodeCache
  mapBlockIndex : Std.ExtTreeMap Uint256 CBlockIndex

/-- What happens to the tip. -/
inductive TipChange where
  | connect (block : CBlock)
  | disconnect

/-! ## The coins of a chain -/

def blockCoins (env : Env) (nHeight : Nat) (block : CBlock) (view : CoinsView) : CoinsView :=
  connectedView env { chainActive := [], nHeight, view } block
    (block.vtx.foldl (fun v tx => v.updateCoins (env.getHash tx) tx nHeight) view)

/-- The coins of a chain, from the last block to the genesis block. -/
def chainCoins (env : Env) : List CBlock → CoinsView
  | [] | [_] => .init env.roots env.genesis.hash
  | block :: prev :: chain =>
    blockCoins env (chain.length + 1) block (chainCoins env (prev :: chain))

namespace FullNode

def init (env : FluxnodeEnv) : FullNode :=
  { node := .init env.toEnv, fluxnodeCache := {}, mapBlockIndex := ∅ }

section Step

variable (env : FluxnodeEnv) (s : FullNode)

/-! ## Payments -/

/-- Whether the next block has to pay the nodes. -/
def paysFluxnodes : Bool := decide (env.startFluxnodePayments ≤ s.node.nextHeight)

/-- The answer of `GetNextPayment` for a tier. -/
def nextPayment (tier : Tier) : Option (COutPoint × CTxDestination) :=
  (s.fluxnodeCache.getNextPayment env s.node.view tier).1

/-- The cache after the calls of `GetNextPayment` in `CheckFluxnodePayout`, one for each
    tier. -/
def checkedCache : FluxnodeCache :=
  if s.paysFluxnodes env then
    Tier.all.foldl (fun g tier => (g.getNextPayment env s.node.view tier).2) s.fluxnodeCache
  else s.fluxnodeCache

/-- `mapPaidNodes` after `CheckFluxnodePayout` has approved the coinbase. -/
def paidNodes (tier : Tier) : Option (Nat × COutPoint) :=
  if s.paysFluxnodes env then
    (s.nextPayment env tier).map fun payment => (s.node.nextHeight, payment.1)
  else none

/-- The environment of the next block: the payments come from the cache. -/
def payingEnv : Env :=
  { env.toEnv with getNextPayment := fun _ tier => (s.nextPayment env tier).map Prod.snd }

/-! ## ConnectTip and DisconnectTip -/

/-- The block index with the entry of a block; an entry that is there keeps its undo data. -/
def indexBlock (block : CBlock) (undo : CFluxnodeTxBlockUndo) :
    Except BlockReject (Std.ExtTreeMap Uint256 CBlockIndex) :=
  match s.mapBlockIndex[block.hash]? with
  | none => .ok (s.mapBlockIndex.insert block.hash ⟨s.node.view.hashBlock, block, undo⟩)
  | some pindex =>
    if pindex.pprev = s.node.view.hashBlock ∧ pindex.block = block then .ok s.mapBlockIndex
    else .error .other

/-- A START has no address on the wire. -/
def startsWithoutIp (block : CBlock) : Bool :=
  block.vtx.all fun tx => !tx.isFluxnodeStart || tx.ip == ""

/-- `ConnectTip` for a block that `ConnectBlock` accepts. -/
def connect (block : CBlock) : Except BlockReject FullNode := do
  requireOther (startsWithoutIp block)
  liftCheck (checkFluxnodeTxOuts block)
  liftCheck (block.vtx.forM
    (contextualCheckFluxnodeTx env s.fluxnodeCache s.node.nextHeight s.node.view))
  let node ← connectTip (s.payingEnv env) s.node block
  match connectFluxnodes env s.fluxnodeCache s.node.nextHeight (s.paidNodes env) s.node.view
      block with
  | .error e => .error (.opoi e)
  | .ok (fluxnodeCache, undo) => do
    let mapBlockIndex ← s.indexBlock block undo
    return { node, fluxnodeCache := (fluxnodeCache.flush (s.checkedCache env)).1, mapBlockIndex }

/-- `DisconnectTip`. The genesis block stays. -/
def disconnect : Except BlockReject FullNode :=
  match s.node.chain.reverse with
  | block :: prev :: chain =>
    let undo := (s.mapBlockIndex[block.hash]?.map CBlockIndex.fluxnodeUndo).getD {}
    let fluxnodeCache := disconnectFluxnodes s.fluxnodeCache (chain.length + 1) block undo
    .ok { s with
      node :=
        { chain := (prev :: chain).reverse
          cache := disconnectBlock env.toEnv (chain.length + 1) block s.node.cache
          view := chainCoins env.toEnv (prev :: chain) }
      fluxnodeCache := (fluxnodeCache.flush s.fluxnodeCache).1 }
  | _ => .error .other

def step : TipChange → Except BlockReject FullNode
  | .connect block => s.connect env block
  | .disconnect => s.disconnect env

/-- The errors that `Flush` reports while a block is connected. -/
def flushErrors (block : CBlock) : List FlushError :=
  match connectFluxnodes env s.fluxnodeCache s.node.nextHeight (s.paidNodes env) s.node.view
      block with
  | .error _ => []
  | .ok (fluxnodeCache, _) => (fluxnodeCache.flush (s.checkedCache env)).2

/-- A state that connecting and disconnecting blocks leads to. -/
def Reached : Prop :=
  ∃ changes, Run.Steps (step env) (fun _ _ => True) (.init env) changes s

/-- A state that connecting blocks leads to. -/
def ReachedForward : Prop :=
  ∃ blocks, Run.Steps (connect env) (fun _ _ => True) (.init env) blocks s

end Step

end FullNode

end CloudService
