/-
  `DisconnectBlock` (`main.cpp`) on the chain state. A test that fails makes the result
  unclean and the undo goes on; only undo data of the wrong size stops it.
-/

import CloudService.Chain.ConnectBlock

namespace CloudService

structure CBlockUndo where
  vtxundo : List CTxUndo
  oldSproutTreeRoot : Uint256
deriving Repr, DecidableEq

/-- The undo data that `ConnectBlock` writes for a block. -/
def connectUndo (env : Env) (flags : ConnectFlags) (ctx : ConnectContext) (block : CBlock)
    (c : OPoICache) : Option CBlockUndo :=
  match connectLoop env flags ctx block c with
  | .ok st => some ⟨st.vtxundo, ctx.view.sproutAnchors.best⟩
  | .error _ => none

/-- What `DisconnectBlock` returns. -/
inductive DisconnectResult where
  | ok
  | unclean
  | failed
deriving Repr, DecidableEq

namespace CCoins

def clearUnspendable (c : CCoins) : CCoins :=
  cleanup { c with vout := c.vout.map fun o => if isUnspendable o.scriptPubKey then {} else o }

/-- The equality test of `CCoins`: without available outputs, all are equal. -/
def same (a b : CCoins) : Bool := (a.isPruned && b.isPruned) || decide (a = b)

/-- The output at a position is set; the outputs up to it are made null if need be. -/
def setOutput (c : CCoins) (n : Nat) (o : CTxOut) : CCoins :=
  { c with vout := (c.vout ++ List.replicate (n + 1 - c.vout.length) ({} : CTxOut)).set n o }

end CCoins

namespace CoinsView

/-- `AccessCoins`, for the coins of a transaction that need not be there. -/
def accessCoins (v : CoinsView) (txid : Uint256) : CCoins := (v.cacheCoins[txid]?).getD {}

/-- `ModifyCoins`: new coins of a transaction, cleaned up when the modifier is released. -/
def modifyCoins (v : CoinsView) (txid : Uint256) (coins : CCoins) : CoinsView :=
  { v with cacheCoins := v.cacheCoins.insert txid coins.cleanup }

end CoinsView

/-- The view while a block is undone, and whether all tests passed so far. -/
structure DisconnectState where
  view : CoinsView
  fClean : Bool := true

/-- The coins that `ApplyTxInUndo` adds the output to. -/
def undoneCoins (undo : CTxInUndo) (coins : CCoins) : CCoins :=
  if undo.nHeight ≠ 0 then
    { fCoinBase := undo.fCoinBase, nHeight := undo.nHeight, nVersion := undo.nVersion }
  else coins

def applyTxInUndo (undo : CTxInUndo) (s : DisconnectState) (out : COutPoint) : DisconnectState :=
  let coins := s.view.accessCoins out.hash
  { view := s.view.modifyCoins out.hash ((undoneCoins undo coins).setOutput out.n undo.txout)
    fClean := s.fClean && (if undo.nHeight ≠ 0 then coins.isPruned else !coins.isPruned) &&
      !(undoneCoins undo coins).isAvailable out.n }

section DisconnectBlock

variable (env : Env) (nHeight : Nat)

/-- The outputs of a transaction are compared with the block and removed. -/
def removeOutputs (tx : CTransaction) (s : DisconnectState) : DisconnectState :=
  let outsBlock := CCoins.fromTx tx nHeight
  let outs := (s.view.accessCoins (env.getHash tx)).clearUnspendable
  let outs := if outsBlock.nVersion < 0 then { outs with nVersion := outsBlock.nVersion } else outs
  { view := s.view.modifyCoins (env.getHash tx) {}
    fClean := s.fClean && outs.same outsBlock }

/-- The spent outputs are put back, the last one first. -/
def restoreInputs (outs : List COutPoint) (undo : CTxUndo) (s : DisconnectState) :
    DisconnectState :=
  (outs.zip undo).foldr (fun e s => applyTxInUndo e.2 s e.1) s

/-- The undo of one transaction. A coinbase has no undo data. -/
def disconnectTx (e : CTransaction × Option CTxUndo) (s : DisconnectState) :
    Option DisconnectState :=
  let removed := removeOutputs env nHeight e.1 s
  let unspent := { removed with view := removed.view.setNullifiers e.1 false }
  match e.2 with
  | none => some unspent
  | some undo =>
    if undo.length = e.1.vin.length then
      some (restoreInputs (e.1.vin.map CTxIn.prevout) undo unspent)
    else none

/-- The best Sapling anchor before a block, read off the header of the previous block. -/
def saplingRootBefore (hashPrev : Uint256) : Uint256 :=
  if env.acadiaActive (nHeight - 1) then env.hashFinalSaplingRoot hashPrev
  else env.roots.sapling []

/-- `DisconnectBlock` on the coins view; `none` is a failed assertion. -/
def disconnectCoins (hashPrev : Uint256) (block : CBlock) (undo : CBlockUndo)
    (view : CoinsView) : Option (DisconnectResult × CoinsView) :=
  if view.hashBlock ≠ block.hash then none
  else if undo.vtxundo.length + 1 ≠ block.vtx.length then some (.failed, view)
  else
    match (block.vtx.zip (none :: undo.vtxundo.map some)).foldrM (disconnectTx env nHeight)
        { view } with
    | none => some (.failed, view)
    | some s => do
      let sproutAnchors ← s.view.sproutAnchors.popAnchor env.roots.sprout undo.oldSproutTreeRoot
      let saplingAnchors ← s.view.saplingAnchors.popAnchor env.roots.sapling
        (saplingRootBefore env nHeight hashPrev)
      return (if s.fClean then .ok else .unclean,
        { s.view with sproutAnchors, saplingAnchors, hashBlock := hashPrev })

end DisconnectBlock

end CloudService
