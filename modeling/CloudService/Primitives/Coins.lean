/-
  The chain state (`coins.h`, `coins.cpp`, `UpdateCoins`), as the single state that the
  stacked caches stand for. A commitment tree is the list of its commitments.
-/

import CloudService.Primitives.Transaction

namespace CloudService

/-- `CCoins`: the outputs of one transaction, spent ones nulled. -/
structure CCoins where
  fCoinBase : Bool := false
  vout : List CTxOut := []
  nHeight : Nat := 0
  nVersion : Int := 0
deriving Repr, DecidableEq

namespace CCoins

/-- `CCoins::Cleanup`: drop the null outputs at the end. -/
def cleanup (c : CCoins) : CCoins :=
  { c with vout := (c.vout.reverse.dropWhile CTxOut.isNull).reverse }

/-- `CCoins::FromTx`, with `ClearUnspendable`. -/
def fromTx (tx : CTransaction) (nHeight : Nat) : CCoins :=
  cleanup
    { fCoinBase := tx.isCoinBase
      vout := tx.vout.map fun o => if isUnspendable o.scriptPubKey then {} else o
      nHeight := nHeight
      nVersion := tx.nVersion }

def isAvailable (c : CCoins) (nPos : Nat) : Bool :=
  match c.vout[nPos]? with
  | some o => !o.isNull
  | none => false

def spend (c : CCoins) (nPos : Nat) : CCoins :=
  if c.isAvailable nPos then cleanup { c with vout := c.vout.set nPos {} } else c

def isPruned (c : CCoins) : Bool := c.vout.all CTxOut.isNull

end CCoins

/-- `CTxInUndo`: a spent output. The rest is only set for the last output of a
    transaction. -/
structure CTxInUndo where
  txout : CTxOut := {}
  fCoinBase : Bool := false
  nHeight : Nat := 0
  nVersion : Int := 0
deriving Repr, DecidableEq

abbrev CTxUndo := List CTxInUndo

/-! ## Commitment trees -/

/-- `SproutMerkleTree` and `SaplingMerkleTree`. -/
abbrev MerkleTree := List Uint256

/-- The roots of the two trees. The null hash, an anchor that is not set, is no root. -/
structure TreeRoots where
  sprout : MerkleTree → Uint256
  sapling : MerkleTree → Uint256
  sprout_ne_null : ∀ tree, sprout tree ≠ 0
  sapling_ne_null : ∀ tree, sapling tree ≠ 0

/-- The anchors of one kind of tree, and the best one. -/
structure AnchorCache where
  anchors : Std.ExtTreeMap Uint256 MerkleTree := ∅
  best : Uint256
deriving DecidableEq

namespace AnchorCache

variable (root : MerkleTree → Uint256) (a : AnchorCache)

/-- `GetSproutAnchorAt` and `GetSaplingAnchorAt`. -/
def getAnchorAt (rt : Uint256) : Option MerkleTree :=
  if rt = root [] then some [] else a.anchors[rt]?

/-- `AbstractPushAnchor`. -/
def pushAnchor (tree : MerkleTree) : AnchorCache :=
  if a.best ≠ root tree then
    { anchors := a.anchors.insert (root tree) tree, best := root tree }
  else a

/-- `AbstractPopAnchor`; `none` is a failed assertion. The null root asks the view below. -/
def popAnchor (newrt : Uint256) : Option AnchorCache :=
  if a.best ≠ newrt then
    match a.getAnchorAt root a.best with
    | some _ => some
        { anchors := a.anchors.erase a.best, best := if newrt.isNull then a.best else newrt }
    | none => none
  else some a

end AnchorCache

/-! ## The view -/

/-- `CCoinsViewCache`. -/
structure CoinsView where
  cacheCoins : Std.ExtTreeMap Uint256 CCoins := ∅
  sproutNullifiers : Std.ExtTreeSet Uint256 := ∅
  saplingNullifiers : Std.ExtTreeSet Uint256 := ∅
  sproutAnchors : AnchorCache
  saplingAnchors : AnchorCache
  hashBlock : Uint256
deriving DecidableEq

namespace CoinsView

/-- The view after the genesis block: `ConnectBlock` only sets the best block. -/
def init (roots : TreeRoots) (hashBlock : Uint256) : CoinsView where
  sproutAnchors := { best := roots.sprout [] }
  saplingAnchors := { best := roots.sapling [] }
  hashBlock := hashBlock

/-- The unspent output at an outpoint, if there is one (`GetCoins` followed by the
    range and null tests). -/
def unspent (v : CoinsView) (o : COutPoint) : Option CTxOut :=
  match v.cacheCoins[o.hash]? with
  | some coins =>
    match coins.vout[o.n]? with
    | some out => if out.isNull then none else some out
    | none => none
  | none => none

def haveInputs (v : CoinsView) (tx : CTransaction) : Bool :=
  tx.isCoinBase || tx.vin.all fun txin => (v.unspent txin.prevout).isSome

/-- The joinsplits of `HaveShieldedRequirements`, with their intermediate trees. -/
def haveSproutRequirements (roots : TreeRoots) (v : CoinsView) :
    Std.ExtTreeMap Uint256 MerkleTree → List JSDescription → Bool
  | _, [] => true
  | intermediates, joinsplit :: rest =>
    !(joinsplit.nullifiers.toList.any fun nf => v.sproutNullifiers.contains nf) &&
    match intermediates[joinsplit.anchor]?.or
        (v.sproutAnchors.getAnchorAt roots.sprout joinsplit.anchor) with
    | some tree =>
      haveSproutRequirements roots v
        (intermediates.insertIfNew (roots.sprout (tree ++ joinsplit.commitments.toList))
          (tree ++ joinsplit.commitments.toList)) rest
    | none => false

def haveShieldedRequirements (roots : TreeRoots) (v : CoinsView) (tx : CTransaction) : Bool :=
  v.haveSproutRequirements roots ∅ tx.vJoinSplit &&
    tx.vShieldedSpend.all fun spend =>
      !v.saplingNullifiers.contains spend.nullifier &&
        (v.saplingAnchors.getAnchorAt roots.sapling spend.anchor).isSome

/-- The spent output in `UpdateCoins`. -/
def spendInput (v : CoinsView) (o : COutPoint) : CoinsView :=
  { v with cacheCoins := v.cacheCoins.modify o.hash (·.spend o.n) }

/-- The part of `UpdateCoins` that marks the inputs spent. -/
def spendInputs (v : CoinsView) (tx : CTransaction) : CoinsView :=
  if tx.isCoinBase then v else (tx.vin.map CTxIn.prevout).foldl spendInput v

/-- The undo data of a spent output; the record of its transaction comes with the last one. -/
def inputUndo (v : CoinsView) (o : COutPoint) : CTxInUndo :=
  let coins := (v.cacheCoins[o.hash]?).getD {}
  let txout := coins.vout[o.n]?.getD {}
  if (coins.spend o.n).vout.isEmpty then
    { txout, fCoinBase := coins.fCoinBase, nHeight := coins.nHeight, nVersion := coins.nVersion }
  else { txout }

/-- The undo information of outputs that are spent one after the other. -/
def inputsUndo (v : CoinsView) : List COutPoint → CTxUndo
  | [] => []
  | o :: rest => v.inputUndo o :: (v.spendInput o).inputsUndo rest

/-- The undo information that `UpdateCoins` constructs. -/
def txUndo (v : CoinsView) (tx : CTransaction) : CTxUndo :=
  if tx.isCoinBase then [] else v.inputsUndo (tx.vin.map CTxIn.prevout)

/-- The nullifiers that `SetNullifiers` sets. -/
def txSproutNullifiers (tx : CTransaction) : List Uint256 :=
  tx.vJoinSplit.flatMap fun joinsplit => joinsplit.nullifiers.toList
def txSaplingNullifiers (tx : CTransaction) : List Uint256 :=
  tx.vShieldedSpend.map SpendDescription.nullifier

def setNullifiers (v : CoinsView) (tx : CTransaction) (spent : Bool) : CoinsView :=
  let set (nullifiers : Std.ExtTreeSet Uint256) (nf : Uint256) :=
    if spent then nullifiers.insert nf else nullifiers.erase nf
  { v with
    sproutNullifiers := (txSproutNullifiers tx).foldl set v.sproutNullifiers
    saplingNullifiers := (txSaplingNullifiers tx).foldl set v.saplingNullifiers }

/-- `UpdateCoins`: spend the inputs and the nullifiers, and add the outputs. -/
def updateCoins (v : CoinsView) (txid : Uint256) (tx : CTransaction) (nHeight : Nat) :
    CoinsView :=
  let spent := (v.spendInputs tx).setNullifiers tx true
  { spent with cacheCoins := spent.cacheCoins.insert txid (.fromTx tx nHeight) }

/-- The BIP30 test of `ConnectBlock`: an unspent transaction with this id exists. -/
def overwrites (v : CoinsView) (txid : Uint256) : Bool :=
  match v.cacheCoins[txid]? with
  | some coins => !coins.isPruned
  | none => false

/-- `GetOutputFor`, for an output that is available. -/
def getOutputFor (v : CoinsView) (txin : CTxIn) : CTxOut := (v.unspent txin.prevout).getD {}

def getValueIn (v : CoinsView) (tx : CTransaction) : CAmount :=
  if tx.isCoinBase then 0
  else if tx.isFluxnodeTx then 0
  else
    addInt64 (tx.vin.foldl (fun nResult txin => addInt64 nResult (v.getOutputFor txin).nValue) 0)
      tx.getShieldedValueIn

end CoinsView

end CloudService
