/-
  `ConnectBlock` (`main.cpp`): the checks, the loop over the transactions, the guard that
  undoes the OPoI changes of a rejected block, and the passes. The OPoI cache is global, so a
  rejected block returns one as well.
-/

import CloudService.Chain.FluxnodePayout
import CloudService.Consensus.CheckTransaction
import CloudService.OPoI.Check
import CloudService.OPoI.Passes

namespace CloudService

/-- Why a block is rejected: a modelled check, or one of the others. -/
inductive BlockReject where
  | opoi (reject : Reject)
  | other
deriving Repr, DecidableEq

/-- Lift a check of the OPoI code to a check of the block. -/
def liftCheck (check : Checked Unit) : Except BlockReject Unit :=
  match check with
  | .ok () => .ok ()
  | .error r => .error (.opoi r)

/-- A check outside the modelled subsystem. -/
def requireOther (b : Bool) : Except BlockReject Unit := if b then .ok () else .error .other

/-- `fJustCheck` and `fIsVerifying`. -/
structure ConnectFlags where
  fJustCheck : Bool := false
  fIsVerifying : Bool := false
deriving Repr, DecidableEq

/-- The hashes of the active chain, the height of the block, and the coins before it. -/
structure ConnectContext where
  chainActive : List Uint256
  nHeight : Nat
  view : CoinsView

/-- The variables of the transaction loop of `ConnectBlock`. -/
structure LoopState where
  i : Nat := 0
  cache : OPoICache
  view : CoinsView
  vAppliedOPoITxs : List CTransaction := []
  nFees : CAmount := 0
  vtxundo : List CTxUndo := []

section ConnectBlock

variable (env : Env) (flags : ConnectFlags) (ctx : ConnectContext) (block : CBlock)

/-! ## Checks before the loop -/

/-- One transaction in `CheckBlock` and `ContextualCheckBlock`, with the cache before the block. -/
def checkBlockTx (c : OPoICache) (tx : CTransaction) : Except BlockReject Unit := do
  requireOther (env.checkTransactionOther ctx.nHeight tx)
  liftCheck (checkTransactionKind tx)
  liftCheck (checkOPoITransaction env flags.fIsVerifying ctx.chainActive c tx)
  liftCheck (checkTransactionValues tx)
  liftCheck (checkTransactionInputs tx)
  liftCheck (rejectIf (tx.isOPoITx && !env.params.opoiActive ctx.nHeight)
    (dos 100 "tx-opoi-not-active"))

/-- `CheckBlock` and `ContextualCheckBlock`. -/
def checkBlock (c : OPoICache) : Except BlockReject Unit :=
  match block.vtx with
  | [] => .error (.opoi (dos 100 "bad-blk-length"))
  | coinbase :: rest => do
    liftCheck (rejectIf (!coinbase.isCoinBase) (dos 100 "bad-cb-missing"))
    liftCheck (rejectIf (rest.any (·.isCoinBase)) (dos 100 "bad-cb-multiple"))
    (coinbase :: rest).forM (checkBlockTx env flags ctx c)

/-- The best anchors belong to trees of the view. -/
def checkAnchors (roots : TreeRoots) (view : CoinsView) : Checked Unit :=
  match view.sproutAnchors.getAnchorAt roots.sprout view.sproutAnchors.best with
  | none => .error (dos 100 "bad-sprout-anchor")
  | some sproutTree => do
    rejectIf (roots.sprout sproutTree != view.sproutAnchors.best) (dos 100 "bad-sprout-anchor-root")
    rejectIf (view.saplingAnchors.getAnchorAt roots.sapling view.saplingAnchors.best).isNone
      (dos 100 "bad-sapling-anchor")

/-- The checks of `ConnectBlock` before its loop. -/
def connectPreChecks (c : OPoICache) : Except BlockReject Unit := do
  checkBlock env flags ctx block c
  requireOther (env.connectPrologue ctx.nHeight block ctx.view)
  liftCheck (rejectIf (block.vtx.any fun tx => ctx.view.overwrites (env.getHash tx))
    (dos 100 "bad-txns-BIP30"))
  liftCheck (rejectIf (decide (env.startFluxnodePayments ≤ ctx.nHeight) &&
      !checkFluxnodePayout env ctx.chainActive ctx.nHeight (block.vtx.headD {}))
    (dos 1 "bad-txns-not-paying-correct-fluxnodes"))
  if env.params.opoiActive ctx.nHeight then
    liftCheck (checkOPoIBlockCaps env.params block.vtx)
  if !flags.fIsVerifying && env.params.opoiActive ctx.nHeight then
    liftCheck (checkOPoIPayments env c block.vtx ctx.chainActive ctx.nHeight)
    liftCheck (checkOPoIChallengerRewards env c block.vtx)
  liftCheck (checkAnchors env.roots ctx.view)

/-! ## One turn of the loop -/

/-- The checks of one turn before `ProcessOPoITransaction`. -/
def connectTxBefore (st : LoopState) (tx : CTransaction) : Except BlockReject Unit := do
  liftCheck (rejectIf (!st.view.haveInputs tx) (dos 100 "bad-txns-inputs-missingorspent"))
  liftCheck (rejectIf (!tx.isCoinBase && !flags.fIsVerifying &&
      env.params.opoiActive ctx.nHeight && tx.vin.any fun txin =>
        st.cache.isLockedUTXO txin.prevout) (dos 100 "bad-txns-spends-opoi-collateral"))
  requireOther (env.connectTxBefore ctx.nHeight block st.i ctx.view st.view)

/-- Whether this turn calls `ProcessOPoITransaction`. -/
def appliesOPoI (tx : CTransaction) : Bool :=
  !tx.isCoinBase && !flags.fJustCheck && !flags.fIsVerifying && tx.isOPoITx

/-- The call of `ProcessOPoITransaction`, recorded for the guard. -/
def connectTxApply (st : LoopState) (tx : CTransaction) : LoopState :=
  if appliesOPoI flags tx then
    { st with
      cache := processOPoITransaction env ctx.chainActive tx ctx.nHeight false st.cache
      vAppliedOPoITxs := st.vAppliedOPoITxs ++ [tx] }
  else st

/-- The output is unspent and large enough. Its script and the declared amount are not looked at. -/
def checkStakeCollateral (view : CoinsView) (tx : CTransaction) : Checked Unit :=
  match view.unspent tx.opoiCollateralIn with
  | none => .error (dos 100 "bad-txns-opoi-stake-no-utxo")
  | some out => rejectIf (decide (out.nValue < env.params.nOPoIMinStake))
      (dos 100 "bad-txns-opoi-stake-amount-too-low")

/-- The checks of one turn after `ProcessOPoITransaction`. -/
def connectTxAfter (st : LoopState) (tx : CTransaction) : Except BlockReject Unit := do
  liftCheck (rejectIf (!tx.isCoinBase && !st.view.haveShieldedRequirements env.roots tx)
    (dos 100 "bad-txns-joinsplit-requirements-not-met"))
  requireOther (env.connectTxRequirements ctx.nHeight block st.i ctx.view st.view)
  if !flags.fIsVerifying && !flags.fJustCheck && tx.isOPoI .stake &&
      env.params.opoiActive ctx.nHeight then
    liftCheck (checkStakeCollateral env st.view tx)
  if !tx.isCoinBase then
    liftCheck (checkTxInputs (env.coinbaseProtected ctx.nHeight) st.view ctx.nHeight tx env.roots)
  requireOther (env.connectTxInputs ctx.nHeight block st.i ctx.view st.view)

/-- One turn of the loop; a failure carries the state it happened in. -/
def connectTx (st : LoopState) (tx : CTransaction) : Except (BlockReject × LoopState) LoopState :=
  match connectTxBefore env flags ctx block st tx with
  | .error e => .error (e, st)
  | .ok () =>
    let applied := connectTxApply env flags ctx st tx
    match connectTxAfter env flags ctx block applied tx with
    | .error e => .error (e, applied)
    | .ok () => .ok
        { applied with
          i := applied.i + 1
          nFees := if tx.isCoinBase then applied.nFees
            else addInt64 applied.nFees (applied.view.getValueIn tx - tx.getValueOut)
          vtxundo := if applied.i = 0 then applied.vtxundo
            else applied.vtxundo ++ [applied.view.txUndo tx]
          view := applied.view.updateCoins (env.getHash tx) tx ctx.nHeight }

/-- `OPoIConnectGuard`: undo what was applied, in reverse order. -/
def opoiConnectGuard (st : LoopState) : OPoICache :=
  st.vAppliedOPoITxs.reverse.foldl
    (fun c tx => processOPoITransaction env ctx.chainActive tx ctx.nHeight true c) st.cache

/-! ## ConnectBlock -/

/-- What `ConnectBlock` leaves behind: its verdict, the cache, and the view if the
    block was accepted. -/
structure ConnectResult where
  verdict : Except BlockReject CoinsView
  cache : OPoICache

/-- The per-block transitions, run only on a real connect after activation. -/
def connectTransitions (c : OPoICache) : OPoICache :=
  if !flags.fIsVerifying && env.params.opoiActive ctx.nHeight then
    connectPasses env ctx.nHeight block.vtx c
  else c

def loopStart (c : OPoICache) : LoopState := { cache := c, view := ctx.view }

/-- The loop of `ConnectBlock`. -/
def connectLoop (c : OPoICache) : Except (BlockReject × LoopState) LoopState :=
  block.vtx.foldlM (connectTx env flags ctx block) (loopStart ctx c)

/-- The commitment trees with the commitments of the block appended. -/
def sproutTree : MerkleTree :=
  (ctx.view.sproutAnchors.getAnchorAt env.roots.sprout ctx.view.sproutAnchors.best).getD [] ++
    block.vtx.flatMap fun tx => tx.vJoinSplit.flatMap fun joinsplit => joinsplit.commitments.toList
def saplingTree : MerkleTree :=
  (ctx.view.saplingAnchors.getAnchorAt env.roots.sapling ctx.view.saplingAnchors.best).getD [] ++
    block.vtx.flatMap fun tx => tx.vShieldedOutput.map OutputDescription.cm

/-- The view with the anchors of the new trees. -/
def anchoredView (view : CoinsView) : CoinsView :=
  { view with
    sproutAnchors := view.sproutAnchors.pushAnchor env.roots.sprout (sproutTree env ctx block)
    saplingAnchors := view.saplingAnchors.pushAnchor env.roots.sapling (saplingTree env ctx block) }

/-- The view that a connected block leaves behind. -/
def connectedView (view : CoinsView) : CoinsView :=
  { anchoredView env ctx block view with hashBlock := block.hash }

/-- The checks of `ConnectBlock` after its loop. -/
def connectPostChecks (st : LoopState) : Except BlockReject Unit := do
  liftCheck (rejectIf (env.acadiaActive ctx.nHeight &&
    env.hashFinalSaplingRoot block.hash != env.roots.sapling (saplingTree env ctx block))
    (dos 100 "bad-sapling-root-in-block"))
  liftCheck (rejectIf (decide (2 < ctx.nHeight) && decide
    (addInt64 st.nFees (coinbaseAllowance env.chainParams ctx.nHeight) <
      (block.vtx.headD {}).getValueOut)) (dos 100 "bad-cb-amount"))
  requireOther (env.connectEpilogue ctx.nHeight block ctx.view st.view)

/-- The part of `ConnectBlock` after the loop. -/
def connectFinish (st : LoopState) : ConnectResult :=
  match connectPostChecks env ctx block st with
  | .error e => ⟨.error e, opoiConnectGuard env ctx st⟩
  | .ok () =>
    if flags.fJustCheck then
      ⟨.ok (anchoredView env ctx block st.view), opoiConnectGuard env ctx st⟩
    else
      ⟨.ok (connectedView env ctx block st.view), connectTransitions env flags ctx block st.cache⟩

/-- `ConnectBlock` for a block other than genesis. -/
def connectBlock (c : OPoICache) : ConnectResult :=
  match connectPreChecks env flags ctx block c with
  | .error e => ⟨.error e, c⟩
  | .ok () =>
    match connectLoop env flags ctx block c with
    | .error (e, st) => ⟨.error e, opoiConnectGuard env ctx st⟩
    | .ok st => connectFinish env flags ctx block st

end ConnectBlock

end CloudService
