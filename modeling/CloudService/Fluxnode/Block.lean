/-
  The checks of fluxnode transactions, the local cache and the undo data of `ConnectBlock`,
  and the local cache of `DisconnectBlock` (`main.cpp`, `coins.cpp`, `csnode/csnode.cpp`).
-/

import CloudService.Chain.ConnectBlock
import CloudService.Fluxnode.Flush
import CloudService.Library.Pointwise

namespace CloudService

def FLUXNODE_MIN_CONFIRMATION_DETERMINISTIC : Nat := 100

def getFluxnodeExpirationCount (env : FluxnodeEnv) (nHeight : Nat) : Nat :=
  if upgradeActive env.network.halvingHeight nHeight then 160
  else if upgradeActive env.network.fluxHeight nHeight then 80
  else 60

namespace CTransaction

variable (tx : CTransaction)

/-- The three fluxnode transactions. -/
def isFluxnodeStart : Bool :=
  tx.isFluxnodeTx && tx.nType == FLUXNODE_START_TX_TYPE
def isInitialConfirm : Bool :=
  tx.isFluxnodeTx && tx.nType == FLUXNODE_CONFIRM_TX_TYPE && tx.nUpdateType == INITIAL_CONFIRM
def isUpdateConfirm : Bool :=
  tx.isFluxnodeTx && tx.nType == FLUXNODE_CONFIRM_TX_TYPE && tx.nUpdateType == UPDATE_CONFIRM

/-- `IsFluxnodeUpgradeTx`, `IsFluxnodeUpgradedNormalTx` and `IsFluxnodeUpgradedP2SHTx`. -/
def isFluxnodeUpgradeTx : Bool :=
  tx.nVersion == FLUXNODE_TX_UPGRADEABLE_VERSION
def isFluxnodeUpgradedNormalTx : Bool :=
  tx.isFluxnodeUpgradeTx && tx.nFluxTxVersion == FLUXNODE_INTERNAL_NORMAL_TX_VERSION
def isFluxnodeUpgradedP2SHTx : Bool :=
  tx.isFluxnodeUpgradeTx && tx.nFluxTxVersion == FLUXNODE_INTERNAL_P2SH_TX_VERSION

end CTransaction

def isPayToPublicKeyHash (s : CScript) : Bool :=
  s.length == 25 && s.take 3 == [0x76, 0xa9, 0x14] && s.drop 23 == [0x88, 0xac]

def isPayToScriptHash (s : CScript) : Bool :=
  s.length == 23 && s.take 2 == [0xa9, 0x14] && s.drop 22 == [0x87]

/-- `COutPoint::ToString`, with the first ten digits of the hash. -/
def COutPoint.toString (o : COutPoint) : String :=
  "COutPoint(" ++ String.ofList (o.hash.getHex.toList.take 10) ++ ", " ++ o.n.repr ++ ")"

/-- The message that a CONFIRM is signed over. -/
def confirmMessage (tx : CTransaction) : String :=
  tx.collateralIn.toString ++ tx.collateralIn.n.repr ++ tx.nUpdateType.repr ++ tx.sigTime.repr

section Checks

variable (env : FluxnodeEnv) (g : FluxnodeCache) (nHeight : Nat)

/-! ## Checks against the state before the block -/

/-- The loop of `CheckBlock` over the fluxnode transactions: one for each collateral. -/
def checkFluxnodeTxOuts (block : CBlock) : Checked Unit :=
  rejectIf (!decide (((block.vtx.drop 1).filter (·.isFluxnodeTx)).map (·.collateralIn)).Nodup)
    (dos 100 "bad-fluxnode-tx-multiple")

/-- The output that a START names pays to the key or the redeem script of the START. -/
def checkStartDestination (tx : CTransaction) (script : CScript) : Checked Unit :=
  match env.extractDestination script with
  | none => .error (dos 100 "fluxnode-tx-failed-to-extract-destination")
  | some destination => do
    rejectIf (tx.isFluxnodeUpgradedNormalTx && !isPayToPublicKeyHash script)
      (dos 100 "fluxnode-tx-normal-version-not-p2pkh-script")
    rejectIf (tx.isFluxnodeUpgradedP2SHTx && !isPayToScriptHash script)
      (dos 100 "fluxnode-tx-p2sh-version-not-p2sh-script")
    if isPayToScriptHash script then
      if tx.isFluxnodeUpgradedP2SHTx then
        rejectIf (env.encodeDestination destination !=
            env.encodeDestination (.scriptID (env.scriptID tx.P2SHRedeemScript)))
          (dos 100 "fluxnode-tx-p2shnodes-destinations-didn't-match")
      else
        rejectIf (tx.collateralPubkey != env.p2shPublicKey)
          (dos 100 "fluxnode-tx-p2sh-publickeys-didn't-match")
    else
      rejectIf (env.encodeDestination destination !=
          env.encodeDestination (.keyID (env.getID tx.collateralPubkey)))
        (dos 100 "fluxnode-tx-destinations-didn't-match")

/-- The START branch of `ContextualCheckTransaction`. The coins are those of the tip. -/
def checkStart (coins : CoinsView) (tx : CTransaction) : Checked Unit := do
  rejectIf (!g.checkNewStartTx tx.collateralIn)
    (dos 100 "fluxnode-tx-already-in-chain-or-waiting-for-dos-unban")
  rejectIf (g.checkIfConfirmed tx.collateralIn) (dos 100 "fluxnode-tx-already-in-confirm-chain")
  rejectIf (!coins.cacheCoins.contains tx.collateralIn.hash) (dos 100 "fluxnode-tx-coins-not-found")
  match coins.unspent tx.collateralIn with
  | none => .error (dos 100 "fluxnode-tx-coins-not-available")
  | some out => checkStartDestination env tx out.scriptPubKey

/-- The CONFIRM branch of `ContextualCheckTransaction`. -/
def checkConfirm (tx : CTransaction) : Checked Unit :=
  match g.getFluxnodeData tx.collateralIn with
  | none => .error (dos 0 "")
  | some data => do
    rejectIf (decide (tx.benchmarkTier < data.nTier.code))
      (dos 100 "fluxnode-tx-benchmark-tier-to-low-for-collateral")
    rejectIf (!env.verifyMessage data.pubKey tx.sig (confirmMessage tx)) (dos 0 "")
    if tx.nUpdateType = INITIAL_CONFIRM then
      rejectIf (!g.checkIfStarted tx.collateralIn)
        (dos 100 "fluxnode-tx-invalid-confirm-outpoint-not-started")
    else if tx.nUpdateType = UPDATE_CONFIRM then
      rejectIf (!g.checkIfConfirmed tx.collateralIn)
        (dos 100 "fluxnode-tx-invalid-update-confirm-outpoint-not-confirmed")
      rejectIf (!g.checkUpdateHeight env tx nHeight)
        (dos 100 "fluxnode-tx-invalid-update-confirm-outpoint-not-confirmed-or-too-soon")
    else .error (dos 100 "fluxnode-tx-malicious-update-type")

/-- The fluxnode part of `ContextualCheckTransaction` for a transaction of a block. -/
def contextualCheckFluxnodeTx (coins : CoinsView) (tx : CTransaction) : Checked Unit :=
  if tx.isFluxnodeTx then do
    rejectIf (!upgradeActive env.network.kamataHeight nHeight) (dos 100 "tx-fluxnodes-not-active")
    rejectIf (tx.isFluxnodeUpgradeTx && !upgradeActive env.network.p2shNodesHeight nHeight)
      (dos 100 "tx-p2shnodes-not-active")
    if tx.nType = FLUXNODE_START_TX_TYPE then checkStart env g coins tx
    else if tx.nType = FLUXNODE_CONFIRM_TX_TYPE then checkConfirm env g nHeight tx
    else .error (dos 100 "fluxnode-tx-malicious-type")
  else .ok ()

/-! ## The loop of ConnectBlock -/

/-- The rejection of `ConnectBlock` for the error that `CheckFluxnodeTxInput` names. -/
def inputReject (errorMessage : String) : Reject :=
  dos 100 ("bad-txns-fluxnode-tx-inputs-missingorspent-" ++ errorMessage)

/-- `CheckFluxnodeTxInput`: the tier and the amount of the collateral. -/
def checkFluxnodeTxInput (view : CoinsView) (tx : CTransaction) : Checked (Tier × CAmount) :=
  match view.unspent tx.collateralIn with
  | none => .error (inputReject "Coins not available")
  | some out => do
    rejectIf (decide (nHeight < ((view.cacheCoins[tx.collateralIn.hash]?).getD {}).nHeight +
          FLUXNODE_MIN_CONFIRMATION_DETERMINISTIC))
      (inputReject "Minimum height requirement not met")
    match getCoinTierFromAmount out.nValue with
    | none => .error (inputReject "Couldn't get coin tier from amount")
    | some tier => do
      rejectIf (env.isAP2SHFluxNodePublicKey tx.collateralPubkey &&
          !upgradeActive env.network.halvingHeight nHeight)
        (inputReject "Using P2SH collateral key before it is active")
      rejectIf (tx.isFluxnodeUpgradeTx && !upgradeActive env.network.p2shNodesHeight nHeight)
        (inputReject "Using P2SH nodes before it is active")
      rejectIf (upgradeActive env.network.p2shNodesHeight nHeight &&
          env.isAP2SHFluxNodePublicKey tx.collateralPubkey)
        (inputReject ("Old Style P2SH Nodes is no longer available. " ++
          "Please use new transaction version 6 style."))
      return (tier, out.nValue)

/-- The record that `AddNewStart` makes. -/
def newStart (tx : CTransaction) (tier : Tier) (nCollateral : CAmount) : FluxnodeCacheData :=
  { collateralIn := tx.collateralIn
    collateralPubkey := tx.collateralPubkey
    pubKey := tx.pubKey
    nAddedBlockHeight := nHeight
    ip := tx.ip
    nTier := tier
    nFluxTxVersion := if tx.isFluxnodeUpgradeTx then tx.nFluxTxVersion else 0
    P2SHRedeemScript := if tx.isFluxnodeUpgradeTx then tx.P2SHRedeemScript else []
    nStatus := .started
    nCollateral := nCollateral }

/-- The variables of the loop that the fluxnode code reads and writes. -/
structure FluxnodeLoop where
  view : CoinsView
  fluxnodeCache : LocalFluxnodeCache
  fluxnodeTxBlockUndo : CFluxnodeTxBlockUndo := {}
  setSpentOutPoints : Std.ExtTreeSet COutPoint := ∅

/-- The branch of the loop for a fluxnode transaction. -/
def connectFluxnodeTx (st : FluxnodeLoop) (tx : CTransaction) : Checked FluxnodeLoop := do
  let (tier, nCollateral) ← checkFluxnodeTxInput env nHeight st.view tx
  if tx.nType = FLUXNODE_START_TX_TYPE then
    rejectIf (!g.checkNewStartTx tx.collateralIn)
      (dos 100 "bad-txns-fluxnode-tx-check-new-start")
    return { st with
      fluxnodeCache := { st.fluxnodeCache with
        mapStartTxTracker := st.fluxnodeCache.mapStartTxTracker.insert tx.collateralIn
          (newStart nHeight tx tier nCollateral) } }
  else if tx.nType = FLUXNODE_CONFIRM_TX_TYPE then
    if tx.nUpdateType = INITIAL_CONFIRM then
      return { st with
        fluxnodeCache := { st.fluxnodeCache with
          mapAddToConfirm := st.fluxnodeCache.mapAddToConfirm.insert tx.collateralIn tx.ip
          setAddToConfirmHeight := nHeight } }
    else if tx.nUpdateType = UPDATE_CONFIRM then
      match g.getFluxnodeData tx.collateralIn with
      | none => .error (dos 100 "bad-txns-fluxnode-global-data-not-found")
      | some data => return { st with
          fluxnodeCache := { st.fluxnodeCache with
            mapAddToUpdateConfirm :=
              st.fluxnodeCache.mapAddToUpdateConfirm.insert tx.collateralIn tx.ip
            setAddToUpdateConfirmHeight := nHeight }
          fluxnodeTxBlockUndo := { st.fluxnodeTxBlockUndo with
            mapUpdateLastConfirmHeight :=
              st.fluxnodeTxBlockUndo.mapUpdateLastConfirmHeight.insert tx.collateralIn
                data.nLastConfirmedBlockHeight
            mapLastIpAddress :=
              st.fluxnodeTxBlockUndo.mapLastIpAddress.insert tx.collateralIn data.ip } }
    else return st
  else return st

def connectFluxnodeBranch (st : FluxnodeLoop) (tx : CTransaction) : Checked FluxnodeLoop :=
  if tx.isCoinBase then .ok st
  else if tx.isFluxnodeTx then connectFluxnodeTx env g nHeight st tx
  else .ok { st with
    setSpentOutPoints := tx.vin.foldl (fun s txin => s.insert txin.prevout) st.setSpentOutPoints }

def connectFluxnodeTurn (st : FluxnodeLoop) (tx : CTransaction) : Checked FluxnodeLoop := do
  let st ← connectFluxnodeBranch env g nHeight st tx
  return { st with view := st.view.updateCoins (env.getHash tx) tx nHeight }

/-! ## The end of ConnectBlock -/

/-- `GetUndoDataForExpiredFluxnodeDosScores`. -/
def expiredDosData : List FluxnodeCacheData :=
  (TreeMap.vals g.mapStartTxDOSTracker).filter fun d =>
    d.nAddedBlockHeight + FLUXNODE_DOS_REMOVE_AMOUNT == nHeight

/-- The collateral has no valid amount, or the node was not confirmed again in time. -/
def confirmExpires (updated : Std.ExtTreeMap COutPoint Nat) (out : COutPoint)
    (d : FluxnodeCacheData) : Bool :=
  (getCoinTierFromAmount d.nCollateral).isNone || (!updated.contains out &&
    decide (d.nLastConfirmedBlockHeight + getFluxnodeExpirationCount env nHeight < nHeight))

/-- `GetUndoDataForExpiredConfirmFluxnodes`. A node can be there twice. -/
def expiredConfirmedData (updated : Std.ExtTreeMap COutPoint Nat)
    (setSpentOuts : Std.ExtTreeSet COutPoint) : List FluxnodeCacheData :=
  (g.mapConfirmedFluxnodeData.toList.filter fun item =>
      confirmExpires env nHeight updated item.1 item.2).map Prod.snd ++
    setSpentOuts.toList.filterMap fun out => g.mapConfirmedFluxnodeData[out]?

/-- `GetUndoDataForPaidFluxnodes`. -/
def lastPaidHeights (mapPaidNodes : Tier → Option (Nat × COutPoint)) :
    Std.ExtTreeMap COutPoint Nat :=
  Tier.all.foldl (fun m tier =>
    match mapPaidNodes tier with
    | none => m
    | some (_, out) =>
      match g.mapConfirmedFluxnodeData[out]? with
      | none => m
      | some data => m.insert out data.nLastPaidHeight) ∅

/-- `CheckForExpiredStartTx`: the starts that go to the DoS tracker. -/
def expiredStarts (mapAddToConfirm : Std.ExtTreeMap COutPoint String) :
    Std.ExtTreeMap COutPoint FluxnodeCacheData :=
  g.mapStartTxTracker.toList.foldl (fun m item =>
    if item.2.nAddedBlockHeight + FLUXNODE_START_TX_EXPIRATION_HEIGHT = nHeight ∧
        mapAddToConfirm.contains item.1 = false then
      m.insert item.1 { item.2 with nStatus := .dosProtection } else m) ∅

/-- The outpoints of records, as `AddExpiredDosTx` and `AddExpiredConfirmTx` collect them. -/
def outPoints (data : List FluxnodeCacheData) : Std.ExtTreeSet COutPoint :=
  data.foldl (fun s d => s.insert d.collateralIn) ∅

/-- What `ConnectBlock` collects after its loop. -/
def finishConnect (st : FluxnodeLoop) : LocalFluxnodeCache × CFluxnodeTxBlockUndo :=
  let updated := st.fluxnodeTxBlockUndo.mapUpdateLastConfirmHeight
  let expiredDos := expiredDosData g nHeight
  let expired := expiredConfirmedData env g nHeight updated st.setSpentOutPoints
  ({ st.fluxnodeCache with
      mapDosExpiredToRemove := outPoints expiredDos
      setExpireConfirmOutPoints := outPoints expired
      mapStartTxDOSTracker := expiredStarts g nHeight st.fluxnodeCache.mapAddToConfirm },
    { st.fluxnodeTxBlockUndo with
      vecExpiredDosData := expiredDos
      vecExpiredConfirmedData := expired
      mapLastPaidHeights := lastPaidHeights g st.fluxnodeCache.mapPaidNodes })

/-- The fluxnode part of `ConnectBlock`, for the nodes that the coinbase pays. -/
def connectFluxnodes (mapPaidNodes : Tier → Option (Nat × COutPoint)) (coins : CoinsView)
    (block : CBlock) : Checked (LocalFluxnodeCache × CFluxnodeTxBlockUndo) := do
  let st ← block.vtx.foldlM (connectFluxnodeTurn env g nHeight)
    { view := coins, fluxnodeCache := { mapPaidNodes } }
  return finishConnect env g nHeight st

end Checks

section Disconnect

variable (g : FluxnodeCache) (nHeight : Nat)

/-- The insertion into a `std::set` of records: of two equivalent ones the first stays. -/
def insertRecord (s : List FluxnodeCacheData) (d : FluxnodeCacheData) : List FluxnodeCacheData :=
  if s.any (·.equivalent d) then s else s ++ [d]

/-- `AddBackUndoData` on update confirmations: the global records with old height and address. -/
def undoneUpdates (undo : CFluxnodeTxBlockUndo) : Std.ExtTreeMap COutPoint FluxnodeCacheData :=
  let heights := undo.mapUpdateLastConfirmHeight.toList.foldl (fun m item =>
    match g.mapConfirmedFluxnodeData[item.1]? with
    | some data => m.insert item.1 { data with nLastConfirmedBlockHeight := item.2 }
    | none => m) ∅
  undo.mapLastIpAddress.toList.foldl (fun m item =>
    match m[item.1]?.or g.mapConfirmedFluxnodeData[item.1]? with
    | some data => m.insert item.1 { data with ip := item.2 }
    | none => m) heights

/-- `CheckForUndoExpiredStartTx`: the nodes that go back to the start tracker. -/
def undoneExpiredStarts : Std.ExtTreeMap COutPoint FluxnodeCacheData :=
  g.mapStartTxDOSTracker.toList.foldl (fun m item =>
    if item.2.nAddedBlockHeight + FLUXNODE_START_TX_EXPIRATION_HEIGHT = nHeight then
      m.insert item.1 { item.2 with nStatus := .started } else m) ∅

/-- The outpoints of the transactions of one kind, collected from the last to the first. -/
def collaterals (p : CTransaction → Bool) (vtx : List CTransaction) : Std.ExtTreeSet COutPoint :=
  (vtx.reverse.filter p).foldl (fun s tx => s.insert tx.collateralIn) ∅

/-- The fluxnode part of `DisconnectBlock`. -/
def disconnectFluxnodes (block : CBlock) (undo : CFluxnodeTxBlockUndo) : LocalFluxnodeCache where
  mapStartTxDOSTracker := undo.vecExpiredDosData.foldl (fun m d => m.insert d.collateralIn d) ∅
  mapConfirmedFluxnodeData := undoneUpdates g undo
  setUndoExpireConfirm := undo.vecExpiredConfirmedData.foldl insertRecord []
  mapUndoPaidNodes := undo.mapLastPaidHeights
  mapStartTxTracker := undoneExpiredStarts g nHeight
  mapDOSToUndo := (undoneExpiredStarts g nHeight).keys.foldl (fun s out => s.insert out) ∅
  setUndoStartTx := collaterals (·.isFluxnodeStart) block.vtx
  setUndoAddToConfirm := collaterals (·.isInitialConfirm) block.vtx

end Disconnect

section Lookup

open Pointwise

variable {g : FluxnodeCache} {undo : CFluxnodeTxBlockUndo} {o : COutPoint}

theorem getElem?_lastPaidHeights (mapPaidNodes : Tier → Option (Nat × COutPoint)) :
    (lastPaidHeights g mapPaidNodes)[o]? =
      if Tier.all.any fun tier => (mapPaidNodes tier).any (·.2 == o) then
        g.mapConfirmedFluxnodeData[o]?.map (·.nLastPaidHeight)
      else none := by
  have hLoop : ∀ (tiers : List Tier) (m : Std.ExtTreeMap COutPoint Nat),
      (tiers.foldl (fun m tier =>
        match mapPaidNodes tier with
        | none => m
        | some (_, out) =>
          match g.mapConfirmedFluxnodeData[out]? with
          | none => m
          | some data => m.insert out data.nLastPaidHeight) m)[o]? =
      if tiers.any fun tier => (mapPaidNodes tier).any (·.2 == o) then
        (g.mapConfirmedFluxnodeData[o]?.map (·.nLastPaidHeight)).or m[o]?
      else m[o]? := by
    intro tiers
    induction tiers with
    | nil => simp
    | cons tier tiers ih =>
      intro m
      rw [List.foldl_cons, ih, List.any_cons]
      cases hPaid : mapPaidNodes tier with
      | none => simp
      | some i =>
        obtain ⟨nHeight, out⟩ := i
        by_cases hKey : out = o
        · subst hKey
          cases hGet : g.mapConfirmedFluxnodeData[out]? <;> simp [hGet]
        · cases hGet : g.mapConfirmedFluxnodeData[out]? <;> simp [hGet, hKey]
  refine (hLoop Tier.all ∅).trans ?_
  simp

theorem getElem?_undoneUpdates (o : COutPoint) :
    (undoneUpdates g undo)[o]? = let height := undo.mapUpdateLastConfirmHeight[o]?.bind fun n =>
        g.mapConfirmedFluxnodeData[o]?.map ({ · with nLastConfirmedBlockHeight := n })
      undo.mapLastIpAddress[o]?.elim height fun ip =>
        (height.or g.mapConfirmedFluxnodeData[o]?).map ({ · with ip }) := by
  have hHeights : LocalTurn (fun _ => True)
      (fun (m : Std.ExtTreeMap COutPoint FluxnodeCacheData) a => m[a]?) Prod.fst
      (fun i old => (g.mapConfirmedFluxnodeData[i.1]?.map
        ({ · with nLastConfirmedBlockHeight := i.2 })).or old)
      fun m (item : COutPoint × Nat) =>
        match g.mapConfirmedFluxnodeData[item.1]? with
        | some data => m.insert item.1 { data with nLastConfirmedBlockHeight := item.2 }
        | none => m :=
    { keeps := fun _ _ _ => trivial
      get_turn := fun m i a _ => by
        cases hGet : g.mapConfirmedFluxnodeData[i.1]? <;> simp }
  have hIps : LocalTurn (fun _ => True)
      (fun (m : Std.ExtTreeMap COutPoint FluxnodeCacheData) a => m[a]?) Prod.fst
      (fun i old => ((old.or g.mapConfirmedFluxnodeData[i.1]?).map ({ · with ip := i.2 })).or old)
      fun m (item : COutPoint × String) =>
        match m[item.1]?.or g.mapConfirmedFluxnodeData[item.1]? with
        | some data => m.insert item.1 { data with ip := item.2 }
        | none => m :=
    { keeps := fun _ _ _ => trivial
      get_turn := fun m i a _ => by
        by_cases hKey : i.1 = a
        · subst hKey
          cases hGet : m[i.1]?.or g.mapConfirmedFluxnodeData[i.1]? with
          | none =>
            rw [if_pos rfl, Option.map_none, Option.none_or]
          | some d => simp
        · cases hGet : m[i.1]?.or g.mapConfirmedFluxnodeData[i.1]? <;> simp [hKey] }
  have hFirst := hHeights.get_foldl_map (s := ∅) undo.mapUpdateLastConfirmHeight trivial o
  refine (hIps.get_foldl_map _ trivial o).trans ?_
  refine (congrArg (fun first => undo.mapLastIpAddress[o]?.elim first fun ip =>
    ((first.or g.mapConfirmedFluxnodeData[o]?).map ({ · with ip })).or first) hFirst).trans ?_
  cases undo.mapUpdateLastConfirmHeight[o]? <;> cases undo.mapLastIpAddress[o]? <;>
    cases hGet : g.mapConfirmedFluxnodeData[o]? <;> simp [hGet]

end Lookup

end CloudService
