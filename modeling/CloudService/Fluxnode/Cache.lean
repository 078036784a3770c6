/-
  `FluxnodeCache` (`csnode/csnode.h`, `csnode/csnode.cpp`): the trackers and the payment
  lists. An expired node leaves its tracker but not the list.
-/

import CloudService.Consensus.Params
import Mathlib.Data.List.Sort

namespace CloudService

/-- `FLUXNODE_START_TX_EXPIRATION_HEIGHT`: the blocks that a started node has to be
    confirmed in. -/
def FLUXNODE_START_TX_EXPIRATION_HEIGHT : Nat := 60

/-- `FLUXNODE_DOS_REMOVE_AMOUNT`: when a node leaves the DoS tracker, counted from its
    start. -/
def FLUXNODE_DOS_REMOVE_AMOUNT : Nat := 180

/-- `FLUXNODE_CONFIRM_UPDATE_MIN_HEIGHT_V1`, `_V2` and `_IP_CHANGE_V1`. -/
def FLUXNODE_CONFIRM_UPDATE_MIN_HEIGHT_V1 : Nat := 40
def FLUXNODE_CONFIRM_UPDATE_MIN_HEIGHT_V2 : Nat := 120
def FLUXNODE_CONFIRM_UPDATE_MIN_HEIGHT_IP_CHANGE_V1 : Nat := 5

/-- `FLUXNODE_INTERNAL_NORMAL_TX_VERSION` and `FLUXNODE_INTERNAL_P2SH_TX_VERSION`. -/
def FLUXNODE_INTERNAL_NORMAL_TX_VERSION : Int := 1
def FLUXNODE_INTERNAL_P2SH_TX_VERSION : Int := 2

namespace Tier

/-- The tiers from `PROTON` up to `LAST`. -/
def all : List Tier := [.proton, .eletron, .neutron, .foton]

/-- The value of the enumerator. -/
def code : Tier → Int
  | .proton => 1
  | .eletron => 2
  | .neutron => 3
  | .foton => 4

/-- `GetCoinAmountsByTier`: the collateral of a tier, the same at every height. -/
def collateral : Tier → CAmount
  | .proton => 10000 * COIN
  | .eletron => 25000 * COIN
  | .neutron => 100000 * COIN
  | .foton => 500000 * COIN

theorem mem_all (tier : Tier) : tier ∈ all := by
  cases tier <;> decide

end Tier

def getCoinTierFromAmount (nAmount : CAmount) : Option Tier :=
  Tier.all.find? fun tier => tier.collateral == nAmount

/-! ## Networks -/

/-- The networks of `chainparams.cpp`. -/
inductive Network where
  | main
  | test
  | regtest
deriving Repr, DecidableEq

/-- `NetworkUpgradeActive` for an activation height; `-1` is `NO_ACTIVATION_HEIGHT`. -/
def upgradeActive (nActivationHeight : Int) (nHeight : Nat) : Bool :=
  nActivationHeight != -1 && decide (nActivationHeight ≤ (nHeight : Int))

namespace Network

/-- The activation heights of the upgrades that the fluxnode code asks for. -/
def kamataHeight (_ : Network) : Int := 0
def fluxHeight (_ : Network) : Int := 0
def halvingHeight (_ : Network) : Int := -1
def p2shNodesHeight : Network → Int
  | .main => 0
  | .test => -1
  | .regtest => -1

end Network

/-- The environment of the fluxnode code. -/
structure FluxnodeEnv extends Env where
  network : Network
  /-- The one key of `GetP2SHFluxnodePublicKeys`. -/
  p2shPublicKey : CPubKey
  /-- `CScriptID`: the hash of a redeem script. -/
  scriptID : CScript → Bytes
  extractDestination : CScript → Option CTxDestination
  encodeDestination : CTxDestination → String
  /-- `obfuScationSigner.VerifyMessage`. -/
  verifyMessage : CPubKey → Bytes → String → Bool

def FluxnodeEnv.isAP2SHFluxNodePublicKey (env : FluxnodeEnv) (pubkey : CPubKey) : Bool :=
  pubkey == env.p2shPublicKey

/-! ## Records -/

/-- `nStatus`: `FLUXNODE_TX_STARTED`, `FLUXNODE_TX_DOS_PROTECTION` and
    `FLUXNODE_TX_CONFIRMED`. -/
inductive FluxnodeStatus where
  | started
  | dosProtection
  | confirmed
deriving Repr, DecidableEq

structure FluxnodeCacheData where
  collateralIn : COutPoint
  collateralPubkey : CPubKey
  pubKey : CPubKey
  nAddedBlockHeight : Nat
  nConfirmedBlockHeight : Nat := 0
  nLastConfirmedBlockHeight : Nat := 0
  nLastPaidHeight : Nat := 0
  ip : String
  nTier : Tier
  nFluxTxVersion : Int := 0
  P2SHRedeemScript : CScript := []
  nStatus : FluxnodeStatus
  nCollateral : CAmount
deriving Repr, DecidableEq

namespace FluxnodeCacheData

/-- The record of a started node that is confirmed. -/
def confirm (d : FluxnodeCacheData) (nHeight : Nat) (ip : String) : FluxnodeCacheData :=
  { d with
    nStatus := .confirmed
    nConfirmedBlockHeight := nHeight
    nLastConfirmedBlockHeight := nHeight
    nLastPaidHeight := 0
    ip := ip }

/-- The record of a confirmed node whose confirmation is undone. -/
def unconfirm (d : FluxnodeCacheData) : FluxnodeCacheData :=
  { d with
    nStatus := .started
    nConfirmedBlockHeight := 0
    nLastConfirmedBlockHeight := 0
    nLastPaidHeight := 0
    ip := "" }

def update (d : FluxnodeCacheData) (nHeight : Nat) (ip : String) : FluxnodeCacheData :=
  { d with nLastConfirmedBlockHeight := nHeight, ip := ip }

def withPaid (d : FluxnodeCacheData) (nHeight : Nat) : FluxnodeCacheData :=
  { d with nLastPaidHeight := nHeight }

section Updates

variable (d : FluxnodeCacheData) (n m : Nat) (ip ip' : String)

@[simp] theorem nLastPaidHeight_withPaid : (d.withPaid n).nLastPaidHeight = n := rfl

@[simp] theorem withPaid_withPaid : (d.withPaid n).withPaid m = d.withPaid m := rfl

@[simp] theorem withPaid_update : (d.update m ip).withPaid n = (d.withPaid n).update m ip := rfl

@[simp] theorem update_update : (d.update n ip).update m ip' = d.update m ip' := rfl

@[simp] theorem nLastConfirmedBlockHeight_withPaid :
    (d.withPaid n).nLastConfirmedBlockHeight = d.nLastConfirmedBlockHeight := rfl

@[simp] theorem nLastPaidHeight_update : (d.update n ip).nLastPaidHeight = d.nLastPaidHeight := rfl

@[simp] theorem ip_withPaid : (d.withPaid n).ip = d.ip := rfl

@[simp] theorem withPaid_update_self :
    (d.withPaid n).update d.nLastConfirmedBlockHeight d.ip = d.withPaid n := rfl

end Updates

/-- The height that `operator<` compares first. -/
def comparatorHeight (d : FluxnodeCacheData) : Nat :=
  if 0 < d.nLastPaidHeight then d.nLastPaidHeight else d.nConfirmedBlockHeight

/-- Neither record is less than the other in the order of `FluxnodeCacheData`. -/
def equivalent (a b : FluxnodeCacheData) : Bool :=
  a.comparatorHeight == b.comparatorHeight && a.collateralIn == b.collateralIn

end FluxnodeCacheData

/-- `operator<` of `COutPoint`: the bytes of the transaction id (`memcmp`), then the index. -/
def COutPoint.memCompare : COutPoint → COutPoint → Ordering :=
  compareLex (compareOn fun o => o.hash.bytes) (compareOn COutPoint.n)

/-- `FluxnodeListData`: what the payment list knows of a node. -/
structure FluxnodeListData where
  out : COutPoint
  nConfirmedBlockHeight : Nat
  nLastPaidHeight : Nat
deriving Repr, DecidableEq

/-- The list entry of a node. -/
def FluxnodeCacheData.listData (d : FluxnodeCacheData) : FluxnodeListData :=
  ⟨d.collateralIn, d.nConfirmedBlockHeight, d.nLastPaidHeight⟩

namespace FluxnodeListData

/-- The height that `operator<` compares first. -/
def comparatorHeight (e : FluxnodeListData) : Nat :=
  if 0 < e.nLastPaidHeight then e.nLastPaidHeight else e.nConfirmedBlockHeight

/-- `operator<`. At the same height, a node that was never paid comes first. -/
def lt (a b : FluxnodeListData) : Bool :=
  let outLess := decide (a.out.memCompare b.out = .lt)
  let less := decide (a.comparatorHeight < b.comparatorHeight)
  let equal := decide (a.comparatorHeight = b.comparatorHeight)
  if a.nLastPaidHeight ≠ 0 ∧ b.nLastPaidHeight ≠ 0 then less || (equal && outLess)
  else if a.nLastPaidHeight ≠ 0 then less
  else if b.nLastPaidHeight ≠ 0 then less || equal
  else less || (equal && outLess)

end FluxnodeListData

structure FluxnodeList where
  setConfirmedTxInList : Std.ExtTreeSet COutPoint := ∅
  listConfirmedFluxnodes : List FluxnodeListData := []

/-- `FluxnodeCache`, the members of the global cache. -/
structure FluxnodeCache where
  mapStartTxTracker : Std.ExtTreeMap COutPoint FluxnodeCacheData := ∅
  mapStartTxDOSTracker : Std.ExtTreeMap COutPoint FluxnodeCacheData := ∅
  mapConfirmedFluxnodeData : Std.ExtTreeMap COutPoint FluxnodeCacheData := ∅
  mapFluxnodeList : Tier → FluxnodeList := fun _ => {}

/-- `FluxnodeCache`, the local cache of one block. The two maps by height have one key and are sets
    here. -/
structure LocalFluxnodeCache where
  mapStartTxTracker : Std.ExtTreeMap COutPoint FluxnodeCacheData := ∅
  mapStartTxDOSTracker : Std.ExtTreeMap COutPoint FluxnodeCacheData := ∅
  mapConfirmedFluxnodeData : Std.ExtTreeMap COutPoint FluxnodeCacheData := ∅
  setUndoStartTx : Std.ExtTreeSet COutPoint := ∅
  mapDosExpiredToRemove : Std.ExtTreeSet COutPoint := ∅
  mapDOSToUndo : Std.ExtTreeSet COutPoint := ∅
  mapAddToConfirm : Std.ExtTreeMap COutPoint String := ∅
  setAddToConfirmHeight : Nat := 0
  setUndoAddToConfirm : Std.ExtTreeSet COutPoint := ∅
  mapAddToUpdateConfirm : Std.ExtTreeMap COutPoint String := ∅
  setAddToUpdateConfirmHeight : Nat := 0
  setExpireConfirmOutPoints : Std.ExtTreeSet COutPoint := ∅
  setUndoExpireConfirm : List FluxnodeCacheData := []
  mapPaidNodes : Tier → Option (Nat × COutPoint) := fun _ => none
  mapUndoPaidNodes : Std.ExtTreeMap COutPoint Nat := ∅

structure CFluxnodeTxBlockUndo where
  vecExpiredDosData : List FluxnodeCacheData := []
  vecExpiredConfirmedData : List FluxnodeCacheData := []
  mapUpdateLastConfirmHeight : Std.ExtTreeMap COutPoint Nat := ∅
  mapLastPaidHeights : Std.ExtTreeMap COutPoint Nat := ∅
  mapLastIpAddress : Std.ExtTreeMap COutPoint String := ∅

/-! ## The payment lists -/

namespace FluxnodeList

def sortList (l : FluxnodeList) : FluxnodeList :=
  { l with
    listConfirmedFluxnodes := l.listConfirmedFluxnodes.insertionSort fun a b => ¬ b.lt a }

def insertIntoList (l : FluxnodeList) (d : FluxnodeCacheData) : FluxnodeList where
  setConfirmedTxInList := l.setConfirmedTxInList.insert d.collateralIn
  listConfirmedFluxnodes := d.listData :: l.listConfirmedFluxnodes

def eraseFromList (l : FluxnodeList) (setToRemove : Std.ExtTreeSet COutPoint) : FluxnodeList where
  setConfirmedTxInList :=
    (l.listConfirmedFluxnodes.filter fun e => setToRemove.contains e.out).foldl
      (fun s e => s.erase e.out) l.setConfirmedTxInList
  listConfirmedFluxnodes := l.listConfirmedFluxnodes.filter fun e => !setToRemove.contains e.out

/-- The search of `Flush` for a node whose payment is undone, from the back and without the first
    entry. -/
def moveToFront (l : FluxnodeList) (out : COutPoint) (nLastPaidHeight : Nat) :
    Option FluxnodeList :=
  match l.listConfirmedFluxnodes with
  | [] => none
  | first :: rest =>
    (rest.reverse.find? fun e => e.out == out).map fun oldData =>
      { l with
        listConfirmedFluxnodes :=
          { oldData with nLastPaidHeight } :: first ::
            (rest.reverse.eraseP fun e => e.out == out).reverse }

/-- The loop of `GetNextPayment`: expired entries are dropped from the front. -/
def nextConfirmed (confirmed : COutPoint → Bool) : Nat → FluxnodeList → Option COutPoint ×
    FluxnodeList
  | 0, l => (none, l)
  | n + 1, l =>
    match l.listConfirmedFluxnodes with
    | [] => (none, l)
    | first :: rest =>
      if confirmed first.out then (some first.out, l)
      else nextConfirmed confirmed n ⟨l.setConfirmedTxInList.erase first.out, rest⟩

end FluxnodeList

namespace FluxnodeCache

variable (g : FluxnodeCache)

def setList (tier : Tier) (l : FluxnodeList) : FluxnodeCache :=
  { g with mapFluxnodeList := Function.update g.mapFluxnodeList tier l }

def checkListHas (d : FluxnodeCacheData) : Bool :=
  (g.mapFluxnodeList d.nTier).setConfirmedTxInList.contains d.collateralIn

def checkListSet (out : COutPoint) : Bool :=
  Tier.all.any fun tier => (g.mapFluxnodeList tier).setConfirmedTxInList.contains out

/-! ## Queries -/

def checkIfStarted (out : COutPoint) : Bool := g.mapStartTxTracker.contains out

def checkIfConfirmed (out : COutPoint) : Bool :=
  g.mapConfirmedFluxnodeData.contains out

def checkNewStartTx (out : COutPoint) : Bool :=
  !g.mapStartTxTracker.contains out && !g.mapStartTxDOSTracker.contains out

/-- `GetFluxnodeData`: the trackers are asked in this order. -/
def getFluxnodeData (out : COutPoint) : Option FluxnodeCacheData :=
  g.mapStartTxTracker[out]?.or (g.mapStartTxDOSTracker[out]?.or g.mapConfirmedFluxnodeData[out]?)

def checkConfirmationHeights (env : FluxnodeEnv) (g : FluxnodeCache) (nCurrentHeight : Nat)
    (out : COutPoint) (ip : String) : Bool :=
  if g.mapConfirmedFluxnodeData.contains out then
    match g.getFluxnodeData out with
    | none => false
    | some data =>
      if upgradeActive env.network.fluxHeight nCurrentHeight && ip != data.ip && decide
          (data.nLastConfirmedBlockHeight + FLUXNODE_CONFIRM_UPDATE_MIN_HEIGHT_IP_CHANGE_V1 ≤
            nCurrentHeight) then true
      else if upgradeActive env.network.halvingHeight nCurrentHeight then
        decide (data.nLastConfirmedBlockHeight + FLUXNODE_CONFIRM_UPDATE_MIN_HEIGHT_V2 <
          nCurrentHeight)
      else
        decide (data.nLastConfirmedBlockHeight + FLUXNODE_CONFIRM_UPDATE_MIN_HEIGHT_V1 <
          nCurrentHeight)
  else false

/-- `CheckUpdateHeight`, for a block. -/
def checkUpdateHeight (env : FluxnodeEnv) (g : FluxnodeCache) (tx : CTransaction)
    (nHeight : Nat) : Bool :=
  tx.isFluxnodeTx && tx.nUpdateType == UPDATE_CONFIRM && g.checkListSet tx.collateralIn &&
    g.checkConfirmationHeights env nHeight tx.collateralIn tx.ip

def getFluxNodeP2SHDestination (env : FluxnodeEnv) (coins : CoinsView) (out : COutPoint) :
    Option CTxDestination :=
  (coins.unspent out).bind fun txout => env.extractDestination txout.scriptPubKey

/-- Where the payment of a confirmed node goes. -/
def paymentDestination (env : FluxnodeEnv) (coins : CoinsView) (out : COutPoint)
    (data : FluxnodeCacheData) : Option CTxDestination :=
  if data.nFluxTxVersion = FLUXNODE_INTERNAL_P2SH_TX_VERSION then
    some (.scriptID (env.scriptID data.P2SHRedeemScript))
  else if env.isAP2SHFluxNodePublicKey data.collateralPubkey then
    getFluxNodeP2SHDestination env coins out
  else some (.keyID (env.getID data.collateralPubkey))

/-- The next payee of a tier, and the cache without the dropped entries. `none` is the answer
    `false`. -/
def getNextPayment (env : FluxnodeEnv) (coins : CoinsView) (g : FluxnodeCache) (tier : Tier) :
    Option (COutPoint × CTxDestination) × FluxnodeCache :=
  let l := g.mapFluxnodeList tier
  let result := l.nextConfirmed g.mapConfirmedFluxnodeData.contains l.setConfirmedTxInList.size
  let payment := result.1.bind fun out =>
    g.mapConfirmedFluxnodeData[out]?.bind fun data =>
      (paymentDestination env coins out data).map fun dest => (out, dest)
  (payment, g.setList tier result.2)

end FluxnodeCache

end CloudService
