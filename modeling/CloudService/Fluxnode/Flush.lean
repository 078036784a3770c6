/-
  `FluxnodeCache::Flush` (`csnode/csnode.cpp`). Each loop of the source is a fold of the
  function for one item. The branches that report "This should never happen" are recorded.
-/

import CloudService.Fluxnode.Cache

namespace CloudService

/-- The branches of `Flush` that report "This should never happen". -/
inductive FlushError where
  /-- When moving from start map to confirm map. -/
  | startNotFound (out : COutPoint)
  /-- When moving from confirm map to start map. -/
  | confirmNotFound (out : COutPoint)
  /-- When updating a fluxnode from the confirm map. -/
  | updateNotFound (out : COutPoint)
  /-- When expiring a fluxnode from the confirm map. -/
  | expireNotFound (out : COutPoint)
  /-- When checking the list of a paid node. -/
  | paidNotFirst (out : COutPoint)
  /-- When adding a paid node. -/
  | paidNotListed (out : COutPoint)
  /-- When undoing a paid node: the back most item in the list isn't the correct outpoint. -/
  | undoPaidNotListed (out : COutPoint)
  /-- When undoing a paid node: data not found. -/
  | undoPaidNotFound (out : COutPoint)
deriving Repr, DecidableEq

/-- The global cache and the local variables of `Flush`. -/
structure FlushState where
  cache : FluxnodeCache
  setRemoveFromList : Std.ExtTreeSet COutPoint := ∅
  vecNodesToAdd : List FluxnodeCacheData := []
  removedTiers : List Tier := []
  undoExpiredTiers : List Tier := []
  errors : List FlushError := []

namespace FlushState

variable (s : FlushState)

/-- The state after one of the branches that report an error. -/
def report (e : FlushError) : FlushState := { s with errors := s.errors ++ [e] }

def addStart (item : COutPoint × FluxnodeCacheData) : FlushState :=
  { s with
    cache := { s.cache with
      mapStartTxTracker := s.cache.mapStartTxTracker.insert item.1 item.2 } }

/-- A start that was not confirmed in time. -/
def addDos (item : COutPoint × FluxnodeCacheData) : FlushState :=
  { s with
    cache := { s.cache with
      mapStartTxDOSTracker := s.cache.mapStartTxDOSTracker.insert item.1 item.2
      mapStartTxTracker := s.cache.mapStartTxTracker.erase item.1 } }

/-- A node that was on the DoS list for long enough, or was put there by the undone block. -/
def removeDos (out : COutPoint) : FlushState :=
  { s with
    cache := { s.cache with
      mapStartTxDOSTracker := s.cache.mapStartTxDOSTracker.erase out } }

/-- The undo of an update confirmation. The item is a changed copy of an entry of the global
    map. -/
def undoUpdate (item : COutPoint × FluxnodeCacheData) : FlushState :=
  { s with
    cache := { s.cache with
      mapConfirmedFluxnodeData := s.cache.mapConfirmedFluxnodeData.modify item.1
        (·.update item.2.nLastConfirmedBlockHeight item.2.ip) } }

/-- The undo of an expiry. A node that is still in its list keeps its entry. -/
def undoExpire (item : FluxnodeCacheData) : FlushState :=
  let cache := { s.cache with
    mapConfirmedFluxnodeData := s.cache.mapConfirmedFluxnodeData.insert item.collateralIn item }
  if s.cache.checkListHas item then { s with cache }
  else { s with
    cache
    vecNodesToAdd := s.vecNodesToAdd ++ [item]
    undoExpiredTiers := item.nTier :: s.undoExpiredTiers }

def undoStart (out : COutPoint) : FlushState :=
  { s with
    cache := { s.cache with mapStartTxTracker := s.cache.mapStartTxTracker.erase out } }

/-- A first confirmation. An entry of an earlier life of the node is removed from the list. -/
def addToConfirm (nHeight : Nat) (item : COutPoint × String) : FlushState :=
  match s.cache.mapStartTxTracker[item.1]? with
  | none => s.report (.startNotFound item.1)
  | some started =>
    let data := started.confirm nHeight item.2
    let s := { s with
      cache := { s.cache with
        mapStartTxTracker := s.cache.mapStartTxTracker.erase item.1
        mapConfirmedFluxnodeData :=
          s.cache.mapConfirmedFluxnodeData.insert data.collateralIn data }
      vecNodesToAdd := s.vecNodesToAdd ++ [data]
      undoExpiredTiers := data.nTier :: s.undoExpiredTiers }
    if s.cache.checkListHas data then
      { s with
        setRemoveFromList := s.setRemoveFromList.insert data.collateralIn
        removedTiers := data.nTier :: s.removedTiers }
    else s

/-- The undo of a first confirmation. -/
def undoAddToConfirm (out : COutPoint) : FlushState :=
  match s.cache.mapConfirmedFluxnodeData[out]? with
  | none => s.report (.confirmNotFound out)
  | some data =>
    { s with
      cache := { s.cache with
        mapConfirmedFluxnodeData := s.cache.mapConfirmedFluxnodeData.erase out
        mapStartTxTracker := s.cache.mapStartTxTracker.insert out data.unconfirm }
      setRemoveFromList := s.setRemoveFromList.insert data.collateralIn
      removedTiers := data.nTier :: s.removedTiers }

def addToUpdateConfirm (nHeight : Nat) (item : COutPoint × String) : FlushState :=
  match s.cache.mapConfirmedFluxnodeData[item.1]? with
  | none => s.report (.updateNotFound item.1)
  | some data =>
    { s with
      cache := { s.cache with
        mapConfirmedFluxnodeData :=
          s.cache.mapConfirmedFluxnodeData.insert item.1 (data.update nHeight item.2) } }

/-- A node that expires. It stays in the list and in the set. -/
def expireConfirm (out : COutPoint) : FlushState :=
  match s.cache.mapConfirmedFluxnodeData[out]? with
  | none => s.report (.expireNotFound out)
  | some _ =>
    { s with
      cache := { s.cache with
        mapConfirmedFluxnodeData := s.cache.mapConfirmedFluxnodeData.erase out } }

/-- A paid node goes from the front of its list to the back. A node that expired in the block is
    skipped. -/
def addPaid (tier : Tier) (nHeight : Nat) (out : COutPoint) : FlushState :=
  match s.cache.mapConfirmedFluxnodeData[out]? with
  | none => s
  | some data =>
    let data := data.withPaid nHeight
    let s := { s with
      cache := { s.cache with
        mapConfirmedFluxnodeData := s.cache.mapConfirmedFluxnodeData.insert out data } }
    let l := s.cache.mapFluxnodeList tier
    if l.setConfirmedTxInList.contains out then
      match l.listConfirmedFluxnodes with
      | first :: rest =>
        if first.out = out then
          { s with
            cache := s.cache.setList tier
              { l with listConfirmedFluxnodes := rest ++ [data.listData] } }
        else s.report (.paidNotFirst out)
      | [] => s.report (.paidNotFirst out)
    else s.report (.paidNotListed out)

def undoPaid (item : COutPoint × Nat) : FlushState :=
  match s.cache.mapConfirmedFluxnodeData[item.1]? with
  | none => s.report (.undoPaidNotFound item.1)
  | some data =>
    let s := { s with
      cache := { s.cache with
        mapConfirmedFluxnodeData :=
          s.cache.mapConfirmedFluxnodeData.insert item.1 (data.withPaid item.2) } }
    let l := s.cache.mapFluxnodeList data.nTier
    if l.setConfirmedTxInList.contains item.1 then
      match l.moveToFront item.1 item.2 with
      | some moved => { s with cache := s.cache.setList data.nTier moved }
      | none => s.report (.undoPaidNotListed item.1)
    else s.report (.undoPaidNotListed item.1)

end FlushState

namespace LocalFluxnodeCache

variable (l : LocalFluxnodeCache)

/-- The loops up to the undone starts. Their turns do not depend on each other. -/
def flushStarts (s : FlushState) : FlushState :=
  let s := l.mapStartTxTracker.toList.foldl FlushState.addStart s
  let s := l.mapStartTxDOSTracker.toList.foldl FlushState.addDos s
  let s := l.mapDosExpiredToRemove.toList.foldl FlushState.removeDos s
  let s := l.mapDOSToUndo.toList.foldl FlushState.removeDos s
  let s := l.mapConfirmedFluxnodeData.toList.foldl FlushState.undoUpdate s
  let s := l.setUndoExpireConfirm.foldl FlushState.undoExpire s
  l.setUndoStartTx.toList.foldl FlushState.undoStart s

/-- The loops over the confirmations and the expired nodes. They leave the lists alone. -/
def flushConfirms (s : FlushState) : FlushState :=
  let s := l.mapAddToConfirm.toList.foldl (·.addToConfirm l.setAddToConfirmHeight) s
  let s := l.setUndoAddToConfirm.toList.foldl FlushState.undoAddToConfirm s
  let s := l.mapAddToUpdateConfirm.toList.foldl
    (·.addToUpdateConfirm l.setAddToUpdateConfirmHeight) s
  l.setExpireConfirmOutPoints.toList.foldl FlushState.expireConfirm s

/-- The turn of the loop over `mapPaidNodes` for a tier. -/
def flushPaid (s : FlushState) (tier : Tier) : FlushState :=
  match l.mapPaidNodes tier with
  | some (nHeight, out) => s.addPaid tier nHeight out
  | none => s

/-- The end of `Flush`: removals from the lists, additions, and the sort of the lists that
    changed. -/
def flushLists (s : FlushState) (tier : Tier) : FluxnodeList :=
  let fl := s.cache.mapFluxnodeList tier
  let fl := if tier ∈ s.removedTiers then fl.eraseFromList s.setRemoveFromList else fl
  let fl := (s.vecNodesToAdd.filter fun d => d.nTier = tier).foldl FluxnodeList.insertIntoList fl
  if tier ∈ s.removedTiers ∨ tier ∈ s.undoExpiredTiers ∨ (l.mapPaidNodes tier).isSome then
    fl.sortList
  else fl

/-- `Flush`: the new global cache, and the errors reported on the way. -/
def flush (g : FluxnodeCache) : FluxnodeCache × List FlushError :=
  let s := l.flushConfirms (l.flushStarts { cache := g })
  let s := Tier.all.foldl l.flushPaid s
  let s := l.mapUndoPaidNodes.toList.foldl FlushState.undoPaid s
  ({ s.cache with mapFluxnodeList := l.flushLists s }, s.errors)

end LocalFluxnodeCache

end CloudService
