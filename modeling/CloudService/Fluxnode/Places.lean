/-
  `Flush`, one collateral at a time: every loop changes the place of one collateral per turn,
  so `Flush` is a function of the place.
-/

import CloudService.Fluxnode.Flush
import CloudService.Library.Pointwise

namespace CloudService

open Pointwise

/-- What the three trackers have under a collateral. -/
@[ext] structure Place where
  started : Option FluxnodeCacheData := none
  dos : Option FluxnodeCacheData := none
  confirmed : Option FluxnodeCacheData := none
deriving DecidableEq

/-- What the three trackers hold for a collateral. -/
def FluxnodeCache.place (g : FluxnodeCache) (o : COutPoint) : Place where
  started := g.mapStartTxTracker[o]?
  dos := g.mapStartTxDOSTracker[o]?
  confirmed := g.mapConfirmedFluxnodeData[o]?

def RecordsKeyed (m : Std.ExtTreeMap COutPoint FluxnodeCacheData) : Prop :=
  ∀ (o : COutPoint) (d : FluxnodeCacheData), m[o]? = some d → d.collateralIn = o

namespace Place

variable (p : Place)

/-! ## The turns -/

/-- The turns of `Flush`, for the place of their collateral. -/
def addStart (d : FluxnodeCacheData) : Place := { p with started := some d }
def addDos (d : FluxnodeCacheData) : Place := { p with dos := some d, started := none }
def removeDos : Place := { p with dos := none }
def undoUpdate (d : FluxnodeCacheData) : Place :=
  { p with confirmed := p.confirmed.map (·.update d.nLastConfirmedBlockHeight d.ip) }
def undoExpire (d : FluxnodeCacheData) : Place := { p with confirmed := some d }
def undoStart : Place := { p with started := none }
def addToConfirm (nHeight : Nat) (ip : String) : Place :=
  p.started.elim p fun d => { p with started := none, confirmed := some (d.confirm nHeight ip) }
def undoAddToConfirm : Place :=
  p.confirmed.elim p fun d => { p with confirmed := none, started := some d.unconfirm }
def addToUpdateConfirm (nHeight : Nat) (ip : String) : Place :=
  { p with confirmed := p.confirmed.map (·.update nHeight ip) }
def expireConfirm : Place := { p with confirmed := none }
def withPaid (nHeight : Nat) : Place := { p with confirmed := p.confirmed.map (·.withPaid nHeight) }

end Place

namespace FlushState

def place (s : FlushState) (o : COutPoint) : Place := s.cache.place o

theorem localTurn_addStart : LocalTurn (fun _ => True) place Prod.fst (fun i p => p.addStart i.2)
    addStart where
  keeps _ _ _ := trivial
  get_turn s i a _ := by
    by_cases hKey : i.1 = a <;>
      simp [place, FluxnodeCache.place, addStart, Place.addStart, hKey]

theorem localTurn_addDos : LocalTurn (fun _ => True) place Prod.fst (fun i p => p.addDos i.2)
    addDos where
  keeps _ _ _ := trivial
  get_turn s i a _ := by
    by_cases hKey : i.1 = a <;> simp [place, FluxnodeCache.place, addDos, Place.addDos, hKey]

theorem localTurn_removeDos : LocalTurn (fun _ => True) place id (fun _ p => p.removeDos)
    removeDos where
  keeps _ _ _ := trivial
  get_turn s o a _ := by
    by_cases hKey : o = a <;> simp [place, FluxnodeCache.place, removeDos, Place.removeDos, hKey]

theorem localTurn_undoUpdate : LocalTurn (fun _ => True) place Prod.fst
    (fun i p => p.undoUpdate i.2) undoUpdate where
  keeps _ _ _ := trivial
  get_turn s i a _ := by
    by_cases hKey : i.1 = a <;>
      simp [place, FluxnodeCache.place, undoUpdate, Place.undoUpdate, hKey]

theorem localTurn_undoExpire : LocalTurn (fun _ => True) place (·.collateralIn)
    (fun d p => p.undoExpire d) undoExpire where
  keeps _ _ _ := trivial
  get_turn s d a _ := by
    simp only [undoExpire]
    split <;> by_cases hKey : d.collateralIn = a <;>
      simp [place, FluxnodeCache.place, Place.undoExpire, hKey]

theorem localTurn_undoStart : LocalTurn (fun _ => True) place id (fun _ p => p.undoStart)
    undoStart where
  keeps _ _ _ := trivial
  get_turn s o a _ := by
    by_cases hKey : o = a <;> simp [place, FluxnodeCache.place, undoStart, Place.undoStart, hKey]

theorem cache_addToConfirm (s : FlushState) (nHeight : Nat) (i : COutPoint × String) :
    (s.addToConfirm nHeight i).cache = s.cache.mapStartTxTracker[i.1]?.elim s.cache fun d =>
      { s.cache with
        mapStartTxTracker := s.cache.mapStartTxTracker.erase i.1
        mapConfirmedFluxnodeData :=
          s.cache.mapConfirmedFluxnodeData.insert d.collateralIn (d.confirm nHeight i.2) } := by
  unfold addToConfirm
  cases s.cache.mapStartTxTracker[i.1]? with
  | none => rfl
  | some d =>
    dsimp only
    split <;> rfl

theorem localTurn_addToConfirm (nHeight : Nat) :
    LocalTurn (fun s => RecordsKeyed s.cache.mapStartTxTracker) place Prod.fst
      (fun i p => p.addToConfirm nHeight i.2) (·.addToConfirm nHeight) where
  keeps s i hKeyed := by
    rw [cache_addToConfirm]
    cases hStart : s.cache.mapStartTxTracker[i.1]? with
    | none => exact hKeyed
    | some started =>
      intro o d hGet
      dsimp only [Option.elim_some] at hGet
      rw [TreeMap.getElem?_erase_eq] at hGet
      split at hGet
      · cases hGet
      · exact hKeyed o d hGet
  get_turn s i a hKeyed := by
    unfold place
    rw [cache_addToConfirm]
    cases hStart : s.cache.mapStartTxTracker[i.1]? with
    | none =>
      by_cases hKey : i.1 = a
      · subst hKey
        simp [FluxnodeCache.place, Place.addToConfirm, hStart]
      · simp [hKey]
    | some started =>
      rw [Option.elim_some, hKeyed i.1 started hStart]
      by_cases hKey : i.1 = a
      · subst hKey
        simp [FluxnodeCache.place, Place.addToConfirm, hStart]
      · simp [FluxnodeCache.place, hKey]

theorem localTurn_undoAddToConfirm : LocalTurn (fun _ => True) place id
    (fun _ p => p.undoAddToConfirm) undoAddToConfirm where
  keeps _ _ _ := trivial
  get_turn s o a _ := by
    simp only [undoAddToConfirm, id_eq]
    cases hGet : s.cache.mapConfirmedFluxnodeData[o]? <;> by_cases hKey : o = a
    all_goals
      try subst hKey
      simp_all [place, report, FluxnodeCache.place, Place.undoAddToConfirm]

theorem localTurn_addToUpdateConfirm (nHeight : Nat) : LocalTurn (fun _ => True) place Prod.fst
    (fun i p => p.addToUpdateConfirm nHeight i.2) (·.addToUpdateConfirm nHeight) where
  keeps _ _ _ := trivial
  get_turn s i a _ := by
    simp only [addToUpdateConfirm]
    cases hGet : s.cache.mapConfirmedFluxnodeData[i.1]? <;> by_cases hKey : i.1 = a
    all_goals
      try subst hKey
      simp_all [place, report, FluxnodeCache.place, Place.addToUpdateConfirm]

theorem localTurn_expireConfirm : LocalTurn (fun _ => True) place id (fun _ p => p.expireConfirm)
    expireConfirm where
  keeps _ _ _ := trivial
  get_turn s o a _ := by
    simp only [expireConfirm, id_eq]
    cases hGet : s.cache.mapConfirmedFluxnodeData[o]? <;> by_cases hKey : o = a
    all_goals
      try subst hKey
      simp_all [place, report, FluxnodeCache.place, Place.expireConfirm]

theorem place_withPaid {g : FluxnodeCache} {out : COutPoint} {data : FluxnodeCacheData}
    (h : g.mapConfirmedFluxnodeData[out]? = some data) (nHeight : Nat) (a : COutPoint) :
    ({ g with
      mapConfirmedFluxnodeData := g.mapConfirmedFluxnodeData.insert out (data.withPaid nHeight) } :
      FluxnodeCache).place a =
      if out = a then (g.place a).withPaid nHeight else g.place a := by
  by_cases hKey : out = a
  · subst hKey
    simp [FluxnodeCache.place, Place.withPaid, h]
  · simp [FluxnodeCache.place, hKey]

theorem ite_withPaid_of_none {g : FluxnodeCache} {out : COutPoint}
    (h : g.mapConfirmedFluxnodeData[out]? = none) (nHeight : Nat) (a : COutPoint) :
    (if out = a then (g.place a).withPaid nHeight else g.place a) = g.place a := by
  by_cases hKey : out = a
  · subst hKey
    simp [FluxnodeCache.place, Place.withPaid, h]
  · rw [if_neg hKey]

theorem place_addPaid (s : FlushState) (tier : Tier) (nHeight : Nat) (out a : COutPoint) :
    (s.addPaid tier nHeight out).place a =
      if out = a then (s.place a).withPaid nHeight else s.place a := by
  unfold addPaid
  cases hGet : s.cache.mapConfirmedFluxnodeData[out]? with
  | none => exact (ite_withPaid_of_none hGet nHeight a).symm
  | some data =>
    refine Eq.trans ?_ (place_withPaid hGet nHeight a)
    dsimp only
    split
    · split
      · split <;> rfl
      · rfl
    · rfl

theorem localTurn_undoPaid : LocalTurn (fun _ => True) place Prod.fst (fun i p => p.withPaid i.2)
    undoPaid where
  keeps _ _ _ := trivial
  get_turn s i a _ := by
    unfold undoPaid
    cases hGet : s.cache.mapConfirmedFluxnodeData[i.1]? with
    | none => exact (ite_withPaid_of_none hGet i.2 a).symm
    | some data =>
      refine Eq.trans ?_ (place_withPaid hGet i.2 a)
      dsimp only
      split
      · split <;> rfl
      · rfl

end FlushState

/-! ## Flush -/

namespace LocalFluxnodeCache

variable (l : LocalFluxnodeCache)

/-- The loops up to the undone starts, for the place of a collateral. -/
def startsPlace (o : COutPoint) (p : Place) : Place :=
  let p := l.mapStartTxTracker[o]?.elim p p.addStart
  let p := l.mapStartTxDOSTracker[o]?.elim p p.addDos
  let p := if l.mapDosExpiredToRemove.contains o then p.removeDos else p
  let p := if l.mapDOSToUndo.contains o then p.removeDos else p
  let p := l.mapConfirmedFluxnodeData[o]?.elim p p.undoUpdate
  let p := (l.setUndoExpireConfirm.find? fun d => decide (d.collateralIn = o)).elim p p.undoExpire
  if l.setUndoStartTx.contains o then p.undoStart else p

/-- The loops over the confirmations and the expired nodes. -/
def confirmsPlace (o : COutPoint) (p : Place) : Place :=
  let p := l.mapAddToConfirm[o]?.elim p (p.addToConfirm l.setAddToConfirmHeight)
  let p := if l.setUndoAddToConfirm.contains o then p.undoAddToConfirm else p
  let p := l.mapAddToUpdateConfirm[o]?.elim p (p.addToUpdateConfirm l.setAddToUpdateConfirmHeight)
  if l.setExpireConfirmOutPoints.contains o then p.expireConfirm else p

def paidPlace (tiers : List Tier) (o : COutPoint) (p : Place) : Place :=
  tiers.foldl (fun p tier =>
    (l.mapPaidNodes tier).elim p fun i => if i.2 = o then p.withPaid i.1 else p) p

/-- `Flush` for the place of a collateral. -/
def flushPlace (o : COutPoint) (p : Place) : Place :=
  let p := l.paidPlace Tier.all o (l.confirmsPlace o (l.startsPlace o p))
  l.mapUndoPaidNodes[o]?.elim p p.withPaid

theorem place_flushStarts (s : FlushState)
    (hUndo : (l.setUndoExpireConfirm.map (·.collateralIn)).Nodup) (o : COutPoint) :
    (l.flushStarts s).place o = l.startsPlace o (s.place o) := by
  unfold flushStarts
  rw [FlushState.localTurn_undoStart.get_foldl_set _ trivial,
    FlushState.localTurn_undoExpire.get_foldl hUndo trivial,
    FlushState.localTurn_undoUpdate.get_foldl_map _ trivial,
    FlushState.localTurn_removeDos.get_foldl_set _ trivial,
    FlushState.localTurn_removeDos.get_foldl_set _ trivial,
    FlushState.localTurn_addDos.get_foldl_map _ trivial,
    FlushState.localTurn_addStart.get_foldl_map _ trivial]
  rfl

theorem place_flushConfirms (s : FlushState) (hKeyed : RecordsKeyed s.cache.mapStartTxTracker)
    (o : COutPoint) : (l.flushConfirms s).place o = l.confirmsPlace o (s.place o) := by
  unfold flushConfirms
  rw [FlushState.localTurn_expireConfirm.get_foldl_set _ trivial,
    (FlushState.localTurn_addToUpdateConfirm _).get_foldl_map _ trivial,
    FlushState.localTurn_undoAddToConfirm.get_foldl_set _ trivial,
    (FlushState.localTurn_addToConfirm _).get_foldl_map _ hKeyed]
  rfl

theorem place_foldl_flushPaid (tiers : List Tier) (s : FlushState) (o : COutPoint) :
    (tiers.foldl l.flushPaid s).place o = l.paidPlace tiers o (s.place o) := by
  unfold paidPlace
  induction tiers generalizing s with
  | nil => rfl
  | cons tier tiers ih =>
    rw [List.foldl_cons, List.foldl_cons, ih]
    congr 1
    unfold flushPaid
    split
    · rename_i nHeight out hPaid
      rw [FlushState.place_addPaid, hPaid]
      rfl
    · rename_i hPaid
      rw [hPaid]
      rfl

theorem started_startsPlace {o : COutPoint} {p : Place} {d : FluxnodeCacheData}
    (h : (l.startsPlace o p).started = some d) :
    l.mapStartTxTracker[o]? = some d ∨ p.started = some d := by
  have hUpdate : ∀ q : Place, (l.mapConfirmedFluxnodeData[o]?.elim q q.undoUpdate).started =
      q.started := by
    intro q
    cases l.mapConfirmedFluxnodeData[o]? <;> rfl
  have hExpire : ∀ q : Place, ((l.setUndoExpireConfirm.find? fun d =>
      decide (d.collateralIn = o)).elim q q.undoExpire).started = q.started := by
    intro q
    cases l.setUndoExpireConfirm.find? fun d => decide (d.collateralIn = o) <;> rfl
  have hDos : ∀ (b : Bool) (q : Place), (if b then q.removeDos else q).started = q.started := by
    intro b q
    cases b <;> rfl
  unfold startsPlace at h
  dsimp only at h
  split at h
  · cases h
  · rw [hExpire, hUpdate, hDos, hDos] at h
    cases hMoved : l.mapStartTxDOSTracker[o]? with
    | some _ =>
      rw [hMoved] at h
      cases h
    | none =>
      rw [hMoved, Option.elim_none] at h
      cases hNew : l.mapStartTxTracker[o]? with
      | some _ =>
        rw [hNew] at h
        exact .inl h
      | none =>
        rw [hNew] at h
        exact .inr h

theorem recordsKeyed_flushStarts {g : FluxnodeCache} (hLocal : RecordsKeyed l.mapStartTxTracker)
    (hGlobal : RecordsKeyed g.mapStartTxTracker)
    (hUndo : (l.setUndoExpireConfirm.map (·.collateralIn)).Nodup) :
    RecordsKeyed (l.flushStarts { cache := g }).cache.mapStartTxTracker := by
  intro o d hGet
  have hPlace := congrArg Place.started (l.place_flushStarts { cache := g } hUndo o)
  rcases l.started_startsPlace (hPlace.symm.trans hGet) with hNew | hOld
  · exact hLocal o d hNew
  · exact hGlobal o d hOld

theorem place_flush (g : FluxnodeCache) (hLocal : RecordsKeyed l.mapStartTxTracker)
    (hGlobal : RecordsKeyed g.mapStartTxTracker)
    (hUndo : (l.setUndoExpireConfirm.map (·.collateralIn)).Nodup) (o : COutPoint) :
    (l.flush g).1.place o = l.flushPlace o (g.place o) := by
  have hLists : ∀ s : FlushState, ({ s.cache with mapFluxnodeList := l.flushLists s } :
      FluxnodeCache).place o = s.place o := fun s => rfl
  unfold flush
  rw [hLists, FlushState.localTurn_undoPaid.get_foldl_map _ trivial, place_foldl_flushPaid,
    place_flushConfirms _ _ (l.recordsKeyed_flushStarts hLocal hGlobal hUndo),
    place_flushStarts _ _ hUndo]
  rfl

end LocalFluxnodeCache

end CloudService
