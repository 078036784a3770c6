/-
  What `Flush` does to the payment lists: the payments move the front entry, and at the end
  nodes are removed, added and the list is sorted.
-/

import CloudService.Fluxnode.Lists
import CloudService.Fluxnode.Status

namespace CloudService

open Pointwise List

variable {s : FlushState} {ι : Type} {e : FluxnodeListData}

/-- The lists stay, and nodes are collected that will be added to and removed from them. -/
structure Changes (s s' : FlushState) (add rem : List FluxnodeCacheData) : Prop where
  lists : s'.cache.mapFluxnodeList = s.cache.mapFluxnodeList
  vec : s'.vecNodesToAdd = s.vecNodesToAdd ++ add
  addTiers : ∀ tier, tier ∈ s'.undoExpiredTiers ↔
    tier ∈ s.undoExpiredTiers ∨ ∃ d ∈ add, d.nTier = tier
  set : ∀ o, s'.setRemoveFromList.contains o = true ↔
    s.setRemoveFromList.contains o = true ∨ ∃ d ∈ rem, d.collateralIn = o
  removeTiers : ∀ tier, tier ∈ s'.removedTiers ↔
    tier ∈ s.removedTiers ∨ ∃ d ∈ rem, d.nTier = tier

namespace Changes

variable {s t u : FlushState} {add rem add' rem' : List FluxnodeCacheData}

theorem refl (s : FlushState) : Changes s s [] [] where
  lists := rfl
  vec := by simp
  addTiers tier := by simp
  set o := by simp
  removeTiers tier := by simp

theorem trans (h₁ : Changes s t add rem) (h₂ : Changes t u add' rem') :
    Changes s u (add ++ add') (rem ++ rem') where
  lists := h₂.lists.trans h₁.lists
  vec := by rw [h₂.vec, h₁.vec, append_assoc]
  addTiers tier := by
    rw [h₂.addTiers, h₁.addTiers]
    simp only [mem_append, or_and_right, exists_or, or_assoc]
  set o := by
    rw [h₂.set, h₁.set]
    simp only [mem_append, or_and_right, exists_or, or_assoc]
  removeTiers tier := by
    rw [h₂.removeTiers, h₁.removeTiers]
    simp only [mem_append, or_and_right, exists_or, or_assoc]

theorem then_foldl {turn : FlushState → ι → FlushState} (h : Changes s t add rem)
    (hTurn : ∀ s i, Changes s (turn s i) [] []) (xs : List ι) :
    Changes s (xs.foldl turn t) add rem := by
  refine foldlRecOn (motive := fun t => Changes s t add rem) xs turn h fun u hu i _ => ?_
  have hNext := hu.trans (hTurn u i)
  rwa [append_nil, append_nil] at hNext

theorem foldl_local {Inv : FlushState → Prop} {key : ι → COutPoint} {f : ι → Place → Place}
    {turn : FlushState → ι → FlushState} (hLocal : LocalTurn Inv FlushState.place key f turn)
    {A R : (Tier → FluxnodeList) → ι → Place → List FluxnodeCacheData}
    (hTurn : ∀ s i, Changes s (turn s i) (A s.cache.mapFluxnodeList i (s.place (key i)))
      (R s.cache.mapFluxnodeList i (s.place (key i))))
    {xs : List ι} (hNodup : (xs.map key).Nodup) (hs : Inv s) :
    Changes s (xs.foldl turn s) (xs.flatMap fun i => A s.cache.mapFluxnodeList i (s.place (key i)))
      (xs.flatMap fun i => R s.cache.mapFluxnodeList i (s.place (key i))) := by
  induction xs generalizing s with
  | nil => exact refl s
  | cons i xs ih =>
    rw [map_cons, nodup_cons] at hNodup
    have hRest := ih hNodup.2 (hLocal.keeps s i hs)
    have hPlaces : ∀ j ∈ xs, (turn s i).place (key j) = s.place (key j) := by
      intro j hj
      have hOther : key i ≠ key j := fun hSame => hNodup.1 (hSame ▸ mem_map_of_mem hj)
      rw [hLocal.get_turn s i _ hs, if_neg hOther]
    have hSame : ∀ g : (Tier → FluxnodeList) → ι → Place → List FluxnodeCacheData,
        (xs.flatMap fun j => g (turn s i).cache.mapFluxnodeList j ((turn s i).place (key j))) =
          xs.flatMap fun j => g s.cache.mapFluxnodeList j (s.place (key j)) := by
      intro g
      refine flatMap_congr fun j hj => ?_
      rw [(hTurn s i).lists, hPlaces j hj]
    rw [hSame A, hSame R] at hRest
    exact (hTurn s i).trans hRest

end Changes

/-- `CheckListHas`, for some lists. -/
def listsHave (lists : Tier → FluxnodeList) (d : FluxnodeCacheData) : Bool :=
  (lists d.nTier).setConfirmedTxInList.contains d.collateralIn

namespace FlushState

variable (s : FlushState)

theorem changes_report (e : FlushError) : Changes s (s.report e) [] [] :=
  { Changes.refl s with }

theorem changes_addStart (i : COutPoint × FluxnodeCacheData) : Changes s (s.addStart i) [] [] :=
  { Changes.refl s with }

theorem changes_addDos (i : COutPoint × FluxnodeCacheData) : Changes s (s.addDos i) [] [] :=
  { Changes.refl s with }

theorem changes_removeDos (o : COutPoint) : Changes s (s.removeDos o) [] [] :=
  { Changes.refl s with }

theorem changes_undoUpdate (i : COutPoint × FluxnodeCacheData) : Changes s (s.undoUpdate i) [] [] :=
  { Changes.refl s with }

theorem changes_undoStart (o : COutPoint) : Changes s (s.undoStart o) [] [] :=
  { Changes.refl s with }

theorem changes_addToUpdateConfirm (nHeight : Nat) (i : COutPoint × String) :
    Changes s (s.addToUpdateConfirm nHeight i) [] [] := by
  unfold addToUpdateConfirm
  split <;> exact { Changes.refl s with }

theorem changes_expireConfirm (o : COutPoint) : Changes s (s.expireConfirm o) [] [] := by
  unfold expireConfirm
  split <;> exact { Changes.refl s with }

theorem changes_undoExpire (d : FluxnodeCacheData) :
    Changes s (s.undoExpire d) (if listsHave s.cache.mapFluxnodeList d then [] else [d]) [] := by
  have hHas : listsHave s.cache.mapFluxnodeList d = s.cache.checkListHas d := rfl
  unfold undoExpire
  rw [hHas]
  split
  · exact { Changes.refl s with }
  · exact { Changes.refl s with
      vec := rfl
      addTiers := fun tier => by simp [or_comm, eq_comm] }

theorem changes_addToConfirm (nHeight : Nat) (i : COutPoint × String) :
    Changes s (s.addToConfirm nHeight i)
      ((s.place i.1).started.map (·.confirm nHeight i.2)).toList
      (((s.place i.1).started.map (·.confirm nHeight i.2)).toList.filter
        (listsHave s.cache.mapFluxnodeList)) := by
  have hStarted : (s.place i.1).started = s.cache.mapStartTxTracker[i.1]? := rfl
  rw [hStarted]
  unfold addToConfirm
  cases hStart : s.cache.mapStartTxTracker[i.1]? with
  | none => exact s.changes_report _
  | some started =>
    have hHas : ∀ d C, ({ s.cache with
        mapStartTxTracker := s.cache.mapStartTxTracker.erase i.1
        mapConfirmedFluxnodeData := C } : FluxnodeCache).checkListHas d =
        listsHave s.cache.mapFluxnodeList d := fun _ _ => rfl
    simp only [hHas, Option.map_some, Option.toList_some, filter_cons, filter_nil]
    split
    · exact { Changes.refl s with
        vec := rfl
        addTiers := fun tier => by simp [or_comm, eq_comm]
        set := fun o => by
          simp only [Std.ExtTreeSet.contains_insert, Bool.or_eq_true, beq_iff_eq,
            Std.compare_eq_iff_eq, mem_singleton, exists_eq_left]
          exact or_comm
        removeTiers := fun tier => by simp [or_comm, eq_comm] }
    · exact { Changes.refl s with
        vec := rfl
        addTiers := fun tier => by simp [or_comm, eq_comm] }

theorem changes_undoAddToConfirm (o : COutPoint) :
    Changes s (s.undoAddToConfirm o) [] (s.place o).confirmed.toList := by
  have hConfirmed : (s.place o).confirmed = s.cache.mapConfirmedFluxnodeData[o]? := rfl
  rw [hConfirmed]
  unfold undoAddToConfirm
  cases hGet : s.cache.mapConfirmedFluxnodeData[o]? with
  | none => exact s.changes_report _
  | some d =>
    exact { Changes.refl s with
      set := fun o => by
        simp only [Std.ExtTreeSet.contains_insert, Bool.or_eq_true, beq_iff_eq,
          Std.compare_eq_iff_eq, Option.toList_some, mem_singleton, exists_eq_left]
        exact or_comm
      removeTiers := fun tier => by simp [or_comm, eq_comm] }

end FlushState

/-! ## Payments -/

/-- The paid node goes from the front of the list to the back, with a new entry. -/
def FluxnodeList.payFront (fl : FluxnodeList) (out : COutPoint) (entry : FluxnodeListData) :
    FluxnodeList :=
  match fl.listConfirmedFluxnodes with
  | first :: rest =>
    if fl.setConfirmedTxInList.contains out ∧ first.out = out then
      { fl with listConfirmedFluxnodes := rest ++ [entry] }
    else fl
  | [] => fl

theorem FlushState.mapFluxnodeList_addPaid {out : COutPoint}
    {d : FluxnodeCacheData} (tier : Tier) (nHeight : Nat)
    (hGet : s.cache.mapConfirmedFluxnodeData[out]? = some d) :
    (s.addPaid tier nHeight out).cache.mapFluxnodeList =
      Function.update s.cache.mapFluxnodeList tier
        ((s.cache.mapFluxnodeList tier).payFront out (d.withPaid nHeight).listData) := by
  unfold addPaid FluxnodeList.payFront
  rw [hGet]
  dsimp only
  cases hList : (s.cache.mapFluxnodeList tier).listConfirmedFluxnodes with
  | nil =>
    rw [Function.update_eq_self]
    split <;> rfl
  | cons first rest =>
    cases hSet : (s.cache.mapFluxnodeList tier).setConfirmedTxInList.contains out with
    | false => simp [report]
    | true =>
      by_cases hOut : first.out = out
      · simp [hOut, FluxnodeCache.setList]
      · simp [hOut, report]

/-- The records are those of some places, up to the height of the last payment. -/
def SameNodes (p : COutPoint → Place) (s : FlushState) : Prop :=
  ∀ o, (s.place o).confirmed.map (·.withPaid 0) = (p o).confirmed.map (·.withPaid 0)

theorem SameNodes.withPaid {p : COutPoint → Place} {s' : FlushState} (h : SameNodes p s)
    {out : COutPoint} {nHeight : Nat}
    (hPlace : ∀ a, s'.place a = if out = a then (s.place a).withPaid nHeight else s.place a) :
    SameNodes p s' := by
  intro a
  rw [← h a, hPlace a]
  split
  · cases hGet : (s.place a).confirmed <;> simp [Place.withPaid, hGet]
  · rfl

theorem SameNodes.cases {p : COutPoint → Place} (h : SameNodes p s)
    (o : COutPoint) : (s.cache.mapConfirmedFluxnodeData[o]? = none ∧ (p o).confirmed = none) ∨
      ∃ d n, s.cache.mapConfirmedFluxnodeData[o]? = some (d.withPaid n) ∧
        (p o).confirmed = some d := by
  have hSame := h o
  have hGet : (s.place o).confirmed = s.cache.mapConfirmedFluxnodeData[o]? := rfl
  rw [hGet] at hSame
  cases hNow : s.cache.mapConfirmedFluxnodeData[o]? with
  | none =>
    rw [hNow, Option.map_none, eq_comm, Option.map_eq_none_iff] at hSame
    exact .inl ⟨rfl, hSame⟩
  | some d' =>
    rw [hNow, Option.map_some, eq_comm, Option.map_eq_some_iff] at hSame
    obtain ⟨d, hPlace, hData⟩ := hSame
    refine .inr ⟨d, d'.nLastPaidHeight, ?_, hPlace⟩
    have hBack := congrArg (·.withPaid d'.nLastPaidHeight) hData
    exact congrArg some hBack.symm

namespace LocalFluxnodeCache

variable (l : LocalFluxnodeCache)

def paidList (p : COutPoint → Place) (tier : Tier) (fl : FluxnodeList) : FluxnodeList :=
  (l.mapPaidNodes tier).elim fl fun i => (p i.2).confirmed.elim fl fun d =>
    fl.payFront i.2 (d.withPaid i.1).listData

theorem localTurn_flushPaid (p : COutPoint → Place) :
    LocalTurn (SameNodes p) (fun s tier => s.cache.mapFluxnodeList tier) id (l.paidList p)
      l.flushPaid where
  keeps s tier h := by
    unfold flushPaid
    split
    · exact h.withPaid (s.place_addPaid tier _ _)
    · exact h
  get_turn s tier a h := by
    unfold flushPaid paidList
    rw [id_eq]
    cases hPaid : l.mapPaidNodes tier with
    | none => simp
    | some i =>
      rcases h.cases i.2 with ⟨hNone, hPlace⟩ | ⟨d, n, hGet, hPlace⟩
      · simp [hPlace, FlushState.addPaid, hNone]
      · dsimp only
        rw [FlushState.mapFluxnodeList_addPaid _ _ hGet, Function.update_apply]
        simp only [eq_comm (a := a), hPlace, Option.elim_some, FluxnodeCacheData.withPaid_withPaid]
        split
        · rename_i hKey
          rw [hKey]
        · rfl

theorem errors_foldl_flushPaid {p : COutPoint → Place} (hSame : SameNodes p s)
    (hFront : ∀ tier i d, l.mapPaidNodes tier = some i → (p i.2).confirmed = some d →
      (s.cache.mapFluxnodeList tier).setConfirmedTxInList.contains i.2 = true ∧
      ∃ first rest, (s.cache.mapFluxnodeList tier).listConfirmedFluxnodes = first :: rest ∧
        first.out = i.2) :
    (Tier.all.foldl l.flushPaid s).errors = s.errors := by
  refine (l.localTurn_flushPaid p).foldl_of_good (P := fun t => t.errors = s.errors)
    (G := fun tier fl => ∀ i d, l.mapPaidNodes tier = some i → (p i.2).confirmed = some d →
      fl.setConfirmedTxInList.contains i.2 = true ∧
      ∃ first rest, fl.listConfirmedFluxnodes = first :: rest ∧ first.out = i.2)
    (fun t tier hInv hGood hErrors => ?_) (by decide) hSame (fun tier _ => hFront tier) rfl
  unfold flushPaid
  split
  · rename_i nHeight out hPaid
    rcases hInv.cases out with ⟨hNone, _⟩ | ⟨d, n, hGet, hPlace⟩
    · rw [FlushState.addPaid, hNone]
      exact hErrors
    · obtain ⟨hSet, first, rest, hList, hOut⟩ := hGood (nHeight, out) d hPaid hPlace
      simp only [id_eq] at hSet hList
      simp only [FlushState.addPaid, hGet, hSet, hList, hOut, if_true]
      exact hErrors
  · exact hErrors

end LocalFluxnodeCache

theorem FlushState.mapFluxnodeList_undoPaid {i : COutPoint × Nat}
    {d : FluxnodeCacheData} (hGet : s.cache.mapConfirmedFluxnodeData[i.1]? = some d) :
    (s.undoPaid i).cache.mapFluxnodeList = Function.update s.cache.mapFluxnodeList d.nTier
        (if (s.cache.mapFluxnodeList d.nTier).setConfirmedTxInList.contains i.1 then
          ((s.cache.mapFluxnodeList d.nTier).moveToFront i.1 i.2).getD
            (s.cache.mapFluxnodeList d.nTier) else s.cache.mapFluxnodeList d.nTier) := by
  unfold undoPaid
  rw [hGet]
  dsimp only
  split
  · split
    · rename_i moved hMoved
      simp [FluxnodeCache.setList, hMoved]
    · rename_i hMoved
      simp [report, hMoved]
  · simp [report]

theorem FlushState.localTurn_undoPaid_lists {p : COutPoint → Place} {tierOf : COutPoint → Tier}
    (hTier : ∀ o d, (p o).confirmed = some d → d.nTier = tierOf o) :
    LocalTurn (SameNodes p) (fun s tier => s.cache.mapFluxnodeList tier)
      (fun i : COutPoint × Nat => tierOf i.1)
      (fun i fl => if (p i.1).confirmed.isSome && fl.setConfirmedTxInList.contains i.1 then
        (fl.moveToFront i.1 i.2).getD fl else fl) undoPaid where
  keeps s i h := h.withPaid fun a => localTurn_undoPaid.get_turn s i a trivial
  get_turn s i a h := by
    rcases h.cases i.1 with ⟨hNone, hPlace⟩ | ⟨d, n, hGet, hPlace⟩
    · simp [undoPaid, report, hNone, hPlace]
    · have hOwn : (d.withPaid n).nTier = tierOf i.1 := hTier i.1 d hPlace
      rw [mapFluxnodeList_undoPaid hGet, hOwn, Function.update_apply, hPlace]
      simp only [eq_comm (a := a), Option.isSome_some, Bool.true_and]
      split
      · rename_i hKey
        rw [hKey]
      · rfl

structure SameCollected (s s' : FlushState) : Prop where
  vec : s'.vecNodesToAdd = s.vecNodesToAdd
  set : s'.setRemoveFromList = s.setRemoveFromList
  addTiers : s'.undoExpiredTiers = s.undoExpiredTiers
  removeTiers : s'.removedTiers = s.removedTiers

theorem SameCollected.foldl {turn : FlushState → ι → FlushState}
    (hTurn : ∀ s i, SameCollected s (turn s i)) (xs : List ι) (s : FlushState) :
    SameCollected s (xs.foldl turn s) := by
  refine foldlRecOn (motive := SameCollected s) xs turn ⟨rfl, rfl, rfl, rfl⟩ fun t h i _ => ?_
  have hNext := hTurn t i
  exact ⟨hNext.vec.trans h.vec, hNext.set.trans h.set, hNext.addTiers.trans h.addTiers,
    hNext.removeTiers.trans h.removeTiers⟩

theorem LocalFluxnodeCache.sameCollected_flushPaid (l : LocalFluxnodeCache) (s : FlushState)
    (tier : Tier) : SameCollected s (l.flushPaid s tier) := by
  unfold flushPaid FlushState.addPaid
  split
  · split
    · exact ⟨rfl, rfl, rfl, rfl⟩
    · dsimp only
      split
      · split
        · split <;> exact ⟨rfl, rfl, rfl, rfl⟩
        · exact ⟨rfl, rfl, rfl, rfl⟩
      · exact ⟨rfl, rfl, rfl, rfl⟩
  · exact ⟨rfl, rfl, rfl, rfl⟩

theorem FlushState.sameCollected_undoPaid (s : FlushState) (i : COutPoint × Nat) :
    SameCollected s (s.undoPaid i) := by
  unfold undoPaid
  split
  · exact ⟨rfl, rfl, rfl, rfl⟩
  · dsimp only
    split
    · split <;> exact ⟨rfl, rfl, rfl, rfl⟩
    · exact ⟨rfl, rfl, rfl, rfl⟩

/-! ## The end of Flush -/

namespace LocalFluxnodeCache

variable {l : LocalFluxnodeCache} {s : FlushState} {tier : Tier}

def keptList (s : FlushState) (tier : Tier) : FluxnodeList :=
  if tier ∈ s.removedTiers then (s.cache.mapFluxnodeList tier).eraseFromList s.setRemoveFromList
  else s.cache.mapFluxnodeList tier

def extendedList (s : FlushState) (tier : Tier) : FluxnodeList :=
  (s.vecNodesToAdd.filter fun d => d.nTier = tier).foldl FluxnodeList.insertIntoList
    (keptList s tier)

theorem flushLists_eq : l.flushLists s tier =
    if tier ∈ s.removedTiers ∨ tier ∈ s.undoExpiredTiers ∨ (l.mapPaidNodes tier).isSome then
      (extendedList s tier).sortList
    else extendedList s tier := rfl

theorem mem_keptList : e ∈ (keptList s tier).listConfirmedFluxnodes ↔
    e ∈ (s.cache.mapFluxnodeList tier).listConfirmedFluxnodes ∧
      ¬ (tier ∈ s.removedTiers ∧ s.setRemoveFromList.contains e.out = true) := by
  unfold keptList
  split
  · rename_i hRemoved
    simp only [FluxnodeList.eraseFromList, mem_filter, hRemoved, true_and, Bool.not_eq_true',
      Bool.not_eq_true]
  · rename_i hKept
    simp [hKept]

theorem mem_foldl_insertIntoList {add : List FluxnodeCacheData} {fl : FluxnodeList} :
    e ∈ (add.foldl FluxnodeList.insertIntoList fl).listConfirmedFluxnodes ↔
      (∃ d ∈ add, d.listData = e) ∨ e ∈ fl.listConfirmedFluxnodes := by
  induction add generalizing fl with
  | nil => simp
  | cons d add ih =>
    rw [foldl_cons, ih]
    simp only [FluxnodeList.insertIntoList, mem_cons, exists_eq_or_imp]
    rw [eq_comm (a := e), or_left_comm, or_assoc]

theorem mem_flushLists :
    e ∈ (l.flushLists s tier).listConfirmedFluxnodes ↔
      (∃ d ∈ s.vecNodesToAdd, d.nTier = tier ∧ d.listData = e) ∨
      (e ∈ (s.cache.mapFluxnodeList tier).listConfirmedFluxnodes ∧
        ¬ (tier ∈ s.removedTiers ∧ s.setRemoveFromList.contains e.out = true)) := by
  have hExtended : e ∈ (extendedList s tier).listConfirmedFluxnodes ↔
      (∃ d ∈ s.vecNodesToAdd, d.nTier = tier ∧ d.listData = e) ∨
      (e ∈ (s.cache.mapFluxnodeList tier).listConfirmedFluxnodes ∧
        ¬ (tier ∈ s.removedTiers ∧ s.setRemoveFromList.contains e.out = true)) := by
    rw [extendedList, mem_foldl_insertIntoList, mem_keptList]
    simp only [mem_filter, decide_eq_true_eq, and_assoc]
  rw [flushLists_eq]
  split
  · rw [FluxnodeList.sortList, mem_insertionSort]
    exact hExtended
  · exact hExtended

/-- The added nodes are new to the list, or their old entries are removed. -/
structure Addable (s : FlushState) (tier : Tier) : Prop where
  nodup : ((s.vecNodesToAdd.filter fun d => d.nTier = tier).map (·.collateralIn)).Nodup
  removed : ∀ d ∈ s.vecNodesToAdd, d.nTier = tier →
    d.collateralIn ∈ (s.cache.mapFluxnodeList tier).outs →
    tier ∈ s.removedTiers ∧ s.setRemoveFromList.contains d.collateralIn = true
  sorts : ∀ d ∈ s.vecNodesToAdd, d.nTier = tier → tier ∈ s.undoExpiredTiers

section

variable (h : Addable s tier) (hList : (s.cache.mapFluxnodeList tier).WellFormed)

include h hList

theorem wellFormed_extendedList : (extendedList s tier).WellFormed := by
  have hKept : (keptList s tier).WellFormed := by
    unfold keptList
    split
    · exact hList.eraseFromList _
    · exact hList
  refine hKept.foldl_insertIntoList h.nodup fun d hd hOut => ?_
  rw [mem_filter, decide_eq_true_eq] at hd
  obtain ⟨e, hMem, hSame⟩ := mem_map.mp hOut
  obtain ⟨hOld, hNotRemoved⟩ := mem_keptList.mp hMem
  refine hNotRemoved ?_
  rw [hSame]
  exact h.removed d hd.1 hd.2 (hSame ▸ mem_map_of_mem hOld)

theorem wellFormed_flushLists : (l.flushLists s tier).WellFormed := by
  rw [flushLists_eq]
  split
  · exact (wellFormed_extendedList h hList).sortList
  · exact wellFormed_extendedList h hList

theorem sorted_flushLists
    (hSorted : (l.mapPaidNodes tier).isSome ∨ (s.cache.mapFluxnodeList tier).Sorted) :
    (l.flushLists s tier).Sorted := by
  rw [flushLists_eq]
  split
  · exact FluxnodeList.sorted_sortList (wellFormed_extendedList h hList)
  · rename_i hUnchanged
    simp only [not_or] at hUnchanged
    obtain ⟨hNotRemoved, hNotAdded, hNotPaid⟩ := hUnchanged
    have hNone : (s.vecNodesToAdd.filter fun d => d.nTier = tier) = [] := by
      rw [filter_eq_nil_iff]
      intro d hd hTier
      exact hNotAdded (h.sorts d hd (of_decide_eq_true hTier))
    rw [extendedList, hNone, keptList, if_neg hNotRemoved]
    exact hSorted.resolve_left hNotPaid

end

end LocalFluxnodeCache

end CloudService
