/-
  The payment lists when a block is connected. `Flush` moves the payees from the front to the
  back and reports no error.
-/

import CloudService.Fluxnode.FlushLists
import CloudService.Fluxnode.History

namespace CloudService

open Pointwise NodeStatus List

/-! ## CheckFluxnodePayout -/

/-- The list that `GetNextPayment` leaves behind. -/
def FluxnodeList.cleaned (confirmed : COutPoint → Bool) (fl : FluxnodeList) : FluxnodeList :=
  (fl.nextConfirmed confirmed fl.setConfirmedTxInList.size).2

namespace FluxnodeList.WellFormed

variable {fl : FluxnodeList} {confirmed : COutPoint → Bool}

theorem cleaned (h : fl.WellFormed) : (fl.cleaned confirmed).WellFormed := h.nextConfirmed _ _

theorem cleaned_eq (h : fl.WellFormed) : (fl.cleaned confirmed).listConfirmedFluxnodes =
    LazyQueue.clean (·.out) confirmed fl.listConfirmedFluxnodes :=
  (nextConfirmed_eq confirmed h.size_eq.ge).1

theorem nextConfirmed_fst (h : fl.WellFormed) :
    (fl.nextConfirmed confirmed fl.setConfirmedTxInList.size).1 =
      (LazyQueue.clean (·.out) confirmed fl.listConfirmedFluxnodes).head?.map (·.out) :=
  (nextConfirmed_eq confirmed h.size_eq.ge).2

theorem payFront (h : fl.WellFormed) (out : COutPoint) {entry : FluxnodeListData}
    (hEntry : entry.out = out) :
    (fl.payFront out entry).WellFormed ∧ (fl.payFront out entry).outs.Perm fl.outs := by
  unfold FluxnodeList.payFront
  split
  · rename_i first rest hList
    split
    · rename_i hFront
      have hPerm : ((rest ++ [entry]).map (·.out)).Perm fl.outs := by
        rw [outs, hList, map_append, map_cons, map_cons, hFront.2, hEntry]
        exact perm_append_singleton _ _
      exact ⟨h.of_perm hPerm, hPerm⟩
    · exact ⟨h, .refl _⟩
  · exact ⟨h, .refl _⟩

end FluxnodeList.WellFormed

namespace FullNode

variable {env : FluxnodeEnv} {s : FullNode} {tier : Tier} {i : Nat × COutPoint}

theorem mapFluxnodeList_checkedCache (tier : Tier) :
    (s.checkedCache env).mapFluxnodeList tier =
      if s.paysFluxnodes env then
        (s.fluxnodeCache.mapFluxnodeList tier).cleaned
          s.fluxnodeCache.mapConfirmedFluxnodeData.contains
      else s.fluxnodeCache.mapFluxnodeList tier := by
  unfold checkedCache
  split
  · have hTurn : LocalTurn
        (fun g : FluxnodeCache =>
          g.mapConfirmedFluxnodeData = s.fluxnodeCache.mapConfirmedFluxnodeData)
        (fun g tier => g.mapFluxnodeList tier) id
        (fun _ fl => fl.cleaned s.fluxnodeCache.mapConfirmedFluxnodeData.contains)
        fun g tier => (g.getNextPayment env s.node.view tier).2 :=
      { keeps := fun g tier hg => hg
        get_turn := fun g tier a hg => by
          simp only [FluxnodeCache.getNextPayment, FluxnodeCache.setList, Function.update_apply, hg,
            id_eq, eq_comm (a := a)]
          split
          · rename_i hTier
            rw [hTier]
            rfl
          · rfl }
    cases tier <;> rfl
  · rfl

theorem wellFormed_checkedCache (h : (s.fluxnodeCache.mapFluxnodeList tier).WellFormed) :
    ((s.checkedCache env).mapFluxnodeList tier).WellFormed := by
  rw [mapFluxnodeList_checkedCache]
  split
  · exact h.cleaned
  · exact h

theorem paidNodes_front (hWell : (s.fluxnodeCache.mapFluxnodeList tier).WellFormed)
    (h : s.paidNodes env tier = some i) :
    ∃ first rest, ((s.checkedCache env).mapFluxnodeList tier).listConfirmedFluxnodes =
      first :: rest ∧ first.out = i.2 := by
  unfold paidNodes at h
  split at h
  · rename_i hPays
    obtain ⟨payment, hPayment, rfl⟩ := Option.map_eq_some_iff.mp h
    obtain ⟨out, hOut, hData⟩ := Option.bind_eq_some_iff.mp hPayment
    obtain ⟨d, _, hDest⟩ := Option.bind_eq_some_iff.mp hData
    obtain ⟨dest, _, rfl⟩ := Option.map_eq_some_iff.mp hDest
    rw [hWell.nextConfirmed_fst] at hOut
    rw [mapFluxnodeList_checkedCache, if_pos hPays, hWell.cleaned_eq]
    obtain ⟨first, hFirst, hSame⟩ := Option.map_eq_some_iff.mp hOut
    obtain ⟨rest, hList⟩ := head?_eq_some_iff.mp hFirst
    exact ⟨first, rest, hList, hSame⟩
  · cases h

end FullNode

/-! ## The loops over the trackers -/

namespace FlushState

theorem errors_foldl {ι : Type} (turn : FlushState → ι → FlushState)
    (hTurn : ∀ s i, (turn s i).errors = s.errors) (xs : List ι) (s : FlushState) :
    (xs.foldl turn s).errors = s.errors :=
  foldlRecOn (motive := fun t => t.errors = s.errors) xs turn rfl
    fun t ht i _ => (hTurn t i).trans ht

theorem errors_undoExpire (s : FlushState) (d : FluxnodeCacheData) :
    (s.undoExpire d).errors = s.errors := by
  simp only [undoExpire]
  split <;> rfl

end FlushState

namespace LocalFluxnodeCache

variable (l : LocalFluxnodeCache)

theorem errors_flushStarts (s : FlushState) : (l.flushStarts s).errors = s.errors := by
  unfold flushStarts
  simp only [FlushState.errors_foldl FlushState.addStart fun _ _ => rfl,
    FlushState.errors_foldl FlushState.addDos fun _ _ => rfl,
    FlushState.errors_foldl FlushState.removeDos fun _ _ => rfl,
    FlushState.errors_foldl FlushState.undoUpdate fun _ _ => rfl,
    FlushState.errors_foldl FlushState.undoExpire FlushState.errors_undoExpire,
    FlushState.errors_foldl FlushState.undoStart fun _ _ => rfl]

theorem changes_flushStarts (s : FlushState)
    (hUndo : (l.setUndoExpireConfirm.map (·.collateralIn)).Nodup) :
    Changes s (l.flushStarts s)
      (l.setUndoExpireConfirm.filter fun d => !listsHave s.cache.mapFluxnodeList d) [] := by
  have hBefore := (((((Changes.refl s).then_foldl FlushState.changes_addStart
    l.mapStartTxTracker.toList).then_foldl FlushState.changes_addDos
    l.mapStartTxDOSTracker.toList).then_foldl FlushState.changes_removeDos
    l.mapDosExpiredToRemove.toList).then_foldl FlushState.changes_removeDos
    l.mapDOSToUndo.toList).then_foldl FlushState.changes_undoUpdate
    l.mapConfirmedFluxnodeData.toList
  have hAll := (hBefore.trans (Changes.foldl_local FlushState.localTurn_undoExpire
    (A := fun lists d _ => if listsHave lists d then [] else [d]) (R := fun _ _ _ => [])
    FlushState.changes_undoExpire hUndo trivial)).then_foldl FlushState.changes_undoStart
    l.setUndoStartTx.toList
  rw [hBefore.lists] at hAll
  have hFilter : ∀ p : FluxnodeCacheData → Bool,
      (l.setUndoExpireConfirm.flatMap fun d => if p d then [] else [d]) =
        l.setUndoExpireConfirm.filter fun d => !p d := by
    intro p
    induction l.setUndoExpireConfirm with
    | nil => rfl
    | cons d ds ih => cases hp : p d <;> simp [hp, ih]
  have hNothing : (l.setUndoExpireConfirm.flatMap fun _ => ([] : List FluxnodeCacheData)) = [] :=
    flatMap_eq_nil_iff.mpr fun _ _ => rfl
  rw [hFilter, hNothing] at hAll
  exact hAll

theorem flushConfirms_of_connect (h : l.setUndoAddToConfirm = ∅) (s : FlushState) :
    l.flushConfirms s = l.setExpireConfirmOutPoints.toList.foldl FlushState.expireConfirm
      (l.mapAddToUpdateConfirm.toList.foldl (·.addToUpdateConfirm l.setAddToUpdateConfirmHeight)
        (l.mapAddToConfirm.toList.foldl (·.addToConfirm l.setAddToConfirmHeight) s)) := by
  unfold flushConfirms
  rw [h, toList_empty_set]
  rfl

end LocalFluxnodeCache

namespace ConnectsAt

variable {env : FluxnodeEnv} {nHeight : Nat} {ev : NodeEvents} {st : NodeStatus}
  {l : LocalFluxnodeCache} {o : COutPoint}

theorem unpaid (h : ConnectsAt env nHeight ev st l o) :
    ConnectsAt env nHeight ev st { l with mapPaidNodes := fun _ => none } o :=
  { h with
    paidHeight := fun tier i hPaid => by cases hPaid
    paid := fun hPays => by
      obtain ⟨tier, i, hPaid, _⟩ := LocalFluxnodeCache.pays_eq_true.mp hPays
      cases hPaid }

theorem confirmsPlace_eq (h : ConnectsAt env nHeight ev st l o) (hNoUndo : NoUndo l)
    (hAdmits : st.Admits env nHeight o ev) :
    l.confirmsPlace o (l.startsPlace o st.place) = (st.step env nHeight ev false).place := by
  have hFlush := h.unpaid.flushPlace_eq ⟨hNoUndo.1, hNoUndo.2, hNoUndo.3, hNoUndo.4, hNoUndo.5,
    hNoUndo.6⟩ hAdmits
  have hNone : ({ l with mapPaidNodes := fun _ => none } : LocalFluxnodeCache).pays o = false := rfl
  rw [hNone, LocalFluxnodeCache.flushPlace, show _ = _ from hNoUndo.paid] at hFlush
  exact hFlush

theorem startsPlace_eq (h : ConnectsAt env nHeight ev st l o) (hNoUndo : NoUndo l)
    (hAdmits : st.Admits env nHeight o ev)
    (hConfirm : (∃ d, st = .confirmed d) ∨ ev.confirm.isSome = true) :
    l.startsPlace o st.place = st.place := by
  simp only [LocalFluxnodeCache.startsPlace, h.start, h.dos, h.dosExpired, hNoUndo.dos,
    hNoUndo.confirmed, hNoUndo.expire, hNoUndo.start, Std.ExtTreeMap.getElem?_empty,
    Std.ExtTreeSet.contains_empty, find?_nil, Option.elim_none, Bool.false_eq_true, if_false]
  rcases hConfirm with ⟨d, rfl⟩ | hConfirm
  · rw [hAdmits.no_start (by simp)]
    rfl
  · obtain ⟨d, rfl⟩ := hAdmits.confirm hConfirm
    have hNot : ev.confirm ≠ none := Option.isSome_iff_ne_none.mp hConfirm
    rw [hAdmits.no_start (by simp)]
    simp [place, hNot]

end ConnectsAt

/-- The loops of `Flush` before the payments collect the nodes confirmed for the first time. -/
structure TrackersFlushed (env : FluxnodeEnv) (nHeight : Nat) (ev : BlockEvents)
    (f : COutPoint → NodeStatus) (before : Tier → FluxnodeList) (t : FlushState)
    (add : List FluxnodeCacheData) : Prop where
  lists : t.cache.mapFluxnodeList = before
  vec : t.vecNodesToAdd = add
  added : ∀ d, d ∈ add ↔ ∃ o started ip, f o = .started started ∧ (ev.node o).confirm = some ip ∧
    d = started.confirm nHeight ip
  nodup : (add.map (·.collateralIn)).Nodup
  addTiers : ∀ tier, tier ∈ t.undoExpiredTiers ↔ ∃ d ∈ add, d.nTier = tier
  set : ∀ o, t.setRemoveFromList.contains o = true ↔
    ∃ d ∈ add, listsHave before d = true ∧ d.collateralIn = o
  removeTiers : ∀ tier, tier ∈ t.removedTiers ↔
    ∃ d ∈ add, listsHave before d = true ∧ d.nTier = tier
  place : ∀ o, t.place o = ((f o).step env nHeight (ev.node o) false).place
  errors : t.errors = []

section Connect

variable {env : FluxnodeEnv} {g : FluxnodeCache} {nHeight : Nat} {f : COutPoint → NodeStatus}
  {coins : CoinsView} {block : CBlock} {mapPaidNodes : Tier → Option (Nat × COutPoint)}
  {l : LocalFluxnodeCache} {undo : CFluxnodeTxBlockUndo}

section

variable (h : ConnectedNodes env nHeight coins block mapPaidNodes f l undo)
  (hAdmits : ∀ o, (f o).Admits env nHeight o ((fluxnodeEvents env nHeight coins block).node o))

include h hAdmits

/-- The nodes that the loop over the first confirmations collects. -/
theorem ConnectedNodes.added {nTip : Nat} (hValid : ∀ o, (f o).Valid env nTip o)
    {p : COutPoint → Place} (hPlace : ∀ o, p o = l.startsPlace o (f o).place) :
    let add := l.mapAddToConfirm.toList.flatMap fun i =>
      ((p i.1).started.map (·.confirm l.setAddToConfirmHeight i.2)).toList
    (∀ d, d ∈ add ↔ ∃ o started ip, f o = .started started ∧
      ((fluxnodeEvents env nHeight coins block).node o).confirm = some ip ∧
      d = started.confirm nHeight ip) ∧ (add.map (·.collateralIn)).Nodup := by
  have hItem : ∀ i ∈ l.mapAddToConfirm.toList, ∃ started, f i.1 = .started started ∧
      ((fluxnodeEvents env nHeight coins block).node i.1).confirm = some i.2 ∧
      (p i.1).started = some started ∧ l.setAddToConfirmHeight = nHeight := by
    intro i hi
    rw [Std.ExtTreeMap.mem_toList_iff_getElem?_eq_some, (h.connects i.1).confirm] at hi
    have hSome : ((fluxnodeEvents env nHeight coins block).node i.1).confirm.isSome = true := by
      rw [hi]
      rfl
    obtain ⟨started, hStarted⟩ := (hAdmits i.1).confirm hSome
    refine ⟨started, hStarted, hi, ?_, (h.connects i.1).confirmHeight hSome⟩
    rw [hPlace, (h.connects i.1).startsPlace_eq h.noUndo (hAdmits i.1) (.inr hSome), hStarted]
    rfl
  refine ⟨fun d => ?_, ?_⟩
  · rw [mem_flatMap]
    constructor
    · rintro ⟨i, hi, hd⟩
      obtain ⟨started, hStarted, hConfirm, hGet, hHeight⟩ := hItem i hi
      rw [hGet, hHeight, Option.map_some, Option.mem_toList, Option.some.injEq] at hd
      exact ⟨i.1, started, i.2, hStarted, hConfirm, hd.symm⟩
    · rintro ⟨o, started, ip, hStarted, hConfirm, rfl⟩
      have hi : (o, ip) ∈ l.mapAddToConfirm.toList := by
        rw [Std.ExtTreeMap.mem_toList_iff_getElem?_eq_some, (h.connects o).confirm]
        exact hConfirm
      obtain ⟨started', hStarted', _, hGet, hHeight⟩ := hItem _ hi
      cases hStarted.symm.trans hStarted'
      refine ⟨(o, ip), hi, ?_⟩
      rw [hGet, hHeight]
      simp
  · have hKeys : (l.mapAddToConfirm.toList.flatMap fun i =>
        ((p i.1).started.map (·.confirm l.setAddToConfirmHeight i.2)).toList).map
          (·.collateralIn) = l.mapAddToConfirm.toList.map Prod.fst := by
      rw [map_flatMap, ← flatMap_pure_eq_map]
      refine flatMap_congr fun i hi => ?_
      obtain ⟨started, hStarted, _, hGet, _⟩ := hItem i hi
      have hKey : started.collateralIn = i.1 := (hValid i.1).collateralIn (by rw [hStarted]; rfl)
      rw [hGet]
      exact congrArg (fun o => [o]) hKey
    rw [hKeys]
    exact nodup_keys_toList _

/-- The loops over the confirmations and the expired nodes report no error. -/
theorem ConnectedNodes.errors_flushConfirms {s : FlushState}
    (hKeyed : RecordsKeyed s.cache.mapStartTxTracker)
    (hPlace : ∀ o, s.place o = l.startsPlace o (f o).place) :
    (l.flushConfirms s).errors = s.errors := by
  have hConfirmed : ∀ o d, f o = .confirmed d → s.place o = { confirmed := some d } := by
    intro o d hStatus
    rw [hPlace, (h.connects o).startsPlace_eq h.noUndo (hAdmits o) (.inl ⟨d, hStatus⟩), hStatus]
    rfl
  have hNoConfirm : ∀ o d, f o = .confirmed d → l.mapAddToConfirm[o]? = none := by
    intro o d hStatus
    rw [(h.connects o).confirm]
    exact (hAdmits o).no_confirm (by simp [hStatus])
  rw [l.flushConfirms_of_connect h.noUndo.confirm]
  -- an expired node is confirmed, before and after the updates
  refine FlushState.localTurn_expireConfirm.foldl_of_good (P := fun t => t.errors = s.errors)
    (G := fun _ p => p.confirmed.isSome = true) (fun t o _ hGood hErrors => ?_)
    (by simpa using nodup_toList_set l.setExpireConfirmOutPoints) trivial (fun o ho => ?_) ?_
  · obtain ⟨d, hGet⟩ := Option.isSome_iff_exists.mp hGood
    rw [FlushState.expireConfirm, show t.cache.mapConfirmedFluxnodeData[o]? = some d from hGet]
    exact hErrors
  · rw [Std.ExtTreeSet.mem_toList, ← Std.ExtTreeSet.contains_iff_mem, (h.connects o).expired,
      Option.any_eq_true] at ho
    obtain ⟨d, hStatus, _⟩ := ho
    rw [place_confirmed_eq_some] at hStatus
    rw [id_eq, (FlushState.localTurn_addToUpdateConfirm _).get_foldl_map _ trivial,
      (FlushState.localTurn_addToConfirm _).get_foldl_map _ hKeyed, hNoConfirm o d hStatus,
      Option.elim_none, hConfirmed o d hStatus]
    cases l.mapAddToUpdateConfirm[o]? <;> rfl
  · -- an updated node is confirmed
    refine (FlushState.localTurn_addToUpdateConfirm _).foldl_of_good
      (P := fun t => t.errors = s.errors) (G := fun _ p => p.confirmed.isSome = true)
      (fun t i _ hGood hErrors => ?_) (nodup_keys_toList _) trivial (fun i hi => ?_) ?_
    · obtain ⟨d, hGet⟩ := Option.isSome_iff_exists.mp hGood
      rw [FlushState.addToUpdateConfirm,
        show t.cache.mapConfirmedFluxnodeData[i.1]? = some d from hGet]
      exact hErrors
    · rw [Std.ExtTreeMap.mem_toList_iff_getElem?_eq_some, (h.connects i.1).update] at hi
      obtain ⟨d, hStatus⟩ := (hAdmits i.1).update (by rw [hi]; rfl)
      rw [(FlushState.localTurn_addToConfirm _).get_foldl_map _ hKeyed, hNoConfirm i.1 d hStatus,
        Option.elim_none, hConfirmed i.1 d hStatus]
      rfl
    · -- a node that is confirmed for the first time is started
      refine (FlushState.localTurn_addToConfirm _).foldl_of_good
        (P := fun t => t.errors = s.errors) (G := fun _ p => p.started.isSome = true)
        (fun t i _ hGood hErrors => ?_) (nodup_keys_toList _) hKeyed (fun i hi => ?_) rfl
      · obtain ⟨d, hGet⟩ := Option.isSome_iff_exists.mp hGood
        rw [FlushState.addToConfirm, show t.cache.mapStartTxTracker[i.1]? = some d from hGet]
        dsimp only
        split <;> exact hErrors
      · rw [Std.ExtTreeMap.mem_toList_iff_getElem?_eq_some, (h.connects i.1).confirm] at hi
        have hSome : ((fluxnodeEvents env nHeight coins block).node i.1).confirm.isSome = true := by
          rw [hi]
          rfl
        obtain ⟨d, hStatus⟩ := (hAdmits i.1).confirm hSome
        rw [hPlace, (h.connects i.1).startsPlace_eq h.noUndo (hAdmits i.1) (.inr hSome), hStatus]
        rfl

end

theorem ConnectedNodes.trackersFlushed
    (h : ConnectedNodes env nHeight coins block mapPaidNodes f l undo) (hHolds : g.Holds f)
    {nTip : Nat} (hValid : ∀ o, (f o).Valid env nTip o)
    (hAdmits : ∀ o, (f o).Admits env nHeight o ((fluxnodeEvents env nHeight coins block).node o)) :
    ∃ add, TrackersFlushed env nHeight (fluxnodeEvents env nHeight coins block) f g.mapFluxnodeList
      (l.flushConfirms (l.flushStarts { cache := g })) add := by
  have hNodup : (l.setUndoExpireConfirm.map (·.collateralIn)).Nodup := by
    simp [h.noUndo.expire]
  have hKeyed := l.recordsKeyed_flushStarts h.keyed (recordsKeyed_of_valid hHolds hValid) hNodup
  have hPlace : ∀ o, (l.flushStarts { cache := g }).place o = l.startsPlace o (f o).place := by
    intro o
    rw [l.place_flushStarts _ hNodup, ← hHolds o]
    rfl
  have hStarts := l.changes_flushStarts { cache := g } hNodup
  rw [h.noUndo.expire, filter_nil] at hStarts
  have hAdd := Changes.foldl_local (FlushState.localTurn_addToConfirm l.setAddToConfirmHeight)
    (A := fun _ i p => (p.started.map (·.confirm l.setAddToConfirmHeight i.2)).toList)
    (R := fun lists i p => (p.started.map (·.confirm l.setAddToConfirmHeight i.2)).toList.filter
      (listsHave lists))
    (fun t i => t.changes_addToConfirm _ i) (nodup_keys_toList l.mapAddToConfirm) hKeyed
  have hAll := ((hStarts.trans hAdd).then_foldl
    (FlushState.changes_addToUpdateConfirm · l.setAddToUpdateConfirmHeight)
    l.mapAddToUpdateConfirm.toList).then_foldl FlushState.changes_expireConfirm
    l.setExpireConfirmOutPoints.toList
  rw [← l.flushConfirms_of_connect h.noUndo.confirm, hStarts.lists, ← filter_flatMap] at hAll
  obtain ⟨hAdded, hKeys⟩ := h.added hAdmits hValid hPlace
  refine ⟨_, hAll.lists, hAll.vec, hAdded, hKeys, fun tier => ?_, fun o => ?_, fun tier => ?_,
    fun o => ?_, ?_⟩
  · rw [hAll.addTiers]
    simp
  · rw [hAll.set]
    simp [and_assoc]
  · rw [hAll.removeTiers]
    simp [and_assoc]
  · rw [l.place_flushConfirms _ hKeyed, hPlace]
    exact (h.connects o).confirmsPlace_eq h.noUndo (hAdmits o)
  · rw [h.errors_flushConfirms hAdmits hKeyed hPlace, l.errors_flushStarts]

end Connect

/-! ## The lists after a connected block -/

/-- The state of `Flush` after the payments. -/
def LocalFluxnodeCache.paidState (l : LocalFluxnodeCache) (g : FluxnodeCache) : FlushState :=
  Tier.all.foldl l.flushPaid (l.flushConfirms (l.flushStarts { cache := g }))

theorem LocalFluxnodeCache.flush_of_connect {l : LocalFluxnodeCache} (h : l.mapUndoPaidNodes = ∅)
    (g : FluxnodeCache) :
    (l.flush g).1.mapFluxnodeList = l.flushLists (l.paidState g) ∧
      (l.flush g).2 = (l.paidState g).errors := by
  unfold flush
  rw [h, toList_empty_map]
  exact ⟨rfl, rfl⟩

section Lists

variable {env : FluxnodeEnv} {g : FluxnodeCache} {nHeight : Nat} {f : COutPoint → NodeStatus}
  {coins : CoinsView} {block : CBlock} {mapPaidNodes : Tier → Option (Nat × COutPoint)}
  {l : LocalFluxnodeCache} {undo : CFluxnodeTxBlockUndo} {ev : BlockEvents} {t : FlushState}
  {add : List FluxnodeCacheData} {before : Tier → FluxnodeList} {tier : Tier}

namespace TrackersFlushed

section

variable (h : TrackersFlushed env (nHeight + 1) ev f before t add)
  (hValid : ∀ o, (f o).Valid env nHeight o)
  (hAdmits : ∀ o, (f o).Admits env (nHeight + 1) o (ev.node o))

include h hValid hAdmits

theorem collateralIn {o : COutPoint} {d : FluxnodeCacheData}
    (hGet : (t.place o).confirmed = some d) : d.collateralIn = o := by
  rw [h.place, place_confirmed_eq_some] at hGet
  refine ((hValid o).step (hAdmits o) false).collateralIn ?_
  rw [hGet]
  rfl

theorem paidList (hWell : (before tier).WellFormed) :
    (l.paidList t.place tier (before tier)).WellFormed ∧
      (l.paidList t.place tier (before tier)).outs.Perm (before tier).outs := by
  unfold LocalFluxnodeCache.paidList
  cases l.mapPaidNodes tier with
  | none => exact ⟨hWell, .refl _⟩
  | some i =>
    cases hGet : (t.place i.2).confirmed with
    | none =>
      rw [Option.elim_some, hGet]
      exact ⟨hWell, .refl _⟩
    | some d =>
      have hKey : (d.withPaid i.1).listData.out = i.2 :=
        h.collateralIn (d := d) hValid hAdmits hGet
      rw [Option.elim_some, hGet]
      exact hWell.payFront i.2 hKey

end

theorem addable (h : TrackersFlushed env (nHeight + 1) ev f before t add) {u : FlushState}
    (hSame : SameCollected t u) (hWell : (before tier).WellFormed)
    (hOuts : (u.cache.mapFluxnodeList tier).outs.Perm (before tier).outs) :
    LocalFluxnodeCache.Addable u tier where
  nodup := by
    rw [hSame.vec, h.vec]
    exact h.nodup.sublist (filter_sublist.map _)
  removed d hd hTier hOut := by
    rw [hSame.vec, h.vec] at hd
    have hHas : listsHave before d = true := by
      rw [listsHave, hTier, hWell.set]
      exact hOuts.mem_iff.mp hOut
    rw [hSame.removeTiers, hSame.set, h.removeTiers, h.set]
    exact ⟨⟨d, hd, hHas, hTier⟩, d, hd, hHas, rfl⟩
  sorts d hd hTier := by
    rw [hSame.vec, h.vec] at hd
    rw [hSame.addTiers, h.addTiers]
    exact ⟨d, hd, hTier⟩

end TrackersFlushed

theorem LocalFluxnodeCache.paidState_eq (l : LocalFluxnodeCache) (g : FluxnodeCache) :
    let t := l.flushConfirms (l.flushStarts { cache := g })
    SameCollected t (l.paidState g) ∧ ∀ tier, (l.paidState g).cache.mapFluxnodeList tier =
      l.paidList t.place tier (t.cache.mapFluxnodeList tier) := by
  intro t
  refine ⟨SameCollected.foldl l.sameCollected_flushPaid _ _, fun tier => ?_⟩
  have hNodup : (Tier.all.map id).Nodup := by decide
  have hLists := (l.localTurn_flushPaid t.place).get_foldl (s := t) hNodup (fun _ => rfl) tier
  refine hLists.trans ?_
  cases tier <;> rfl

namespace ConnectedNodes

section

variable (h : ConnectedNodes env (nHeight + 1) coins block mapPaidNodes f l undo)
  (hHolds : g.Holds f) (hValid : ∀ o, (f o).Valid env nHeight o)
  (hAdmits : ∀ o, (f o).Admits env (nHeight + 1) o ((fluxnodeEvents env (nHeight + 1) coins
    block).node o))

include h hHolds hValid hAdmits

theorem wellFormed_flush (hWell : (g.mapFluxnodeList tier).WellFormed) :
    ((l.flush g).1.mapFluxnodeList tier).WellFormed := by
  obtain ⟨add, ht⟩ := h.trackersFlushed hHolds hValid hAdmits
  obtain ⟨hSame, hLists⟩ := l.paidState_eq g
  have hPaid := ht.paidList (l := l) hValid hAdmits hWell
  rw [← congrFun ht.lists tier, ← hLists] at hPaid
  rw [(LocalFluxnodeCache.flush_of_connect h.noUndo.paid g).1]
  exact LocalFluxnodeCache.wellFormed_flushLists
    (ht.addable hSame hWell (ht.lists ▸ hPaid.2)) hPaid.1

theorem errors_flush (hWell : ∀ tier, (g.mapFluxnodeList tier).WellFormed)
    (hFront : ∀ tier i, mapPaidNodes tier = some i → ∃ first rest,
      (g.mapFluxnodeList tier).listConfirmedFluxnodes = first :: rest ∧ first.out = i.2) :
    (l.flush g).2 = [] := by
  obtain ⟨add, ht⟩ := h.trackersFlushed hHolds hValid hAdmits
  rw [(LocalFluxnodeCache.flush_of_connect h.noUndo.paid g).2, ← ht.errors]
  refine l.errors_foldl_flushPaid (fun _ => rfl) fun tier i d hPaid _ => ?_
  rw [h.paid] at hPaid
  obtain ⟨first, rest, hList, hOut⟩ := hFront tier i hPaid
  rw [ht.lists]
  refine ⟨?_, first, rest, hList, hOut⟩
  rw [(hWell tier).set, FluxnodeList.outs, hList, ← hOut]
  exact mem_cons_self

end

end ConnectedNodes

end Lists

/-! ## Runs -/

namespace FullNode

variable {env : FluxnodeEnv} {s s' : FullNode} {block : CBlock}

def QueuesWellFormed (s : FullNode) : Prop :=
  ∀ tier, (s.fluxnodeCache.mapFluxnodeList tier).WellFormed

theorem QueuesWellFormed.connect (h : s.QueuesWellFormed) (hTracks : Tracks env s)
    (hConnect : s.connect env block = .ok s') :
    s'.QueuesWellFormed ∧ s.flushErrors env block = [] := by
  obtain ⟨prev, chain, hChain⟩ := hTracks.chain_eq
  obtain ⟨f, hHolds, hSame⟩ := hTracks.holds
  rw [hChain] at hSame
  obtain ⟨l, undo, hStep⟩ := hTracks.advances hConnect hChain hHolds hSame
  have hChecked : (s.checkedCache env).Holds f := fun o =>
    (place_checkedCache o).trans (hHolds o)
  have hWell : ∀ tier, ((s.checkedCache env).mapFluxnodeList tier).WellFormed := fun tier =>
    wellFormed_checkedCache (h tier)
  constructor
  · intro tier
    rw [hStep.flush]
    exact hStep.connected.wellFormed_flush hChecked hStep.undoable.valid hStep.undoable.admits
      (hWell tier)
  · unfold flushErrors
    rw [hStep.fluxnodes]
    exact hStep.connected.errors_flush hChecked hStep.undoable.valid hStep.undoable.admits hWell
      fun tier i hPaid => paidNodes_front (h tier) hPaid

theorem ReachedForward.invariant (h : s.ReachedForward env) :
    Tracks env s ∧ s.QueuesWellFormed := by
  obtain ⟨blocks, hRun⟩ := h
  refine hRun.invariant (I := fun s => Tracks env s ∧ s.QueuesWellFormed)
    (fun s block t hInv _ hStep => ?_) ⟨.init, fun _ => .empty⟩
  exact ⟨hInv.1.connect hStep, (hInv.2.connect hInv.1 hStep).1⟩

/-- After every run that connects and disconnects blocks a node is in at most one of the
    trackers, and on runs that only connect blocks `Flush` reports no error. -/
theorem one_tracker_and_no_flush_error (env : FluxnodeEnv) :
    (∀ s : FullNode, s.Reached env → ∀ o, ¬ (s.fluxnodeCache.mapStartTxTracker.contains o = true ∧
        s.fluxnodeCache.mapStartTxDOSTracker.contains o = true) ∧
      ¬ (s.fluxnodeCache.mapStartTxTracker.contains o = true ∧
        s.fluxnodeCache.mapConfirmedFluxnodeData.contains o = true) ∧
      ¬ (s.fluxnodeCache.mapStartTxDOSTracker.contains o = true ∧
        s.fluxnodeCache.mapConfirmedFluxnodeData.contains o = true)) ∧
    ∀ (s s' : FullNode) (block : CBlock), s.ReachedForward env → s.connect env block = .ok s' →
      s.flushErrors env block = [] := by
  constructor
  · rintro s ⟨changes, hRun⟩ o
    obtain ⟨f, hHolds, _⟩ := (Tracks.of_run hRun).holds
    simp only [Std.ExtTreeMap.contains_eq_isSome_getElem?, hHolds.started, hHolds.dos,
      hHolds.confirmed]
    cases f o <;> simp [place]
  · intro s s' block hReached hConnect
    obtain ⟨hTracks, hQueues⟩ := hReached.invariant
    exact (hQueues.connect hTracks hConnect).2

end FullNode

/-! ## A run -/

/-- An environment for runs on concrete blocks: nodes are paid five units from the first
    block on, and every signature passes. -/
def sampleFluxnodeEnv : FluxnodeEnv :=
  { sampleEnv { opoiActivationHeight := -1 } with
    getHash := fun tx => BitVec.ofNat 256 (1000 * tx.opoiSigTime + tx.sigTime + 1)
    getFluxnodeSubsidy := fun _ _ => 5
    network := .regtest
    p2shPublicKey := [1]
    scriptID := id
    extractDestination := fun script => some (.keyID ((script.drop 3).take (script.length - 5)))
    encodeDestination := fun
      | .keyID hash => hexStr hash
      | _ => ""
    verifyMessage := fun _ _ _ => true }

/-- The block at a height of one of several branches. -/
def nodeBlock (branch nHeight : Nat) (txs : List CTransaction) : CBlock where
  hash := BitVec.ofNat 256 (1000 * branch + nHeight + 1)
  vtx := sampleCoinbase [("owner", 5)] nHeight :: txs

def sampleCollateral (n : Nat) : COutPoint := ⟨1001, n⟩

def sampleFundBlock : CBlock where
  hash := 2
  vtx := [sampleCoinbase [("owner", 10000 * COIN), ("owner", 10000 * COIN)] 1]

def sampleStart (n : Nat) : CTransaction :=
  { nVersion := FLUXNODE_TX_VERSION
    nType := FLUXNODE_START_TX_TYPE
    collateralIn := sampleCollateral n
    collateralPubkey := strBytes "owner"
    sigTime := n + 1 }

def sampleConfirm (n : Nat) : CTransaction :=
  { nVersion := FLUXNODE_TX_VERSION
    nType := FLUXNODE_CONFIRM_TX_TYPE
    nUpdateType := INITIAL_CONFIRM
    collateralIn := sampleCollateral n
    benchmarkTier := 1
    ip := "10.0.0.1"
    sigTime := n + 11 }

/-- A run to the first height at which the collaterals are old enough, and on to the
    confirmation of one of two started nodes. -/
def sampleNodeBlocks : List CBlock :=
  sampleFundBlock :: (List.range 99).map (fun i => nodeBlock 0 (i + 2) []) ++
    [nodeBlock 0 101 [sampleStart 0, sampleStart 1], nodeBlock 0 102 [sampleConfirm 0]]

theorem FullNode.ReachedForward.reached {env : FluxnodeEnv} {s : FullNode}
    (h : s.ReachedForward env) : s.Reached env := by
  obtain ⟨blocks, hRun⟩ := h
  refine ⟨blocks.map .connect, ?_⟩
  generalize FullNode.init env = start at hRun ⊢
  induction hRun with
  | nil s => exact .nil s
  | cons hStep hOk _ ih => exact .cons hStep hOk ih

namespace FullNode

set_option maxRecDepth 10000 in
theorem one_tracker_of_sampleNodeBlocks : ∃ s s' u : FullNode,
    s.ReachedForward sampleFluxnodeEnv ∧
    s.connect sampleFluxnodeEnv (nodeBlock 0 103 [sampleConfirm 1]) = .ok s' ∧
    s.flushErrors sampleFluxnodeEnv (nodeBlock 0 103 [sampleConfirm 1]) = [] ∧
    s'.disconnect sampleFluxnodeEnv = .ok u ∧ u.Reached sampleFluxnodeEnv ∧
    u.fluxnodeCache.mapConfirmedFluxnodeData.contains (sampleCollateral 0) = true ∧
    u.fluxnodeCache.mapStartTxTracker.contains (sampleCollateral 1) = true ∧
    u.fluxnodeCache.mapConfirmedFluxnodeData.contains (sampleCollateral 1) = false := by
  obtain ⟨s, hSteps, s', hConnect, u, hDisconnect, hConfirmed, hStarted⟩ : ∃ s : FullNode,
      Run.Steps (connect sampleFluxnodeEnv) (fun _ _ => True) (.init sampleFluxnodeEnv)
        sampleNodeBlocks s ∧
      ∃ s', s.connect sampleFluxnodeEnv (nodeBlock 0 103 [sampleConfirm 1]) = .ok s' ∧
      ∃ u, s'.disconnect sampleFluxnodeEnv = .ok u ∧
        u.fluxnodeCache.mapConfirmedFluxnodeData.contains (sampleCollateral 0) = true ∧
        u.fluxnodeCache.mapStartTxTracker.contains (sampleCollateral 1) = true :=
    Run.exists_steps .other (by decide +kernel)
  have hForward : s.ReachedForward sampleFluxnodeEnv := ⟨_, hSteps⟩
  obtain ⟨changes, hRun⟩ := hForward.reached
  have hReached : u.Reached sampleFluxnodeEnv :=
    ⟨_, (hRun.snoc (i := TipChange.connect _) hConnect trivial).snoc (i := TipChange.disconnect)
      hDisconnect trivial⟩
  have hMain := one_tracker_and_no_flush_error sampleFluxnodeEnv
  refine ⟨s, s', u, hForward, hConnect, hMain.2 s s' _ hForward hConnect, hDisconnect, hReached,
    hConfirmed, hStarted, ?_⟩
  rw [← Bool.not_eq_true]
  exact fun hBoth => (hMain.1 u hReached (sampleCollateral 1)).2.1 ⟨hStarted, hBoth⟩

end FullNode

end CloudService
