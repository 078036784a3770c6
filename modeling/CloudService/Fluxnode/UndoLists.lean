/-
  The payment lists when a block is disconnected. A payee that is the first entry of its list
  keeps the new height.
-/

import CloudService.Fluxnode.Payments

namespace CloudService

open Pointwise List

namespace LocalFluxnodeCache

variable {l : LocalFluxnodeCache}

theorem flushConfirms_of_disconnect (h : OnlyUndo l) (s : FlushState) :
    l.flushConfirms s = l.setUndoAddToConfirm.toList.foldl FlushState.undoAddToConfirm s := by
  unfold flushConfirms
  rw [h.confirm, h.update, h.expire, toList_empty_map, toList_empty_set]
  rfl

/-- The state of `Flush` after the loop over the undone payments. -/
def undoneState (l : LocalFluxnodeCache) (g : FluxnodeCache) : FlushState :=
  l.mapUndoPaidNodes.toList.foldl FlushState.undoPaid
    (l.flushConfirms (l.flushStarts { cache := g }))

theorem flush_of_disconnect (h : OnlyUndo l) (g : FluxnodeCache) :
    (l.flush g).1 =
      { (l.undoneState g).cache with mapFluxnodeList := l.flushLists (l.undoneState g) } := by
  have hNone : ∀ s, Tier.all.foldl l.flushPaid s = s := by
    intro s
    refine foldlRecOn (motive := fun t => t = s) Tier.all _ rfl fun t ht tier _ => ?_
    rw [ht, flushPaid, h.paid]
  unfold flush undoneState
  dsimp only
  rw [hNone]

end LocalFluxnodeCache

/-- The loops of `Flush` before the undone payments, when a block is disconnected. -/
structure TrackersUndone (env : FluxnodeEnv) (nHeight : Nat) (ev : BlockEvents)
    (f : COutPoint → NodeStatus) (tierOf : COutPoint → Tier) (now : Tier → FluxnodeList)
    (t : FlushState) (add : List FluxnodeCacheData) : Prop where
  lists : t.cache.mapFluxnodeList = now
  vec : t.vecNodesToAdd = add
  added : ∀ d, d ∈ add ↔ (∃ o, f o = .confirmed d ∧ (ev.node o).expires env nHeight d = true) ∧
    listsHave now d = false
  nodup : (add.map (·.collateralIn)).Nodup
  addTiers : ∀ tier, tier ∈ t.undoExpiredTiers ↔ ∃ d ∈ add, d.nTier = tier
  set : ∀ o, t.setRemoveFromList.contains o = true ↔ (ev.node o).confirm.isSome = true
  removeTiers : ∀ tier, tier ∈ t.removedTiers ↔
    ∃ o, (ev.node o).confirm.isSome = true ∧ tierOf o = tier
  same : SameNodes (fun o => (f o).place) t

section Disconnect

variable {env : FluxnodeEnv} {g : FluxnodeCache} {nHeight : Nat} {f : COutPoint → NodeStatus}
  {ev : BlockEvents} {pays : COutPoint → Bool} {block : CBlock} {undo : CFluxnodeTxBlockUndo}
  {tierOf : COutPoint → Tier} {tier : Tier} {o : COutPoint}

def statusesAfter (env : FluxnodeEnv) (nHeight : Nat) (ev : BlockEvents) (pays : COutPoint → Bool)
    (f : COutPoint → NodeStatus) (o : COutPoint) : NodeStatus :=
  (f o).step env nHeight (ev.node o) (pays o)

section

variable (h : Undoable env nHeight block ev pays undo f f)
  (hHolds : g.Holds (statusesAfter env (nHeight + 1) ev pays f))

include h hHolds

theorem Undoable.startsPlace_eq (hConfirm : (ev.node o).confirm.isSome = true) :
    ∃ d, statusesAfter env (nHeight + 1) ev pays f o = .confirmed d ∧
      (disconnectFluxnodes g (nHeight + 1) block undo).startsPlace o
        (statusesAfter env (nHeight + 1) ev pays f o).place = { confirmed := some d } := by
  obtain ⟨started, hStarted⟩ := (h.admits o).confirm hConfirm
  obtain ⟨ip, hIp⟩ := Option.isSome_iff_exists.mp hConfirm
  have hNow : statusesAfter env (nHeight + 1) ev pays f o =
      .confirmed (started.confirm (nHeight + 1) ip) := by
    simp [statusesAfter, hStarted, NodeStatus.step, hIp]
  have hStart := (h.admits o).no_start (by rw [hStarted]; simp)
  have hAt := h.disconnectsAt hHolds o
  refine ⟨_, hNow, ?_⟩
  rw [hNow]
  rw [hNow, hStarted] at hAt
  simp [LocalFluxnodeCache.startsPlace, hAt.start, hAt.dos, hAt.dosUndo, hAt.updated, hAt.expire,
    hAt.undoStart, hStart, NodeStatus.place, onlyUndo_disconnectFluxnodes.dos]

theorem Undoable.sameNodes :
    let l := disconnectFluxnodes g (nHeight + 1) block undo
    SameNodes (fun o => (f o).place) (l.flushConfirms (l.flushStarts { cache := g })) := by
  intro l o
  have hEnd := h.holds_flush_before hHolds o
  have hPlace := (FlushState.localTurn_undoPaid.get_foldl_map _ trivial o).symm.trans hEnd
  dsimp only
  rw [← hPlace]
  cases l.mapUndoPaidNodes[o]? with
  | none => rfl
  | some n =>
    rw [Option.elim_some, Place.withPaid, Option.map_map]
    rfl

theorem Undoable.trackersUndone
    (hPlacedAfter : Placed tierOf (statusesAfter env (nHeight + 1) ev pays f)) :
    let l := disconnectFluxnodes g (nHeight + 1) block undo
    ∃ add, TrackersUndone env (nHeight + 1) ev f tierOf g.mapFluxnodeList
      (l.flushConfirms (l.flushStarts { cache := g })) add := by
  intro l
  obtain ⟨hNodup, hMem⟩ := foldl_insertRecord (h.written.confirmed_eq h.valid)
  have hStarts := l.changes_flushStarts { cache := g } hNodup
  have hPlace : ∀ o, (l.flushStarts { cache := g }).place o = l.startsPlace o
      (statusesAfter env (nHeight + 1) ev pays f o).place := by
    intro o
    rw [l.place_flushStarts _ hNodup, ← hHolds o]
    rfl
  have hAll := hStarts.trans (Changes.foldl_local FlushState.localTurn_undoAddToConfirm
    (A := fun _ _ _ => []) (R := fun _ _ p => p.confirmed.toList)
    FlushState.changes_undoAddToConfirm (by simpa using nodup_toList_set l.setUndoAddToConfirm)
    trivial)
  -- the nodes to remove are those that the block confirmed
  have hRem : ∀ d, d ∈ (l.setUndoAddToConfirm.toList.flatMap fun o =>
      ((l.flushStarts { cache := g }).place (id o)).confirmed.toList) ↔
      ∃ o, (ev.node o).confirm.isSome = true ∧
        statusesAfter env (nHeight + 1) ev pays f o = .confirmed d := by
    intro d
    rw [mem_flatMap]
    refine exists_congr fun o => ?_
    rw [Std.ExtTreeSet.mem_toList, ← Std.ExtTreeSet.contains_iff_mem,
      (h.disconnectsAt hHolds o).undoConfirm]
    refine and_congr_right fun hConfirm => ?_
    obtain ⟨d', hNow, hStarts⟩ := h.startsPlace_eq hHolds hConfirm
    rw [id_eq, hPlace, hStarts, hNow]
    simp [eq_comm]
  rw [← LocalFluxnodeCache.flushConfirms_of_disconnect onlyUndo_disconnectFluxnodes,
    nil_append] at hAll
  have hNothing : (l.setUndoAddToConfirm.toList.flatMap fun _ => ([] : List FluxnodeCacheData)) =
      [] := flatMap_eq_nil_iff.mpr fun _ _ => rfl
  rw [hNothing, append_nil] at hAll
  refine ⟨_, hAll.lists, hAll.vec.trans (nil_append _), fun d => ?_, ?_, fun tier => ?_,
    fun o => ?_, fun tier => ?_, h.sameNodes hHolds⟩
  · rw [mem_filter, show d ∈ l.setUndoExpireConfirm ↔ _ from hMem d, h.written.confirmed]
    simp
  · exact hNodup.sublist (filter_sublist.map _)
  · rw [hAll.addTiers]
    simp
  · rw [hAll.set]
    simp only [hRem, Std.ExtTreeSet.contains_empty, Bool.false_eq_true, false_or]
    constructor
    · rintro ⟨d, ⟨a, hConfirm, hNow⟩, rfl⟩
      rwa [(hPlacedAfter.of_confirmed hNow).1]
    · intro hConfirm
      obtain ⟨d, hNow, _⟩ := h.startsPlace_eq hHolds hConfirm
      exact ⟨d, ⟨o, hConfirm, hNow⟩, (hPlacedAfter.of_confirmed hNow).1⟩
  · rw [hAll.removeTiers]
    simp only [hRem, not_mem_nil, false_or]
    constructor
    · rintro ⟨d, ⟨o, hConfirm, hNow⟩, rfl⟩
      exact ⟨o, hConfirm, (hPlacedAfter.of_confirmed hNow).2.symm⟩
    · rintro ⟨o, hConfirm, rfl⟩
      obtain ⟨d, hNow, _⟩ := h.startsPlace_eq hHolds hConfirm
      exact ⟨d, ⟨o, hConfirm, hNow⟩, (hPlacedAfter.of_confirmed hNow).2⟩

end

end Disconnect

/-! ## Undone payments -/

structure Undoes (tierOf : COutPoint → Tier) (f after : COutPoint → NodeStatus)
    (pays : COutPoint → Bool) (tier : Tier) (fl : FluxnodeList) : Prop where
  queue : QueueOf tierOf after tier fl
  payee : ∀ o, pays o = true → IsNextPayee f (tierOf o) o
  least : ∀ o d, pays o = true → tierOf o = tier → f o = .confirmed d →
    ∀ e ∈ fl.listConfirmedFluxnodes, e.out ≠ o → d.listData.lt e = true
  back : ∀ e ∈ fl.listConfirmedFluxnodes, (∀ d, after e.out ≠ .confirmed d) → ∀ d,
    f e.out = .confirmed d → e = d.listData
  entry : ∀ o d d', f o = .confirmed d → after o = .confirmed d' →
    (d'.withPaid d.nLastPaidHeight).listData = d.listData
  notFirst : ∀ o d', pays o = true → tierOf o = tier → after o = .confirmed d' →
    ∀ first rest, fl.listConfirmedFluxnodes = first :: rest → first.out ≠ o

/-- The list after the undone payments: the payee has its old entry again if still confirmed. -/
structure PaymentUndone (tierOf : COutPoint → Tier) (f after : COutPoint → NodeStatus)
    (pays : COutPoint → Bool) (tier : Tier) (fl fl' : FluxnodeList) : Prop where
  wellFormed : fl'.WellFormed
  sorted : fl'.Sorted
  outs : fl'.outs.Perm fl.outs
  mem : ∀ e, e ∈ fl'.listConfirmedFluxnodes ↔
    (e ∈ fl.listConfirmedFluxnodes ∧ ¬ (pays e.out = true ∧ ∃ d, after e.out = .confirmed d)) ∨
      ∃ o d d', pays o = true ∧ tierOf o = tier ∧ f o = .confirmed d ∧ after o = .confirmed d' ∧
        d.listData = e

namespace Undoes

variable {tierOf : COutPoint → Tier} {f after : COutPoint → NodeStatus} {pays : COutPoint → Bool}
  {tier : Tier} {fl : FluxnodeList} {o : COutPoint} {d : FluxnodeCacheData}

section

variable (h : Undoes tierOf f after pays tier fl)

include h

theorem payee_unique (hPays : pays o = true) (hTier : tierOf o = tier) {o' : COutPoint}
    (hPays' : pays o' = true) (hTier' : tierOf o' = tier) : o' = o := by
  have hPayee := h.payee o hPays
  have hPayee' := h.payee o' hPays'
  rw [hTier] at hPayee
  rw [hTier'] at hPayee'
  exact hPayee'.unique hPayee

theorem of_unpaid (hNone : ∀ o, pays o = true → tierOf o ≠ tier) :
    PaymentUndone tierOf f after pays tier fl fl where
  wellFormed := h.queue.wellFormed
  sorted := h.queue.sorted
  outs := .refl _
  mem e := by
    constructor
    · intro hMem
      exact .inl ⟨hMem, fun hPaid => hNone e.out hPaid.1 (h.queue.ofTier e hMem)⟩
    · rintro (⟨hMem, _⟩ | ⟨o, _, _, hPays, hTier, _⟩)
      · exact hMem
      · exact absurd hTier (hNone o hPays)

/-- A payee that is not confirmed any more is the first entry of its list, if it is there, and
    the list stays. -/
theorem of_expired (hPays : pays o = true) (hTier : tierOf o = tier)
    (hStatus : f o = .confirmed d) (hGone : ∀ d', after o ≠ .confirmed d') (n : Nat) :
    (fl.moveToFront o n).getD fl = fl ∧ PaymentUndone tierOf f after pays tier fl fl := by
  constructor
  · unfold FluxnodeList.moveToFront
    cases hList : fl.listConfirmedFluxnodes with
    | nil => rfl
    | cons first rest =>
      have hNotFound : (rest.reverse.find? fun e => e.out == o) = none := by
        rw [find?_eq_none]
        intro e he hKey
        rw [mem_reverse] at he
        have hOut : e.out = o := beq_iff_eq.mp hKey
        have hMem : e ∈ fl.listConfirmedFluxnodes := hList ▸ mem_cons_of_mem _ he
        have hSorted := h.queue.sorted
        have hNodup := h.queue.wellFormed.nodup
        rw [FluxnodeList.Sorted, hList, pairwise_cons] at hSorted
        rw [FluxnodeList.outs, hList, map_cons, nodup_cons] at hNodup
        have hFirst : first.out ≠ o := fun hSame =>
          hNodup.1 (hSame.trans hOut.symm ▸ mem_map_of_mem he)
        have hLess := h.least o d hPays hTier hStatus first (hList ▸ mem_cons_self) hFirst
        rw [← h.back e hMem (hOut ▸ hGone) d (hOut ▸ hStatus),
          FluxnodeListData.lt_asymm (hSorted.1 e he)] at hLess
        cases hLess
      dsimp only
      rw [hNotFound]
      rfl
  · refine ⟨h.queue.wellFormed, h.queue.sorted, .refl _, fun e => ⟨fun hMem => .inl ⟨hMem, ?_⟩, ?_⟩⟩
    · rintro ⟨hPaid, d', hNow⟩
      rw [h.payee_unique hPays hTier hPaid (h.queue.ofTier e hMem)] at hNow
      exact hGone d' hNow
    · rintro (⟨hMem, _⟩ | ⟨o', _, d', hPaid, hTier', _, hNow, _⟩)
      · exact hMem
      · rw [h.payee_unique hPays hTier hPaid hTier'] at hNow
        exact absurd hNow (hGone d')

/-- A payee that is still confirmed goes back to the front. -/
theorem of_confirmed (hPlaced : Placed tierOf after) (hPays : pays o = true)
    (hTier : tierOf o = tier) (hStatus : f o = .confirmed d) {d' : FluxnodeCacheData}
    (hNow : after o = .confirmed d') :
    fl.setConfirmedTxInList.contains o = true ∧
      PaymentUndone tierOf f after pays tier fl ((fl.moveToFront o d.nLastPaidHeight).getD fl) := by
  obtain ⟨hKey, hOwn⟩ := hPlaced.of_confirmed hNow
  have hOut : d'.listData.out = o := hKey
  have hListed := h.queue.listed o d' hNow (hOwn.trans hTier)
  refine ⟨(h.queue.wellFormed.set o).mpr (hOut ▸ mem_map_of_mem hListed), ?_⟩
  cases hList : fl.listConfirmedFluxnodes with
  | nil =>
    rw [hList] at hListed
    cases hListed
  | cons first rest =>
    -- The backward walk never looks at the first entry, so the payee has to be behind it.
    have hFirst := h.notFirst o d' hPays hTier hNow first rest hList
    have hRest : d'.listData ∈ rest := by
      rw [hList] at hListed
      refine (mem_cons.mp hListed).resolve_left ?_
      rintro rfl
      exact hFirst hOut
    have hMoved := FluxnodeList.moveToFront_of_mem h.queue.wellFormed hList hRest d.nLastPaidHeight
    have hEntry : { d'.listData with nLastPaidHeight := d.nLastPaidHeight } = d.listData :=
      h.entry o d d' hStatus hNow
    have hOldOut : d.listData.out = o := (congrArg FluxnodeListData.out hEntry).symm.trans hOut
    rw [hEntry, hOut] at hMoved
    rw [hMoved, Option.getD_some]
    have hNodup := h.queue.wellFormed.nodup
    rw [FluxnodeList.outs, hList, map_cons, nodup_cons] at hNodup
    -- Moving the entry to the front only permutes the outpoints.
    have hPerm : (rest.map (·.out)).Perm (o :: (rest.filter (·.out != o)).map (·.out)) := by
      have hKept : ((rest.filter (·.out != o)).map (·.out)).Nodup :=
        hNodup.2.sublist (filter_sublist.map _)
      refine (perm_ext_iff_of_nodup hNodup.2 (nodup_cons.mpr ⟨by simp, hKept⟩)).mpr
        fun a => ?_
      rw [mem_cons, mem_map, mem_map]
      constructor
      · rintro ⟨e, he, rfl⟩
        by_cases hSame : e.out = o
        · exact .inl hSame
        · exact .inr ⟨e, mem_filter.mpr ⟨he, bne_iff_ne.mpr hSame⟩, rfl⟩
      · rintro (rfl | ⟨e, he, rfl⟩)
        · exact ⟨_, hRest, hOut⟩
        · exact ⟨e, (mem_filter.mp he).1, rfl⟩
    have hOuts : ((d.listData :: first :: rest.filter (·.out != o)).map (·.out)).Perm fl.outs := by
      rw [FluxnodeList.outs, hList, map_cons, map_cons, map_cons, hOldOut]
      exact (List.Perm.swap _ _ _).trans (hPerm.symm.cons _)
    refine ⟨h.queue.wellFormed.of_perm hOuts, ?_, hOuts, fun e => ?_⟩
    · have hSorted := h.queue.sorted
      rw [FluxnodeList.Sorted, hList] at hSorted
      refine pairwise_cons.mpr ⟨fun e he => ?_, hSorted.sublist (filter_sublist.cons_cons _)⟩
      have hMem : e ∈ fl.listConfirmedFluxnodes ∧ e.out ≠ o := by
        rw [hList]
        rcases mem_cons.mp he with rfl | hKept
        · exact ⟨mem_cons_self, hFirst⟩
        · obtain ⟨hIn, hOther⟩ := mem_filter.mp hKept
          exact ⟨mem_cons_of_mem _ hIn, bne_iff_ne.mp hOther⟩
      exact h.least o d hPays hTier hStatus e hMem.1 hMem.2
    · have hSplit : e ∈ first :: rest.filter (·.out != o) ↔
          e ∈ fl.listConfirmedFluxnodes ∧ e.out ≠ o := by
        rw [hList, mem_cons, mem_cons, mem_filter, bne_iff_ne]
        constructor
        · rintro (rfl | ⟨hIn, hOther⟩)
          · exact ⟨.inl rfl, hFirst⟩
          · exact ⟨.inr hIn, hOther⟩
        · rintro ⟨rfl | hIn, hOther⟩
          · exact .inl rfl
          · exact .inr ⟨hIn, hOther⟩
      rw [mem_cons, hSplit]
      constructor
      · rintro (rfl | ⟨hMem, hOther⟩)
        · exact .inr ⟨o, d, d', hPays, hTier, hStatus, hNow, rfl⟩
        · exact .inl ⟨hMem, fun hPaid => hOther
            (h.payee_unique hPays hTier hPaid.1 (h.queue.ofTier e hMem))⟩
      · rintro (⟨hMem, hNotPaid⟩ | ⟨o', a, _, hPaid, hTier', hStatus', _, rfl⟩)
        · refine .inr ⟨hMem, ?_⟩
          rintro rfl
          exact hNotPaid ⟨hPays, d', hNow⟩
        · cases h.payee_unique hPays hTier hPaid hTier'
          cases hStatus.symm.trans hStatus'
          exact .inl rfl

end

end Undoes

section Lists

variable {env : FluxnodeEnv} {g : FluxnodeCache} {nHeight : Nat} {f : COutPoint → NodeStatus}
  {ev : BlockEvents} {pays : COutPoint → Bool} {block : CBlock} {undo : CFluxnodeTxBlockUndo}
  {tierOf : COutPoint → Tier} {tier : Tier} {o : COutPoint}

section

variable (h : Undoable env nHeight block ev pays undo f f)

include h

theorem Undoable.mem_lastPaid_iff {i : COutPoint × Nat} : i ∈ undo.mapLastPaidHeights.toList ↔
      pays i.1 = true ∧ ∃ d, f i.1 = .confirmed d ∧ d.nLastPaidHeight = i.2 := by
  rw [Std.ExtTreeMap.mem_toList_iff_getElem?_eq_some, h.written.lastPaid,
    Option.ite_none_right_eq_some, Option.map_eq_some_iff]
  simp only [NodeStatus.place_confirmed_eq_some]

section

variable (hHolds : g.Holds (statusesAfter env (nHeight + 1) ev pays f))
  (hPlaced : Placed tierOf f)
  (hPlacedAfter : Placed tierOf (statusesAfter env (nHeight + 1) ev pays f))
  (hUndoes : ∀ tier, Undoes tierOf f (statusesAfter env (nHeight + 1) ev pays f) pays tier
    (g.mapFluxnodeList tier))

include hHolds hPlaced hPlacedAfter hUndoes

theorem Undoable.paymentUndone (tier : Tier) :
    PaymentUndone tierOf f (statusesAfter env (nHeight + 1) ev pays f) pays tier
      (g.mapFluxnodeList tier)
      (((disconnectFluxnodes g (nHeight + 1) block undo).undoneState g).cache.mapFluxnodeList
        tier) := by
  obtain ⟨add, ht⟩ := h.trackersUndone hHolds hPlacedAfter
  have hNodup : (undo.mapLastPaidHeights.toList.map fun i => tierOf i.1).Nodup := by
    have hKeys := nodup_keys_toList undo.mapLastPaidHeights
    refine List.Nodup.map_on (fun i hi j hj hTier => ?_) (List.Nodup.of_map _ hKeys)
    have hSame := (hUndoes (tierOf i.1)).payee_unique (h.mem_lastPaid_iff.mp hi).1 rfl
      (h.mem_lastPaid_iff.mp hj).1 hTier.symm
    exact inj_on_of_nodup_map hKeys hi hj hSame.symm
  have hLoop := (FlushState.localTurn_undoPaid_lists fun o d hGet =>
    (hPlaced.of_confirmed (NodeStatus.place_confirmed_eq_some.mp hGet)).2).get_foldl hNodup ht.same
    tier
  rw [ht.lists] at hLoop
  refine hLoop.symm ▸ ?_
  cases hFind : undo.mapLastPaidHeights.toList.find? fun i => decide (tierOf i.1 = tier) with
  | none =>
    refine (hUndoes tier).of_unpaid fun o hPays hTier => ?_
    obtain ⟨d, hStatus, _⟩ := (hUndoes tier).payee o hPays
    have hNot := find?_eq_none.mp hFind (o, d.nLastPaidHeight)
      (h.mem_lastPaid_iff.mpr ⟨hPays, d, hStatus, rfl⟩)
    exact hNot (decide_eq_true hTier)
  | some i =>
    obtain ⟨hMem, hTier⟩ := (find?_key_eq_some_iff hNodup).mp hFind
    obtain ⟨hPays, d, hStatus, hHeight⟩ := h.mem_lastPaid_iff.mp hMem
    rw [Option.elim_some, hStatus, ← hHeight]
    cases hNow : statusesAfter env (nHeight + 1) ev pays f i.1 with
    | confirmed d' =>
      obtain ⟨hSet, hUndone⟩ := (hUndoes tier).of_confirmed hPlacedAfter hPays hTier hStatus hNow
      rw [hSet]
      exact hUndone
    | _ =>
      obtain ⟨hStays, hUndone⟩ := (hUndoes tier).of_expired hPays hTier hStatus
        (by rw [hNow]; simp) d.nLastPaidHeight
      rw [hStays, ite_self]
      exact hUndone

theorem Undoable.flushLists_disconnect (tier : Tier) :
    let fl := ((disconnectFluxnodes g (nHeight + 1) block undo).flush g).1.mapFluxnodeList tier
    fl.WellFormed ∧ fl.Sorted ∧ ∃ fl' : FluxnodeList,
      PaymentUndone tierOf f (statusesAfter env (nHeight + 1) ev pays f) pays tier
        (g.mapFluxnodeList tier) fl' ∧
      ∀ e, e ∈ fl.listConfirmedFluxnodes ↔
        (∃ o d, f o = .confirmed d ∧ (ev.node o).expires env (nHeight + 1) d = true ∧
          d.nTier = tier ∧ o ∉ (g.mapFluxnodeList tier).outs ∧ d.listData = e) ∨
        (e ∈ fl'.listConfirmedFluxnodes ∧ (ev.node e.out).confirm = none) := by
  intro fl
  obtain ⟨add, ht⟩ := h.trackersUndone hHolds hPlacedAfter
  have hUndone := h.paymentUndone hHolds hPlaced hPlacedAfter hUndoes tier
  have hSame : SameCollected _ ((disconnectFluxnodes g (nHeight + 1) block undo).undoneState g) :=
    SameCollected.foldl FlushState.sameCollected_undoPaid _ _
  -- What comes back is what the block had expired, unless its outdated entry is still there.
  have hAdded : ∀ d, d ∈ ((disconnectFluxnodes g (nHeight + 1) block undo).undoneState
      g).vecNodesToAdd ∧ d.nTier = tier ↔
      ∃ o, f o = .confirmed d ∧ (ev.node o).expires env (nHeight + 1) d = true ∧
        d.nTier = tier ∧ o ∉ (g.mapFluxnodeList tier).outs := by
    intro d
    rw [hSame.vec, ht.vec, ht.added]
    constructor
    · rintro ⟨⟨⟨o, hStatus, hExpires⟩, hNew⟩, hTier⟩
      refine ⟨o, hStatus, hExpires, hTier, fun hIn => ?_⟩
      rw [listsHave, hTier, (hPlaced.of_confirmed hStatus).1,
        ((hUndoes tier).queue.wellFormed.set o).mpr hIn] at hNew
      cases hNew
    · rintro ⟨o, hStatus, hExpires, hTier, hNew⟩
      refine ⟨⟨⟨o, hStatus, hExpires⟩, ?_⟩, hTier⟩
      rw [listsHave, hTier, (hPlaced.of_confirmed hStatus).1, ← Bool.not_eq_true,
        (hUndoes tier).queue.wellFormed.set o]
      exact hNew
  have hAddable : LocalFluxnodeCache.Addable
      ((disconnectFluxnodes g (nHeight + 1) block undo).undoneState g) tier := by
    refine ⟨?_, fun d hd hTier hOut => ?_, fun d hd hTier => ?_⟩
    · rw [hSame.vec, ht.vec]
      exact ht.nodup.sublist (filter_sublist.map _)
    · obtain ⟨o, hStatus, _, _, hNew⟩ := (hAdded d).mp ⟨hd, hTier⟩
      rw [(hPlaced.of_confirmed hStatus).1] at hOut
      exact absurd (hUndone.outs.mem_iff.mp hOut) hNew
    · rw [hSame.vec, ht.vec] at hd
      rw [hSame.addTiers, ht.addTiers]
      exact ⟨d, hd, hTier⟩
  have hFlush : fl = LocalFluxnodeCache.flushLists _ _ tier := congrArg
    (fun c : FluxnodeCache => c.mapFluxnodeList tier)
    (LocalFluxnodeCache.flush_of_disconnect onlyUndo_disconnectFluxnodes g)
  rw [hFlush]
  refine ⟨LocalFluxnodeCache.wellFormed_flushLists hAddable hUndone.wellFormed,
    LocalFluxnodeCache.sorted_flushLists hAddable hUndone.wellFormed (.inr hUndone.sorted),
    _, hUndone, fun e => ?_⟩
  rw [LocalFluxnodeCache.mem_flushLists]
  refine or_congr ?_ (and_congr_right fun hMem => ?_)
  · constructor
    · rintro ⟨d, hd, hTier, hEntry⟩
      obtain ⟨o, hStatus, hExpires, _, hNew⟩ := (hAdded d).mp ⟨hd, hTier⟩
      exact ⟨o, d, hStatus, hExpires, hTier, hNew, hEntry⟩
    · rintro ⟨o, d, hStatus, hExpires, hTier, hNew, hEntry⟩
      exact ⟨d, ((hAdded d).mpr ⟨o, hStatus, hExpires, hTier, hNew⟩).1, hTier, hEntry⟩
  · rw [hSame.removeTiers, hSame.set, ht.removeTiers, ht.set, ← Option.not_isSome_iff_eq_none]
    have hTier : tierOf e.out = tier := by
      obtain ⟨e', hMem', hOut⟩ := mem_map.mp (hUndone.outs.mem_iff.mp (mem_map_of_mem hMem))
      rw [← hOut]
      exact (hUndoes tier).queue.ofTier e' hMem'
    constructor
    · exact fun hKept hConfirm => hKept ⟨⟨e.out, hConfirm, hTier⟩, hConfirm⟩
    · exact fun hNone hBoth => hNone hBoth.2

/-- Disconnecting the block keeps the list of a tier a queue. -/
theorem Undoable.queueOf_disconnect (tier : Tier) :
    QueueOf tierOf f tier
      (((disconnectFluxnodes g (nHeight + 1) block undo).flush g).1.mapFluxnodeList tier) := by
  obtain ⟨hWell, hSorted, fl', hUndone, hMem⟩ :=
    h.flushLists_disconnect hHolds hPlaced hPlacedAfter hUndoes tier
  have hQueue := (hUndoes tier).queue
  refine ⟨hWell, hSorted, fun e he => ?_, fun o d hStatus hTier => (hMem _).mpr ?_⟩
  · rcases (hMem e).mp he with ⟨o, d, hStatus, _, hTier, _, rfl⟩ | ⟨hIn, _⟩
    · obtain ⟨hKey, hOwn⟩ := hPlaced.of_confirmed hStatus
      rw [show d.listData.out = o from hKey, ← hOwn, hTier]
    · obtain ⟨e', hMem', hOut⟩ := mem_map.mp (hUndone.outs.mem_iff.mp (mem_map_of_mem hIn))
      rw [← hOut]
      exact hQueue.ofTier e' hMem'
  · obtain ⟨hKey, hOwn⟩ := hPlaced.of_confirmed hStatus
    have hOut : d.listData.out = o := hKey
    have hConfirm : (ev.node d.listData.out).confirm = none := by
      rw [hOut, ← Option.not_isSome_iff_eq_none]
      intro hSome
      obtain ⟨started, hStarted⟩ := (h.admits o).confirm hSome
      rw [hStatus] at hStarted
      cases hStarted
    cases hExpires : (ev.node o).expires env (nHeight + 1) d with
    | true =>
      have hGone : ∀ d', statusesAfter env (nHeight + 1) ev pays f o ≠ .confirmed d' := by
        simp [statusesAfter, hStatus, NodeStatus.step, hExpires]
      by_cases hListed : o ∈ (g.mapFluxnodeList tier).outs
      · -- the entry is still there, and is the one of the record
        obtain ⟨e, he, rfl⟩ := mem_map.mp hListed
        have hEntry := (hUndoes tier).back e he hGone d hStatus
        rw [← hEntry] at hConfirm ⊢
        refine .inr ⟨(hUndone.mem e).mpr (.inl ⟨he, ?_⟩), hConfirm⟩
        rintro ⟨_, d', hNow⟩
        exact hGone d' hNow
      · exact .inl ⟨o, d, hStatus, hExpires, hTier, hListed, rfl⟩
    | false =>
      obtain ⟨d', hNow⟩ : ∃ d', statusesAfter env (nHeight + 1) ev pays f o = .confirmed d' := by
        simp [statusesAfter, hStatus, NodeStatus.step, hExpires]
      refine .inr ⟨(hUndone.mem _).mpr ?_, hConfirm⟩
      cases hPays : pays o with
      | true => exact .inr ⟨o, d, d', hPays, hOwn ▸ hTier, hStatus, hNow, rfl⟩
      | false =>
        refine .inl ⟨?_, fun hPaid => ?_⟩
        · have hEntry : d'.listData = d.listData ∧ d'.nTier = d.nTier := by
            rcases NodeStatus.step_eq_confirmed hNow with
              ⟨started, _, hStarted, _⟩ | ⟨old, d'', hOld, _, _, hEntry, hSameTier, rfl⟩
            · rw [hStatus] at hStarted
              cases hStarted
            · cases hStatus.symm.trans hOld
              rw [hPays]
              exact ⟨hEntry, hSameTier⟩
          rw [← hEntry.1]
          exact hQueue.listed o d' hNow (hEntry.2.trans hTier)
        · rw [hOut, hPays] at hPaid
          cases hPaid.1

theorem Undoable.mem_of_mem_disconnect {e : FluxnodeListData}
    (he : e ∈ (((disconnectFluxnodes g (nHeight + 1) block undo).flush g).1.mapFluxnodeList
      tier).listConfirmedFluxnodes)
    (hNot : ∀ d, f e.out ≠ .confirmed d) :
    e ∈ (g.mapFluxnodeList tier).listConfirmedFluxnodes ∧
      ∀ d, statusesAfter env (nHeight + 1) ev pays f e.out ≠ .confirmed d := by
  obtain ⟨_, _, fl', hUndone, hMem⟩ :=
    h.flushLists_disconnect hHolds hPlaced hPlacedAfter hUndoes tier
  have hOther : ∀ o d, f o = .confirmed d → d.listData ≠ e := by
    rintro o d hStatus rfl
    refine hNot d ?_
    rwa [show d.listData.out = o from (hPlaced.of_confirmed hStatus).1]
  have hKept : e ∈ fl'.listConfirmedFluxnodes ∧ (ev.node e.out).confirm = none := by
    refine ((hMem e).mp he).resolve_left ?_
    rintro ⟨o, d, hStatus, _, _, _, hEntry⟩
    exact hOther o d hStatus hEntry
  have hOld : e ∈ (g.mapFluxnodeList tier).listConfirmedFluxnodes := by
    rcases (hUndone.mem e).mp hKept.1 with ⟨hOld, _⟩ | ⟨o, d, _, _, _, hStatus, _, hEntry⟩
    · exact hOld
    · exact absurd hEntry (hOther o d hStatus)
  refine ⟨hOld, fun d hNow => ?_⟩
  rcases NodeStatus.step_eq_confirmed hNow with ⟨_, ip, _, hConfirm, _⟩ | ⟨old, _, hStatus, _⟩
  · rw [hKept.2] at hConfirm
    cases hConfirm
  · exact hNot old hStatus

end

end

end Lists

end CloudService
