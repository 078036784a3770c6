/-
  Who is paid next. The list of a tier is a queue of its confirmed nodes (`QueueOf`), with
  entries of expired nodes in between.
-/

import CloudService.Fluxnode.Queues
import CloudService.Fluxnode.Tiers

namespace CloudService

open Pointwise List

variable {d : FluxnodeCacheData} {e : FluxnodeListData} {o : COutPoint}

def Placed (tierOf : COutPoint → Tier) (f : COutPoint → NodeStatus) : Prop :=
  ∀ o d, (f o).record? = some d → d.collateralIn = o ∧ d.nTier = tierOf o

/-- The list of a tier is a queue of the confirmed nodes of the tier. -/
structure QueueOf (tierOf : COutPoint → Tier) (f : COutPoint → NodeStatus) (tier : Tier)
    (fl : FluxnodeList) : Prop where
  wellFormed : fl.WellFormed
  sorted : fl.Sorted
  ofTier : ∀ e ∈ fl.listConfirmedFluxnodes, tierOf e.out = tier
  listed : ∀ o d, f o = .confirmed d → d.nTier = tier → d.listData ∈ fl.listConfirmedFluxnodes

section Front

variable {tierOf : COutPoint → Tier} {f : COutPoint → NodeStatus} {tier : Tier} {fl : FluxnodeList}
  {confirmed : COutPoint → Bool} {o o' : COutPoint}

theorem Placed.of_confirmed (h : Placed tierOf f)
    (hStatus : f o = .confirmed d) : d.collateralIn = o ∧ d.nTier = tierOf o :=
  h o d (by rw [hStatus]; rfl)

theorem IsNextPayee.unique (h : IsNextPayee f tier o) (h' : IsNextPayee f tier o') : o = o' := by
  obtain ⟨d, hStatus, hTier, hLeast⟩ := h
  obtain ⟨d', hStatus', hTier', hLeast'⟩ := h'
  by_contra hNe
  have hLess := hLeast o' d' hStatus' hTier' (Ne.symm hNe)
  rw [FluxnodeListData.lt_asymm (hLeast' o d hStatus hTier hNe)] at hLess
  cases hLess

namespace QueueOf

section

variable (h : QueueOf tierOf f tier fl) (hPlaced : Placed tierOf f)

include h hPlaced

theorem entry_eq (hMem : e ∈ fl.listConfirmedFluxnodes) (hStatus : f e.out = .confirmed d) :
    e = d.listData := by
  obtain ⟨hKey, hTier⟩ := hPlaced.of_confirmed hStatus
  have hOwn := h.listed _ d hStatus (hTier.trans (h.ofTier e hMem))
  exact inj_on_of_nodup_map h.wellFormed.nodup hMem hOwn hKey.symm

section

variable (hConfirmed : ∀ o, confirmed o = (f o).place.confirmed.isSome)

include hConfirmed

theorem isNextPayee {rest : List FluxnodeListData}
    (hClean : LazyQueue.clean (·.out) confirmed fl.listConfirmedFluxnodes = e :: rest) :
    IsNextPayee f tier e.out := by
  have hMem : e ∈ fl.listConfirmedFluxnodes :=
    LazyQueue.mem_of_mem_clean (hClean ▸ mem_cons_self)
  have hLive := LazyQueue.live_of_clean_eq_cons hClean
  rw [hConfirmed, Option.isSome_iff_exists] at hLive
  obtain ⟨d, hPlace⟩ := hLive
  have hStatus := NodeStatus.place_confirmed_eq_some.mp hPlace
  have hEntry := h.entry_eq hPlaced hMem hStatus
  refine ⟨d, hStatus, (hPlaced.of_confirmed hStatus).2.trans (h.ofTier e hMem), ?_⟩
  intro o' d' hStatus' hTier' hNe
  have hOut : d'.listData.out = o' := (hPlaced.of_confirmed hStatus').1
  have hLive' : confirmed d'.listData.out = true := by
    rw [hConfirmed, hOut, hStatus']
    rfl
  rw [← hEntry]
  refine LazyQueue.lt_of_clean_eq_cons h.sorted hClean _ (h.listed o' d' hStatus' hTier') hLive' ?_
  rintro rfl
  exact hNe hOut.symm

theorem clean_eq_nil (hClean : LazyQueue.clean (·.out) confirmed fl.listConfirmedFluxnodes = [])
    (hStatus : f o = .confirmed d) : d.nTier ≠ tier := by
  intro hTier
  have hDead := LazyQueue.clean_eq_nil_iff.mp hClean _ (h.listed o d hStatus hTier)
  rw [hConfirmed, show d.listData.out = o from (hPlaced.of_confirmed hStatus).1, hStatus] at hDead
  cases hDead

theorem cleaned :
    QueueOf tierOf f tier (fl.cleaned confirmed) where
  wellFormed := h.wellFormed.cleaned
  sorted := by
    rw [FluxnodeList.Sorted, h.wellFormed.cleaned_eq]
    exact h.sorted.sublist LazyQueue.clean_suffix.sublist
  ofTier e hMem := by
    rw [h.wellFormed.cleaned_eq] at hMem
    exact h.ofTier e (LazyQueue.mem_of_mem_clean hMem)
  listed o d hStatus hTier := by
    rw [h.wellFormed.cleaned_eq]
    refine LazyQueue.mem_clean_of_live (h.listed o d hStatus hTier) ?_
    rw [hConfirmed, show d.listData.out = o from (hPlaced.of_confirmed hStatus).1, hStatus]
    rfl

end

end

end QueueOf

end Front

/-! ## GetNextPayment -/

structure Queued (tierOf : COutPoint → Tier) (f : COutPoint → NodeStatus) (g : FluxnodeCache) :
    Prop where
  holds : g.Holds f
  placed : Placed tierOf f
  queue : ∀ tier, QueueOf tierOf f tier (g.mapFluxnodeList tier)

namespace Queued

variable {env : FluxnodeEnv} {tierOf : COutPoint → Tier} {f : COutPoint → NodeStatus}
  {g : FluxnodeCache} {tier : Tier} {coins : CoinsView} {nHeight : Nat}

theorem contains_eq (h : Queued tierOf f g) (o : COutPoint) :
    g.mapConfirmedFluxnodeData.contains o = (f o).place.confirmed.isSome := by
  rw [Std.ExtTreeMap.contains_eq_isSome_getElem?, h.holds.confirmed]

theorem getNextPayment (h : Queued tierOf f g) (coins : CoinsView) (tier : Tier) :
    Queued tierOf f (g.getNextPayment env coins tier).2 where
  holds := h.holds
  placed := h.placed
  queue a := by
    simp only [FluxnodeCache.getNextPayment, FluxnodeCache.setList, Function.update_apply]
    split
    · rename_i hTier
      rw [hTier]
      exact (h.queue tier).cleaned h.placed h.contains_eq
    · exact h.queue a

theorem paymentDestination_isSome (coins : CoinsView)
    (hValid : (NodeStatus.confirmed d).Valid env nHeight o) :
    ∃ dest, FluxnodeCache.paymentDestination env coins o d = some dest := by
  unfold FluxnodeCache.paymentDestination
  split
  · exact ⟨_, rfl⟩
  · rw [hValid.2]
    exact ⟨_, rfl⟩

theorem getNextPayment_cases (h : Queued tierOf f g) (hValid : ∀ o, (f o).Valid env nHeight o)
    (coins : CoinsView) (tier : Tier) :
    ((g.getNextPayment env coins tier).1 = none ∧ ∀ o d, f o = .confirmed d → d.nTier ≠ tier) ∨
      ∃ o d dest, (g.getNextPayment env coins tier).1 = some (o, dest) ∧ f o = .confirmed d ∧
        IsNextPayee f tier o ∧ FluxnodeCache.paymentDestination env coins o d = some dest := by
  have hQueue := h.queue tier
  unfold FluxnodeCache.getNextPayment
  dsimp only
  rw [hQueue.wellFormed.nextConfirmed_fst]
  cases hClean : LazyQueue.clean (·.out) g.mapConfirmedFluxnodeData.contains
      (g.mapFluxnodeList tier).listConfirmedFluxnodes with
  | nil =>
    exact .inl ⟨rfl, fun o d hStatus => hQueue.clean_eq_nil h.placed h.contains_eq hClean hStatus⟩
  | cons e rest =>
    have hPayee := hQueue.isNextPayee h.placed h.contains_eq hClean
    obtain ⟨d, hStatus, _⟩ := id hPayee
    have hKnown := hValid e.out
    rw [hStatus] at hKnown
    obtain ⟨dest, hDest⟩ := paymentDestination_isSome coins hKnown
    refine .inr ⟨e.out, d, dest, ?_, hStatus, hPayee, hDest⟩
    rw [head?_cons, Option.map_some, Option.bind_some, h.holds.confirmed, hStatus]
    simp [NodeStatus.place, hDest]

theorem getNextPayment_eq {g' : FluxnodeCache} (h : Queued tierOf f g) (h' : Queued tierOf f g')
    (hValid : ∀ o, (f o).Valid env nHeight o) (coins : CoinsView) (tier : Tier) :
    (g.getNextPayment env coins tier).1 = (g'.getNextPayment env coins tier).1 := by
  rcases h.getNextPayment_cases hValid coins tier with ⟨hNone, hEmpty⟩ |
    ⟨o, d, dest, hSome, hStatus, hPayee, hDest⟩
  · rcases h'.getNextPayment_cases hValid coins tier with ⟨hNone', _⟩ |
      ⟨o', d', _, _, hStatus', hPayee', _⟩
    · rw [hNone, hNone']
    · obtain ⟨d'', hStatus'', hTier, _⟩ := hPayee'
      exact absurd hTier (hEmpty o' d'' hStatus'')
  · rcases h'.getNextPayment_cases hValid coins tier with ⟨_, hEmpty'⟩ |
      ⟨o', d', dest', hSome', hStatus', hPayee', hDest'⟩
    · obtain ⟨d'', hStatus'', hTier, _⟩ := hPayee
      exact absurd hTier (hEmpty' o d'' hStatus'')
    · cases hPayee.unique hPayee'
      cases hStatus.symm.trans hStatus'
      rw [hSome, hSome', ← Option.some.inj (hDest.symm.trans hDest')]

end Queued

/-! ## Connecting a block -/

namespace FullNode

variable {env : FluxnodeEnv} {s : FullNode} {tierOf : COutPoint → Tier}
  {f : COutPoint → NodeStatus} {nHeight : Nat}

theorem queued_checkedCache (h : Queued tierOf f s.fluxnodeCache) :
    Queued tierOf f (s.checkedCache env) := by
  unfold checkedCache
  split
  · exact foldlRecOn (motive := Queued tierOf f) Tier.all _ h
      fun g hg tier _ => hg.getNextPayment s.node.view tier
  · exact h

theorem paidNodes_eq_some_iff (h : Queued tierOf f s.fluxnodeCache)
    (hValid : ∀ o, (f o).Valid env nHeight o) {tier : Tier} {i : Nat × COutPoint} :
    s.paidNodes env tier = some i ↔
      s.paysFluxnodes env = true ∧ i.1 = s.node.nextHeight ∧ IsNextPayee f tier i.2 := by
  unfold paidNodes nextPayment
  cases s.paysFluxnodes env with
  | false => simp
  | true =>
    rcases h.getNextPayment_cases hValid s.node.view tier with
      ⟨hNone, hEmpty⟩ | ⟨o, d, dest, hSome, hStatus, hPayee, _⟩
    · simp only [hNone, if_true, Option.map_none, true_and, reduceCtorEq, false_iff, not_and]
      rintro - ⟨d, hStatus, hTier, _⟩
      exact hEmpty _ d hStatus hTier
    · simp only [hSome, if_true, Option.map_some, Option.some.injEq, true_and]
      constructor
      · rintro rfl
        exact ⟨rfl, hPayee⟩
      · rintro ⟨hHeight, hPayee'⟩
        exact Prod.ext hHeight.symm (hPayee.unique hPayee')

end FullNode

section Connect

variable {env : FluxnodeEnv} {g : FluxnodeCache} {nHeight : Nat} {f : COutPoint → NodeStatus}
  {coins : CoinsView} {block : CBlock} {mapPaidNodes : Tier → Option (Nat × COutPoint)}
  {l : LocalFluxnodeCache} {undo : CFluxnodeTxBlockUndo} {ev : BlockEvents} {t : FlushState}
  {add : List FluxnodeCacheData} {tier : Tier} {tierOf : COutPoint → Tier}

theorem LocalFluxnodeCache.paidList_of_paid {p : COutPoint → Place} {fl : FluxnodeList}
    (hWell : fl.WellFormed) {i : Nat × COutPoint} (hPaid : l.mapPaidNodes tier = some i)
    {first : FluxnodeListData} {rest : List FluxnodeListData}
    (hList : fl.listConfirmedFluxnodes = first :: rest) (hFirst : first.out = i.2)
      (hGet : (p i.2).confirmed = some d) :
    (l.paidList p tier fl).listConfirmedFluxnodes = rest ++ [(d.withPaid i.1).listData] := by
  have hSet : fl.setConfirmedTxInList.contains i.2 = true := by
    rw [hWell.set, FluxnodeList.outs, hList, ← hFirst]
    exact mem_cons_self
  rw [paidList, hPaid, Option.elim_some, hGet, Option.elim_some, FluxnodeList.payFront, hList]
  simp [hSet, hFirst]

theorem TrackersFlushed.placed_add (h : TrackersFlushed env nHeight ev f g.mapFluxnodeList t add)
    (hPlaced : Placed tierOf f) (hd : d ∈ add) :
    (∃ started, f d.collateralIn = .started started) ∧ d.nTier = tierOf d.collateralIn := by
  obtain ⟨o, started, ip, hStarted, _, rfl⟩ := (h.added d).mp hd
  obtain ⟨hKey, hTier⟩ := hPlaced o started (by rw [hStarted]; rfl)
  have hOut : (started.confirm nHeight ip).collateralIn = o := hKey
  rw [hOut]
  exact ⟨⟨started, hStarted⟩, hTier⟩

theorem TrackersFlushed.mem_flushLists
    (h : TrackersFlushed env nHeight ev f g.mapFluxnodeList t add) (hPlaced : Placed tierOf f)
    (hQueue : QueueOf tierOf f tier (g.mapFluxnodeList tier)) {u : FlushState}
    (hSame : SameCollected t u)
    (hOuts : (u.cache.mapFluxnodeList tier).outs.Perm (g.mapFluxnodeList tier).outs) :
    e ∈ (l.flushLists u tier).listConfirmedFluxnodes ↔
      (∃ d ∈ add, d.nTier = tier ∧ d.listData = e) ∨
        (e ∈ (u.cache.mapFluxnodeList tier).listConfirmedFluxnodes ∧
          ∀ d ∈ add, d.collateralIn ≠ e.out) := by
  rw [LocalFluxnodeCache.mem_flushLists, hSame.vec, h.vec]
  refine or_congr Iff.rfl (and_congr_right fun hMem => ?_)
  rw [hSame.removeTiers, hSame.set, h.removeTiers, h.set]
  constructor
  · intro hKept d hd hOut
    have hIn : e.out ∈ (g.mapFluxnodeList tier).outs := hOuts.mem_iff.mp (mem_map_of_mem hMem)
    obtain ⟨e', hMem', hOut'⟩ := mem_map.mp hIn
    have hTier : d.nTier = tier := by
      rw [(h.placed_add hPlaced hd).2, hOut, ← hOut', hQueue.ofTier e' hMem']
    have hHas : listsHave g.mapFluxnodeList d = true := by
      rw [listsHave, hTier, hQueue.wellFormed.set, hOut]
      exact hIn
    exact hKept ⟨⟨d, hd, hHas, hTier⟩, d, hd, hHas, hOut⟩
  · rintro hNone ⟨_, d, hd, _, hOut⟩
    exact hNone d hd hOut

theorem ConnectedNodes.mem_paidList
    (h : ConnectedNodes env (nHeight + 1) coins block mapPaidNodes f l undo)
    (hQueued : Queued tierOf f g)
    (hFront : ∀ tier i, mapPaidNodes tier = some i → ∃ first rest,
      (g.mapFluxnodeList tier).listConfirmedFluxnodes = first :: rest ∧ first.out = i.2)
    {p : COutPoint → Place} {old d' : FluxnodeCacheData}
    (hStatus : f o = .confirmed old) (hTier : old.nTier = tier)
    (hPlace : (p o).confirmed = some d') (hEntry : d'.listData = old.listData) :
    (if l.pays o then d'.withPaid (nHeight + 1) else d').listData ∈
      (l.paidList p tier (g.mapFluxnodeList tier)).listConfirmedFluxnodes := by
  have hQueue := hQueued.queue tier
  obtain ⟨hKey, hOwn⟩ := hQueued.placed.of_confirmed hStatus
  cases hPays : l.pays o with
  | true =>
    -- the payee of a tier is a node of the tier
    obtain ⟨tier', i, hPaid, rfl⟩ := LocalFluxnodeCache.pays_eq_true.mp hPays
    obtain ⟨first, rest, hList, hFirst⟩ := hFront tier' i (h.paid ▸ hPaid)
    have hSame : tier' = tier := by
      rw [← hTier, hOwn, ← hFirst, (hQueued.queue tier').ofTier first (hList ▸ mem_cons_self)]
    subst hSame
    rw [LocalFluxnodeCache.paidList_of_paid hQueue.wellFormed hPaid hList hFirst hPlace,
      (h.connects i.2).paidHeight tier' i hPaid]
    simp
  | false =>
    have hOld : d'.listData ∈ (g.mapFluxnodeList tier).listConfirmedFluxnodes := by
      rw [hEntry]
      exact hQueue.listed o old hStatus hTier
    cases hPaid : l.mapPaidNodes tier with
    | none =>
      rw [LocalFluxnodeCache.paidList, hPaid]
      exact hOld
    | some i =>
      obtain ⟨first, rest, hList, hFirst⟩ := hFront tier i (h.paid ▸ hPaid)
      have hNe : d'.listData ≠ first := by
        intro hSame
        have hOut : i.2 = o := by
          rw [← hFirst, ← hSame, hEntry]
          exact hKey
        rw [LocalFluxnodeCache.pays_eq_true.mpr ⟨tier, i, hPaid, hOut⟩] at hPays
        cases hPays
      cases hGet : (p i.2).confirmed with
      | none =>
        rw [LocalFluxnodeCache.paidList, hPaid, Option.elim_some, hGet]
        exact hOld
      | some d =>
        rw [LocalFluxnodeCache.paidList_of_paid hQueue.wellFormed hPaid hList hFirst hGet]
        rw [hList] at hOld
        exact mem_append_left _ ((mem_cons.mp hOld).resolve_left hNe)

/-- A connected block keeps the list of a tier a queue. -/
theorem ConnectedNodes.queueOf_flush
    (h : ConnectedNodes env (nHeight + 1) coins block mapPaidNodes f l undo)
    (hQueued : Queued tierOf f g) (hValid : ∀ o, (f o).Valid env nHeight o)
    (hAdmits : ∀ o, (f o).Admits env (nHeight + 1) o
      ((fluxnodeEvents env (nHeight + 1) coins block).node o))
    (hFront : ∀ tier i, mapPaidNodes tier = some i → ∃ first rest,
      (g.mapFluxnodeList tier).listConfirmedFluxnodes = first :: rest ∧ first.out = i.2)
    (tier : Tier) :
    QueueOf tierOf (fun o => (f o).step env (nHeight + 1)
      ((fluxnodeEvents env (nHeight + 1) coins block).node o) (l.pays o)) tier
      ((l.flush g).1.mapFluxnodeList tier) := by
  obtain ⟨add, ht⟩ := h.trackersFlushed hQueued.holds hValid hAdmits
  obtain ⟨hSame, hLists⟩ := l.paidState_eq g
  have hQueue := hQueued.queue tier
  obtain ⟨hPaidWell, hPaidOuts⟩ := ht.paidList (l := l) hValid hAdmits hQueue.wellFormed
  have hList := hLists tier
  rw [ht.lists] at hList
  rw [← hList] at hPaidWell hPaidOuts
  have hAddable := ht.addable hSame hQueue.wellFormed hPaidOuts
  have hMem := fun e => ht.mem_flushLists (l := l) hQueued.placed hQueue hSame hPaidOuts (e := e)
  rw [(LocalFluxnodeCache.flush_of_connect h.noUndo.paid g).1]
  refine ⟨LocalFluxnodeCache.wellFormed_flushLists hAddable hPaidWell,
    LocalFluxnodeCache.sorted_flushLists hAddable hPaidWell ?_, fun e he => ?_,
    fun o d hStatus hTier => ?_⟩
  -- `Flush` sorts the list of a tier that it has paid.
  · cases hPaid : l.mapPaidNodes tier with
    | some i => exact .inl rfl
    | none =>
      refine .inr ?_
      rw [hList, LocalFluxnodeCache.paidList, hPaid]
      exact hQueue.sorted
  · rcases (hMem e).mp he with ⟨d, hd, hTier, rfl⟩ | ⟨hOld, _⟩
    · exact (ht.placed_add hQueued.placed hd).2.symm.trans hTier
    · obtain ⟨e', hMem', hOut'⟩ := mem_map.mp (hPaidOuts.mem_iff.mp (mem_map_of_mem hOld))
      rw [← hOut']
      exact hQueue.ofTier e' hMem'
  · rw [hMem]
    rcases NodeStatus.step_eq_confirmed hStatus with
      ⟨started, ip, hStarted, hConfirm, rfl⟩ | ⟨old, d', hOld, _, hStep, hEntry, hSameTier, rfl⟩
    · exact .inl ⟨_, (ht.added _).mpr ⟨o, started, ip, hStarted, hConfirm, rfl⟩, hTier, rfl⟩
    · have hOldTier : old.nTier = tier := by
        rw [← hSameTier, ← hTier]
        split <;> rfl
      have hPlace : ((l.flushConfirms (l.flushStarts { cache := g })).place o).confirmed =
          some d' := by
        rw [ht.place, hStep]
        rfl
      refine .inr ⟨?_, fun a ha hOut => ?_⟩
      · rw [hList]
        exact h.mem_paidList hQueued hFront hOld hOldTier hPlace hEntry
      · have hKey : (if l.pays o then d'.withPaid (nHeight + 1) else d').listData.out = o := by
          refine Eq.trans ?_ (hQueued.placed.of_confirmed hOld).1
          refine Eq.trans ?_ (congrArg FluxnodeListData.out hEntry)
          split <;> rfl
        obtain ⟨⟨started, hStarted⟩, _⟩ := ht.placed_add hQueued.placed ha
        rw [hOut, hKey, hOld] at hStarted
        cases hStarted

end Connect

/-! ## Runs -/

structure FollowsLedger (env : FluxnodeEnv) (txs : List CTransaction) (s : FullNode) : Prop where
  tracks : Tracks env s
  queued : Queued (collateralTier env.toEnv txs) (ledger env s.node.chain.reverse) s.fluxnodeCache
  known : ∀ tx ∈ chainTxs s.node.chain.reverse.dropLast, tx ∈ txs

namespace FollowsLedger

variable {env : FluxnodeEnv} {txs : List CTransaction} {s s' : FullNode} {block : CBlock}

theorem init : FollowsLedger env txs (.init env) where
  tracks := .init
  queued :=
    { holds := fun _ => by simp [FullNode.init, FluxnodeCache.place, NodeStatus.place,
      NodeState.init, ledger]
      placed := fun _ _ hRecord => by cases hRecord
      queue := fun _ => ⟨.empty, List.Pairwise.nil, fun _ hMem => (by cases hMem),
        fun _ _ hStatus => (by cases hStatus)⟩ }
  known := fun _ hMem => by cases hMem

theorem valid (h : FollowsLedger env txs s) :
    ∃ nHeight, ∀ o, (ledger env s.node.chain.reverse o).Valid env nHeight o := by
  obtain ⟨prev, chain, hChain⟩ := h.tracks.chain_eq
  have hIndexed := h.tracks.chain
  rw [hChain] at hIndexed ⊢
  exact ⟨chain.length, h.tracks.index.ledger_valid hIndexed⟩

theorem pays_eq (h : FollowsLedger env txs s) {prev : CBlock} {chain : List CBlock}
    (hChain : s.node.chain.reverse = prev :: chain) {l : LocalFluxnodeCache}
    (hPaid : l.mapPaidNodes = s.paidNodes env) (o : COutPoint) :
    l.pays o = ledgerPays env (chain.length + 1) (ledger env (prev :: chain)) o := by
  obtain ⟨nHeight, hValid⟩ := h.valid
  have hQueued := h.queued
  rw [hChain] at hValid hQueued
  have hHeight := FullNode.nextHeight_eq hChain
  rw [Bool.eq_iff_iff, LocalFluxnodeCache.pays_eq_true, hPaid]
  simp only [FullNode.paidNodes_eq_some_iff hQueued hValid, ledgerPays_eq_true,
    FullNode.paysFluxnodes, decide_eq_true_eq, hHeight]
  constructor
  · rintro ⟨tier, i, ⟨hStart, _, hPayee⟩, rfl⟩
    exact ⟨hStart, tier, hPayee⟩
  · rintro ⟨hStart, tier, hPayee⟩
    exact ⟨tier, (chain.length + 1, o), ⟨hStart, rfl, hPayee⟩, rfl⟩

theorem connect (h : FollowsLedger env txs s) (hIds : CollisionFree env.toEnv txs)
    (hTxs : ∀ tx ∈ block.vtx, tx ∈ txs) (hConnect : s.connect env block = .ok s') :
    FollowsLedger env txs s' := by
  obtain ⟨prev, chain, hChain⟩ := h.tracks.chain_eq
  have hQueued := h.queued
  have hKnown := h.known
  rw [hChain] at hQueued hKnown
  obtain ⟨l, undo, hStep⟩ := h.tracks.advances hConnect hChain hQueued.holds fun o => .refl _
  have hTracks := h.tracks.connect hConnect
  have hExtended := hStep.chain_eq hChain
  have hTxs' : ∀ tx ∈ chainTxs (block :: prev :: chain).dropLast, tx ∈ txs := by
    intro tx hMem
    rcases mem_append.mp (show tx ∈ block.vtx ++ chainTxs (prev :: chain).dropLast from hMem)
      with hNew | hOld
    · exact hTxs tx hNew
    · exact hKnown tx hOld
  have hLedger : (fun o => (ledger env (prev :: chain) o).step env (chain.length + 1)
      ((chainEvents env (prev :: chain) block).node o) (l.pays o)) =
      ledger env (block :: prev :: chain) := by
    funext o
    rw [h.pays_eq hChain hStep.connected.paid]
    rfl
  have hHolds := hStep.holds
  rw [hLedger] at hHolds
  have hIndexed := hTracks.chain
  rw [hExtended] at hIndexed
  refine ⟨hTracks, hExtended ▸ ⟨hHolds, fun o d hRecord => ?_, fun tier => ?_⟩, hExtended ▸ hTxs'⟩
  · exact ⟨(hTracks.index.ledger_valid hIndexed o).collateralIn hRecord,
      tier_of_ledger hIds hTxs' hRecord⟩
  · rw [← hLedger, hStep.flush]
    exact hStep.connected.queueOf_flush (FullNode.queued_checkedCache hQueued)
      hStep.undoable.valid hStep.undoable.admits
      (fun tier i hPaid => FullNode.paidNodes_front (hQueued.queue tier).wellFormed hPaid) tier

end FollowsLedger

/-! ## The lists make no difference -/

structure SameButLists (s t : FullNode) : Prop where
  node : t.node = s.node
  index : t.mapBlockIndex = s.mapBlockIndex
  place : ∀ o, t.fluxnodeCache.place o = s.fluxnodeCache.place o

section Lists

variable {env : FluxnodeEnv} {tierOf : COutPoint → Tier} {f : COutPoint → NodeStatus}
  {s t : FullNode} {block : CBlock} {nHeight : Nat}

theorem SameButLists.cache_eq (h : SameButLists s t) :
    t.fluxnodeCache =
      { s.fluxnodeCache with mapFluxnodeList := t.fluxnodeCache.mapFluxnodeList } := by
  have hStarted := fun o => congrArg Place.started (h.place o)
  have hDos := fun o => congrArg Place.dos (h.place o)
  have hConfirmed := fun o => congrArg Place.confirmed (h.place o)
  cases hCache : t.fluxnodeCache
  rw [hCache] at hStarted hDos hConfirmed
  congr 1
  · exact Std.ExtTreeMap.ext_getElem? hStarted
  · exact Std.ExtTreeMap.ext_getElem? hDos
  · exact Std.ExtTreeMap.ext_getElem? hConfirmed

theorem Queued.checkUpdateHeight_eq {g : FluxnodeCache} (h : Queued tierOf f g)
    (tx : CTransaction) :
    g.checkUpdateHeight env tx nHeight = (tx.isFluxnodeTx && tx.nUpdateType == UPDATE_CONFIRM &&
      g.checkConfirmationHeights env nHeight tx.collateralIn tx.ip) := by
  unfold FluxnodeCache.checkUpdateHeight
  cases hHeights : g.checkConfirmationHeights env nHeight tx.collateralIn tx.ip with
  | false => simp
  | true =>
    have hContains : g.mapConfirmedFluxnodeData.contains tx.collateralIn = true := by
      unfold FluxnodeCache.checkConfirmationHeights at hHeights
      split at hHeights
      · assumption
      · cases hHeights
    rw [h.contains_eq, Option.isSome_iff_exists] at hContains
    obtain ⟨d, hPlace⟩ := hContains
    have hStatus := NodeStatus.place_confirmed_eq_some.mp hPlace
    have hSet : g.checkListSet tx.collateralIn = true := by
      refine any_eq_true.mpr ⟨d.nTier, d.nTier.mem_all, ?_⟩
      rw [(h.queue d.nTier).wellFormed.set, FluxnodeList.outs, ← (h.placed.of_confirmed hStatus).1]
      exact mem_map_of_mem ((h.queue d.nTier).listed _ d hStatus rfl)
    rw [hSet, Bool.and_true]

theorem contextualCheckFluxnodeTx_congr {g g' : FluxnodeCache} (h : Queued tierOf f g)
    (h' : Queued tierOf f g') (hCache : g' = { g with mapFluxnodeList := g'.mapFluxnodeList })
    (coins : CoinsView) (tx : CTransaction) :
    contextualCheckFluxnodeTx env g' nHeight coins tx =
      contextualCheckFluxnodeTx env g nHeight coins tx := by
  have hUpdate : g'.checkUpdateHeight env tx nHeight = g.checkUpdateHeight env tx nHeight := by
    rw [h.checkUpdateHeight_eq, h'.checkUpdateHeight_eq, hCache]
    rfl
  unfold contextualCheckFluxnodeTx checkConfirm
  rw [hUpdate, hCache]
  rfl

/-- A block is accepted by both nodes or rejected by both for the same reason. -/
theorem SameButLists.connect (h : SameButLists s t) (hs : Queued tierOf f s.fluxnodeCache)
    (ht : Queued tierOf f t.fluxnodeCache) (hValid : ∀ o, (f o).Valid env nHeight o)
    (block : CBlock) :
    (t.connect env block).map (fun u => (u.node, u.mapBlockIndex)) =
      (s.connect env block).map fun u => (u.node, u.mapBlockIndex) := by
  have hPayment : t.nextPayment env = s.nextPayment env := by
    funext tier
    unfold FullNode.nextPayment
    rw [h.node]
    exact ht.getNextPayment_eq hs hValid s.node.view tier
  have hPaid : t.paidNodes env = s.paidNodes env := by
    funext tier
    unfold FullNode.paidNodes FullNode.paysFluxnodes
    rw [hPayment, h.node]
  have hChecks : contextualCheckFluxnodeTx env t.fluxnodeCache t.node.nextHeight t.node.view =
      contextualCheckFluxnodeTx env s.fluxnodeCache s.node.nextHeight s.node.view := by
    funext tx
    rw [h.node]
    exact contextualCheckFluxnodeTx_congr hs ht h.cache_eq _ _
  have hFluxnodes : connectFluxnodes env t.fluxnodeCache s.node.nextHeight (s.paidNodes env)
        s.node.view block =
      connectFluxnodes env s.fluxnodeCache s.node.nextHeight (s.paidNodes env) s.node.view
        block := by
    rw [h.cache_eq]
    rfl
  have hIndex : t.indexBlock block = s.indexBlock block := by
    funext undo
    unfold FullNode.indexBlock
    rw [h.index, h.node]
  unfold FullNode.connect FullNode.payingEnv
  rw [hChecks, hPayment, hPaid, h.node, hFluxnodes, hIndex]
  cases requireOther (FullNode.startsWithoutIp block) with
  | error e => rfl
  | ok =>
    cases liftCheck (checkFluxnodeTxOuts block) with
    | error e => rfl
    | ok =>
      cases liftCheck (block.vtx.forM (contextualCheckFluxnodeTx env s.fluxnodeCache
          s.node.nextHeight s.node.view)) with
      | error e => rfl
      | ok =>
        cases connectTip { env.toEnv with
            getNextPayment := fun _ tier => (s.nextPayment env tier).map Prod.snd } s.node
              block with
        | error e => rfl
        | ok node =>
          cases connectFluxnodes env s.fluxnodeCache s.node.nextHeight (s.paidNodes env)
              s.node.view block with
          | error e => rfl
          | ok r =>
            obtain ⟨l, undo⟩ := r
            simp only [bind, Except.bind]
            cases s.indexBlock block undo <;> rfl

end Lists

/-- What happens to a cache: a block is connected, or somebody asks for the next payment. -/
inductive CacheUse where
  | connect (block : CBlock)
  | getNextPayment (tier : Tier)

def CacheUse.block? : CacheUse → Option CBlock
  | connect block => some block
  | getNextPayment _ => none

/-- A block is connected, or `GetNextPayment` is called, which may shorten a list. -/
def FullNode.use (env : FluxnodeEnv) (s : FullNode) : CacheUse → Except BlockReject FullNode
  | .connect block => s.connect env block
  | .getNextPayment tier =>
    .ok { s with fluxnodeCache := (s.fluxnodeCache.getNextPayment env s.node.view tier).2 }

namespace FollowsLedger

variable {env : FluxnodeEnv} {txs : List CTransaction} {s t : FullNode}

theorem sameButLists (hs : FollowsLedger env txs s) (ht : FollowsLedger env txs t)
    (hNode : t.node = s.node)
    (hIndex : t.mapBlockIndex = s.mapBlockIndex) : SameButLists s t where
  node := hNode
  index := hIndex
  place o := by
    rw [ht.queued.holds o, hs.queued.holds o, hNode]

theorem nextPayment_eq (hs : FollowsLedger env txs s) (ht : FollowsLedger env txs t)
    (hNode : t.node = s.node)
    (tier : Tier) : t.nextPayment env tier = s.nextPayment env tier := by
  obtain ⟨nHeight, hValid⟩ := hs.valid
  have hQueued := ht.queued
  unfold FullNode.nextPayment
  rw [hNode] at hQueued ⊢
  exact hQueued.getNextPayment_eq hs.queued hValid _ tier

theorem getNextPayment (h : FollowsLedger env txs s) (tier : Tier) :
    FollowsLedger env txs
      { s with fluxnodeCache := (s.fluxnodeCache.getNextPayment env s.node.view tier).2 } where
  tracks :=
    { index := h.tracks.index
      chain := h.tracks.chain
      view := h.tracks.view
      holds := h.tracks.holds }
  queued := show Queued _ _ (s.fluxnodeCache.getNextPayment env s.node.view tier).2 from
    h.queued.getNextPayment s.node.view tier
  known := h.known

theorem use (h : FollowsLedger env txs s) (hIds : CollisionFree env.toEnv txs) {u : CacheUse}
    (hTxs : ∀ block, u.block? = some block → ∀ tx ∈ block.vtx, tx ∈ txs)
    (hUse : s.use env u = .ok t) : FollowsLedger env txs t := by
  cases u with
  | connect block => exact h.connect hIds (hTxs block rfl) hUse
  | getNextPayment tier =>
    cases hUse
    exact h.getNextPayment tier

/-- The questions in between make no difference: the blocks alone decide on every later
    answer, and on which blocks are accepted. -/
theorem foldlM_use (hIds : CollisionFree env.toEnv txs) (uses : List CacheUse)
    (hTxs : ∀ tx ∈ chainTxs (uses.filterMap CacheUse.block?), tx ∈ txs)
    (hs : FollowsLedger env txs s) (ht : FollowsLedger env txs t) (hNode : t.node = s.node)
    (hIndex : t.mapBlockIndex = s.mapBlockIndex) :
    (uses.foldlM (FullNode.use env) t).map (fun u => u.nextPayment env) =
      ((uses.filterMap CacheUse.block?).foldlM (FullNode.connect env) s).map
        fun u => u.nextPayment env := by
  induction uses generalizing s t with
  | nil => exact congrArg Except.ok (funext fun tier => hs.nextPayment_eq ht hNode tier)
  | cons use uses ih =>
    cases use with
    | getNextPayment tier => exact ih hTxs hs (ht.getNextPayment tier) hNode hIndex
    | connect block =>
      have hBlock : ∀ tx ∈ block.vtx, tx ∈ txs := fun tx hMem =>
        hTxs tx (mem_append_left _ hMem)
      have hRest : ∀ tx ∈ chainTxs (uses.filterMap CacheUse.block?), tx ∈ txs := fun tx hMem =>
        hTxs tx (mem_append_right _ hMem)
      obtain ⟨nHeight, hValid⟩ := hs.valid
      have hQueued := ht.queued
      rw [hNode] at hQueued
      have hSame := (hs.sameButLists ht hNode hIndex).connect hs.queued hQueued hValid block
      have hUse : FullNode.use env t (.connect block) = t.connect env block := rfl
      have hBlocks : (CacheUse.connect block :: uses).filterMap CacheUse.block? =
          block :: uses.filterMap CacheUse.block? := rfl
      rw [foldlM_cons, hUse, hBlocks, foldlM_cons]
      cases hLeft : t.connect env block with
      | error e =>
        cases hRight : s.connect env block with
        | error e' =>
          rw [hLeft, hRight] at hSame
          cases hSame
          rfl
        | ok s' =>
          rw [hLeft, hRight] at hSame
          cases hSame
      | ok t' =>
        cases hRight : s.connect env block with
        | error e' =>
          rw [hLeft, hRight] at hSame
          cases hSame
        | ok s' =>
          rw [hLeft, hRight] at hSame
          have hPair := Except.ok.inj hSame
          exact ih hRest (hs.connect hIds hBlock hRight) (ht.connect hIds hBlock hLeft)
            (congrArg Prod.fst hPair) (congrArg Prod.snd hPair)

/-- The payee of a connected block has its height as the last payment. -/
theorem lastPaid_of_connect (h : FollowsLedger env txs s) {tier : Tier}
    {dest : CTxDestination} (hNext : s.nextPayment env tier = some (o, dest))
    (hPays : s.paysFluxnodes env = true) {block : CBlock} {s' : FullNode}
    (hConnect : s.connect env block = .ok s')
    (hGet : s'.fluxnodeCache.mapConfirmedFluxnodeData[o]? = some d) :
    d.nLastPaidHeight = s.node.nextHeight := by
  obtain ⟨prev, chain, hChain⟩ := h.tracks.chain_eq
  obtain ⟨nHeight, hValid⟩ := h.valid
  have hQueued := h.queued
  rw [hChain] at hQueued hValid
  obtain ⟨l, undo, hStep⟩ := h.tracks.advances hConnect hChain hQueued.holds fun o => .refl _
  have hPaid : s.paidNodes env tier = some (s.node.nextHeight, o) := by
    simp [FullNode.paidNodes, hPays, hNext]
  obtain ⟨_, _, _, hBefore, _⟩ := (FullNode.paidNodes_eq_some_iff hQueued hValid).mp hPaid
  have hLocal : l.pays o = true :=
    LocalFluxnodeCache.pays_eq_true.mpr ⟨tier, _, hStep.connected.paid ▸ hPaid, rfl⟩
  rw [hStep.holds.confirmed, NodeStatus.place_confirmed_eq_some, hLocal] at hGet
  rcases NodeStatus.step_eq_confirmed hGet with ⟨_, _, hStarted, _⟩ | ⟨_, _, _, _, _, _, _, rfl⟩
  · rw [hBefore] at hStarted
    cases hStarted
  · exact (FullNode.nextHeight_eq hChain).symm

end FollowsLedger

/-- The last payment, or the confirmation without one, is longer ago; ties as in the list. -/
def FluxnodeCacheData.waitsLonger (a b : FluxnodeCacheData) : Prop :=
  a.comparatorHeight < b.comparatorHeight ∨
    a.comparatorHeight = b.comparatorHeight ∧
      (a.nLastPaidHeight = 0 ∧ b.nLastPaidHeight ≠ 0 ∨
        (a.nLastPaidHeight = 0 ↔ b.nLastPaidHeight = 0) ∧
          a.collateralIn.memCompare b.collateralIn = .lt)

theorem FluxnodeCacheData.listData_lt_iff (a b : FluxnodeCacheData) :
    a.listData.lt b.listData = true ↔ a.waitsLonger b := by
  have hHeight : ∀ d, (listData d).comparatorHeight = d.comparatorHeight := fun _ => rfl
  have hPaid : ∀ d, (listData d).nLastPaidHeight = d.nLastPaidHeight := fun _ => rfl
  have hOut : ∀ d, (listData d).out = d.collateralIn := fun _ => rfl
  simp only [FluxnodeListData.lt, waitsLonger, hHeight, hPaid, hOut]
  by_cases ha : a.nLastPaidHeight = 0 <;> by_cases hb : b.nLastPaidHeight = 0 <;> simp [ha, hb]

/-- `GetNextPayment` finds the confirmed node of a tier that waits longest, after any blocks and
    any earlier calls, and the next block is its last payment; the calls change neither a later
    answer nor what becomes of a block. -/
theorem nextPayment_waits_longest (env : FluxnodeEnv) (uses : List CacheUse)
    (hIds : CollisionFree env.toEnv (chainTxs (uses.filterMap CacheUse.block?))) :
    (∀ s, Run.Steps (FullNode.use env) (fun _ _ => True) (.init env) uses s → ∀ tier,
      (s.nextPayment env tier = none ↔ ∀ (o : COutPoint) (d : FluxnodeCacheData),
        s.fluxnodeCache.mapConfirmedFluxnodeData[o]? = some d → d.nTier ≠ tier) ∧
      ∀ o dest, s.nextPayment env tier = some (o, dest) →
        (∃ d, s.fluxnodeCache.mapConfirmedFluxnodeData[o]? = some d ∧ d.nTier = tier ∧
          ∀ (o' : COutPoint) (d' : FluxnodeCacheData),
            s.fluxnodeCache.mapConfirmedFluxnodeData[o']? = some d' → d'.nTier = tier → o' ≠ o →
            d.waitsLonger d') ∧
        (s.paysFluxnodes env = true → ∀ block s', s.connect env block = .ok s' →
          ∀ d, s'.fluxnodeCache.mapConfirmedFluxnodeData[o]? = some d →
            d.nLastPaidHeight = s.node.nextHeight)) ∧
    (uses.foldlM (FullNode.use env) (.init env)).map (fun s => s.nextPayment env) =
      ((uses.filterMap CacheUse.block?).foldlM (FullNode.connect env) (.init env)).map
        fun s => s.nextPayment env := by
  refine ⟨fun s hRun tier => ?_, FollowsLedger.foldlM_use hIds uses (fun _ hMem => hMem) .init
    .init rfl rfl⟩
  have hTxs : ∀ use ∈ uses, ∀ block, use.block? = some block → ∀ tx ∈ block.vtx,
      tx ∈ chainTxs (uses.filterMap CacheUse.block?) := fun use hUse block hBlock tx hTx =>
    mem_flatMap.mpr ⟨block, mem_filterMap.mpr ⟨use, hUse, hBlock⟩, hTx⟩
  have hFollows : FollowsLedger env (chainTxs (uses.filterMap CacheUse.block?)) s :=
    (hRun.strengthen hTxs).invariant (fun _ _ _ h hOk hUse =>
      FollowsLedger.use h hIds hOk.2 hUse) .init
  obtain ⟨nHeight, hValid⟩ := hFollows.valid
  have hGet : ∀ (o : COutPoint) (d : FluxnodeCacheData),
      s.fluxnodeCache.mapConfirmedFluxnodeData[o]? = some d ↔
        ledger env s.node.chain.reverse o = .confirmed d := fun o d => by
    rw [hFollows.queued.holds.confirmed, NodeStatus.place_confirmed_eq_some]
  simp only [hGet, ← FluxnodeCacheData.listData_lt_iff]
  unfold FullNode.nextPayment
  rcases hFollows.queued.getNextPayment_cases hValid s.node.view tier with
    ⟨hNone, hEmpty⟩ | ⟨o, d, dest, hSome, hStatus, hPayee, _⟩
  · rw [hNone]
    exact ⟨⟨fun _ => hEmpty, fun _ => rfl⟩, fun o dest hAnswer => by cases hAnswer⟩
  · rw [hSome]
    refine ⟨⟨fun hAnswer => (by cases hAnswer), fun hEmpty => ?_⟩, fun o' dest' hAnswer => ?_⟩
    · obtain ⟨d', hStatus', hTier, _⟩ := hPayee
      exact absurd hTier (hEmpty o d' hStatus')
    · cases hAnswer
      exact ⟨hPayee, fun hPays _ _ hConnect _ hPaid =>
        hFollows.lastPaid_of_connect hSome hPays hConnect hPaid⟩

/-- Two nodes are confirmed and paid in turn, with calls of `GetNextPayment` in between. -/
def sampleUses : List CacheUse :=
  sampleNodeBlocks.map .connect ++ [.getNextPayment .proton,
    .connect (nodeBlock 0 103 [sampleConfirm 1]), .getNextPayment .eletron,
    .connect (nodeBlock 0 104 [])]

set_option maxRecDepth 10000 in
theorem nextPayment_of_sampleUses :
    CollisionFree sampleFluxnodeEnv.toEnv (chainTxs (sampleUses.filterMap CacheUse.block?)) ∧
    ∃ s, Run.Steps (FullNode.use sampleFluxnodeEnv) (fun _ _ => True) (.init sampleFluxnodeEnv)
      sampleUses s ∧
      s.fluxnodeCache.mapConfirmedFluxnodeData.contains (sampleCollateral 1) = true ∧
      ∃ dest d, s.nextPayment sampleFluxnodeEnv .proton = some (sampleCollateral 0, dest) ∧
        s.fluxnodeCache.mapConfirmedFluxnodeData[sampleCollateral 0]? = some d ∧
        (∀ (o : COutPoint) (d' : FluxnodeCacheData),
          s.fluxnodeCache.mapConfirmedFluxnodeData[o]? = some d' → d'.nTier = .proton →
          o ≠ sampleCollateral 0 → d.waitsLonger d') ∧
        ∃ s', s.connect sampleFluxnodeEnv (nodeBlock 0 105 []) = .ok s' ∧
          ∃ d', s'.fluxnodeCache.mapConfirmedFluxnodeData[sampleCollateral 0]? = some d' ∧
            d'.nLastPaidHeight = s.node.nextHeight := by
  have hIds : CollisionFree sampleFluxnodeEnv.toEnv
      (chainTxs (sampleUses.filterMap CacheUse.block?)) := by
    decide +kernel
  refine ⟨hIds, Run.exists_steps_imp .other (fun s : FullNode =>
      s.fluxnodeCache.mapConfirmedFluxnodeData.contains (sampleCollateral 1) = true ∧
      (∃ pay, s.nextPayment sampleFluxnodeEnv .proton = some pay ∧ pay.1 = sampleCollateral 0) ∧
      s.paysFluxnodes sampleFluxnodeEnv = true ∧
      ∃ s', s.connect sampleFluxnodeEnv (nodeBlock 0 105 []) = .ok s' ∧
        ∃ d, s'.fluxnodeCache.mapConfirmedFluxnodeData[sampleCollateral 0]? = some d ∧ True)
    (by decide +kernel) ?_⟩
  rintro s hSteps ⟨hConfirmed, ⟨⟨_, dest⟩, hAnswer, rfl⟩, hPays, s', hConnect, d', hGet', _⟩
  obtain ⟨⟨d, hGet, _, hLeast⟩, hLast⟩ :=
    ((nextPayment_waits_longest _ sampleUses hIds).1 s hSteps .proton).2 _ _ hAnswer
  exact ⟨hConfirmed, dest, d, hAnswer, hGet, hLeast, s', hConnect, d', hGet',
    hLast hPays _ s' hConnect d' hGet'⟩

end CloudService
