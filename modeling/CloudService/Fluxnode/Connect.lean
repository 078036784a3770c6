/-
  The flush after a connected block moves every node by one step, and the flush after a
  disconnected block moves it back.
-/

import CloudService.Fluxnode.Events

namespace CloudService

open Pointwise List

def FluxnodeCache.Holds (g : FluxnodeCache) (f : COutPoint → NodeStatus) : Prop :=
  ∀ o, g.place o = (f o).place

structure Written (env : FluxnodeEnv) (nHeight : Nat) (ev : BlockEvents) (pays : COutPoint → Bool)
    (f : COutPoint → NodeStatus) (undo : CFluxnodeTxBlockUndo) : Prop where
  dos : ∀ d, d ∈ undo.vecExpiredDosData ↔
    ∃ o, f o = .dos d ∧ d.nAddedBlockHeight + FLUXNODE_DOS_REMOVE_AMOUNT = nHeight
  confirmed : ∀ d, d ∈ undo.vecExpiredConfirmedData ↔
    ∃ o, f o = .confirmed d ∧ (ev.node o).expires env nHeight d = true
  lastConfirmed : ∀ o : COutPoint, undo.mapUpdateLastConfirmHeight[o]? =
    ev.updates[o]?.bind fun _ => (f o).record?.map (·.nLastConfirmedBlockHeight)
  lastIp : ∀ o : COutPoint, undo.mapLastIpAddress[o]? =
    ev.updates[o]?.bind fun _ => (f o).record?.map (·.ip)
  lastPaid : ∀ o : COutPoint, undo.mapLastPaidHeights[o]? =
    if pays o then (f o).place.confirmed.map (·.nLastPaidHeight) else none

section Trackers

variable {env : FluxnodeEnv} {g : FluxnodeCache} {nHeight : Nat} {f : COutPoint → NodeStatus}
  {o : COutPoint} {d : FluxnodeCacheData}

namespace FluxnodeCache.Holds

theorem started (h : g.Holds f) : g.mapStartTxTracker[o]? = (f o).place.started :=
  congrArg Place.started (h o)

theorem dos (h : g.Holds f) : g.mapStartTxDOSTracker[o]? = (f o).place.dos :=
  congrArg Place.dos (h o)

theorem confirmed (h : g.Holds f) : g.mapConfirmedFluxnodeData[o]? = (f o).place.confirmed :=
  congrArg Place.confirmed (h o)

theorem getFluxnodeData (h : g.Holds f) : g.getFluxnodeData o = (f o).record? := by
  unfold FluxnodeCache.getFluxnodeData
  rw [h.started, h.dos, h.confirmed]
  cases f o <;> rfl

end FluxnodeCache.Holds

theorem recordsKeyed_of_valid (hHolds : g.Holds f) (hValid : ∀ o, (f o).Valid env nHeight o) :
    RecordsKeyed g.mapStartTxTracker := by
  intro o d hGet
  rw [hHolds.started, NodeStatus.place_started_eq_some] at hGet
  refine (hValid o).collateralIn ?_
  rw [hGet]
  rfl

/-! ## What expires -/

theorem getElem?_expiredStarts (confirms : Std.ExtTreeMap COutPoint String) :
    (expiredStarts g nHeight confirms)[o]? = g.mapStartTxTracker[o]?.bind fun d =>
      if d.nAddedBlockHeight + FLUXNODE_START_TX_EXPIRATION_HEIGHT = nHeight ∧
          confirms[o]? = none then
        some { d with nStatus := .dosProtection }
      else none := by
  have hNone : (confirms.contains o = false) ↔ confirms[o]? = none := by
    rw [Std.ExtTreeMap.contains_eq_isSome_getElem?, Option.isSome_eq_false_iff,
      Option.isNone_iff_eq_none]
  unfold expiredStarts
  rw [getElem?_foldl_insert_if]
  simp only [hNone]

theorem mem_expiredDosData (hHolds : g.Holds f) : d ∈ expiredDosData g nHeight ↔
    ∃ o, f o = .dos d ∧ d.nAddedBlockHeight + FLUXNODE_DOS_REMOVE_AMOUNT = nHeight := by
  unfold expiredDosData
  rw [mem_filter, TreeMap.mem_vals, beq_iff_eq]
  constructor
  · rintro ⟨⟨o, hGet⟩, hTime⟩
    rw [hHolds.dos, NodeStatus.place_dos_eq_some] at hGet
    exact ⟨o, hGet, hTime⟩
  · rintro ⟨o, hStatus, hTime⟩
    refine ⟨⟨o, ?_⟩, hTime⟩
    rw [hHolds.dos, NodeStatus.place_dos_eq_some]
    exact hStatus

theorem mem_expiredConfirmedData (hHolds : g.Holds f) {ev : BlockEvents}
    {updated : Std.ExtTreeMap COutPoint Nat}
    (hUpdated : ∀ (o : COutPoint) (d : FluxnodeCacheData), f o = .confirmed d →
      updated.contains o = ev.updates[o]?.isSome) :
    d ∈ expiredConfirmedData env g nHeight updated ev.spent ↔
      ∃ o, f o = .confirmed d ∧ (ev.node o).expires env nHeight d = true := by
  have hExpires : ∀ o, f o = .confirmed d → ((ev.node o).expires env nHeight d = true ↔
      confirmExpires env nHeight updated o d = true ∨ ev.spent.contains o = true) := by
    intro o hStatus
    have hNone : (ev.node o).update.isNone = !updated.contains o := by
      rw [hUpdated o d hStatus]
      exact (Option.not_isSome _).symm
    rw [NodeEvents.expires, hNone, Bool.or_eq_true]
    rfl
  unfold expiredConfirmedData
  rw [mem_append, mem_map, mem_filterMap]
  simp only [mem_filter, Prod.exists, exists_eq_right,
    Std.ExtTreeMap.mem_toList_iff_getElem?_eq_some, Std.ExtTreeSet.mem_toList, hHolds.confirmed,
    NodeStatus.place_confirmed_eq_some, ← Std.ExtTreeSet.contains_iff_mem]
  constructor
  · rintro (⟨o, hStatus, hTest⟩ | ⟨o, hSpent, hStatus⟩)
    · exact ⟨o, hStatus, (hExpires o hStatus).mpr (.inl hTest)⟩
    · exact ⟨o, hStatus, (hExpires o hStatus).mpr (.inr hSpent)⟩
  · rintro ⟨o, hStatus, hTest⟩
    rcases (hExpires o hStatus).mp hTest with hTime | hSpent
    · exact .inl ⟨o, hStatus, hTime⟩
    · exact .inr ⟨o, hSpent, hStatus⟩

theorem contains_outPoints {data : List FluxnodeCacheData} :
    (outPoints data).contains o = true ↔ ∃ d ∈ data, d.collateralIn = o := by
  unfold outPoints
  rw [TreeMap.contains_foldl_insert]
  simp

end Trackers

section Connect

variable {env : FluxnodeEnv} {g : FluxnodeCache} {nHeight : Nat} {f : COutPoint → NodeStatus}
  {coins : CoinsView} {block : CBlock} {mapPaidNodes : Tier → Option (Nat × COutPoint)}
  {l : LocalFluxnodeCache} {undo : CFluxnodeTxBlockUndo} {st : FluxnodeLoop} {ev : BlockEvents}

theorem EventsRecorded.contains_updated (h : EventsRecorded g nHeight mapPaidNodes ev st)
    (hHolds : g.Holds f)
    (o : COutPoint) (d : FluxnodeCacheData) (hStatus : f o = .confirmed d) :
    st.fluxnodeTxBlockUndo.mapUpdateLastConfirmHeight.contains o = ev.updates[o]?.isSome := by
  rw [Std.ExtTreeMap.contains_eq_isSome_getElem?, h.lastConfirmed, hHolds.getFluxnodeData, hStatus]
  cases ev.updates[o]? <;> rfl

section

variable {p : COutPoint → FluxnodeCacheData → Prop} (hValid : ∀ o, (f o).Valid env nHeight o)
  (hRecord : ∀ a d, p a d → (f a).record? = some d)

include hValid hRecord

theorem collateralIn_iff (o : COutPoint) (d : FluxnodeCacheData) :
    (∃ a, p a d) ∧ d.collateralIn = o ↔ p o d := by
  constructor
  · rintro ⟨⟨a, hp⟩, rfl⟩
    have hKey := (hValid a).collateralIn (hRecord a d hp)
    exact hKey.symm ▸ hp
  · intro hp
    exact ⟨⟨o, hp⟩, (hValid o).collateralIn (hRecord o d hp)⟩

theorem exists_collateralIn_iff (o : COutPoint) :
    (∃ d, (∃ a, p a d) ∧ d.collateralIn = o) ↔ ∃ d, p o d :=
  exists_congr fun d => collateralIn_iff hValid hRecord o d

end

theorem EventsRecorded.connectsAt (h : EventsRecorded g (nHeight + 1) mapPaidNodes ev st)
    (hHolds : g.Holds f)
    (hValid : ∀ o, (f o).Valid env nHeight o)
    (hPaid : ∀ tier i, mapPaidNodes tier = some i → i.1 = nHeight + 1 ∧ ∃ d, f i.2 = .confirmed d)
    (o : COutPoint) :
    ConnectsAt env (nHeight + 1) (ev.node o) (f o) (finishConnect env g (nHeight + 1) st).1 o where
  start := by
    rw [finishConnect, h.starts]
    rfl
  dos := by
    rw [finishConnect, getElem?_expiredStarts, h.confirms, hHolds.started]
    rfl
  dosExpired := by
    rw [Bool.eq_iff_iff, finishConnect, contains_outPoints]
    simp only [mem_expiredDosData hHolds]
    rw [exists_collateralIn_iff hValid fun a d hStatus => by rw [hStatus.1]; rfl]
    cases f o <;> simp [NodeStatus.place]
  confirm := by
    rw [finishConnect, h.confirms]
    rfl
  confirmHeight hSome := h.confirmHeight o hSome
  update := by
    rw [finishConnect, h.updates]
    rfl
  updateHeight hSome := h.updateHeight o hSome
  expired := by
    rw [Bool.eq_iff_iff, finishConnect, contains_outPoints, h.spent]
    simp only [mem_expiredConfirmedData hHolds (h.contains_updated hHolds)]
    rw [exists_collateralIn_iff hValid fun a d hStatus => by rw [hStatus.1]; rfl]
    cases f o <;> simp [NodeStatus.place]
  paidHeight tier i hPaidTier := by
    rw [finishConnect, h.paid] at hPaidTier
    exact (hPaid tier i hPaidTier).1
  paid hPays := by
    obtain ⟨tier, i, hPaidTier, rfl⟩ := LocalFluxnodeCache.pays_eq_true.mp hPays
    rw [finishConnect, h.paid] at hPaidTier
    exact (hPaid tier i hPaidTier).2

theorem EventsRecorded.written (h : EventsRecorded g nHeight mapPaidNodes ev st)
    (hHolds : g.Holds f) :
    Written env nHeight ev (finishConnect env g nHeight st).1.pays f
      (finishConnect env g nHeight st).2 where
  dos d := mem_expiredDosData hHolds
  confirmed d := by
    rw [finishConnect, h.spent]
    exact mem_expiredConfirmedData hHolds (h.contains_updated hHolds)
  lastConfirmed o := by
    rw [finishConnect, h.lastConfirmed, hHolds.getFluxnodeData]
  lastIp o := by
    rw [finishConnect, h.lastIp, hHolds.getFluxnodeData]
  lastPaid o := by
    rw [finishConnect, getElem?_lastPaidHeights, hHolds.confirmed]
    rfl

/-- What `CheckFluxnodeTxInput` establishes. The key of the foundation's P2SH nodes is
    rejected on every network, because the upgrade that allows it has no activation height. -/
theorem checkFluxnodeTxInput_eq_ok {view : CoinsView} {tx : CTransaction} {tier : Tier}
    {nCollateral : CAmount}
    (h : checkFluxnodeTxInput env nHeight view tx = .ok (tier, nCollateral)) :
    ∃ out, view.unspent tx.collateralIn = some out ∧ nCollateral = out.nValue ∧
      getCoinTierFromAmount out.nValue = some tier ∧
      ((view.cacheCoins[tx.collateralIn.hash]?).getD {}).nHeight +
        FLUXNODE_MIN_CONFIRMATION_DETERMINISTIC ≤ nHeight ∧
      env.isAP2SHFluxNodePublicKey tx.collateralPubkey = false := by
  unfold checkFluxnodeTxInput at h
  split at h
  · cases h
  · rename_i out hUnspent
    rw [check_bind_eq_ok, rejectIf_eq_ok, decide_eq_false_iff_not, not_lt] at h
    obtain ⟨hDepth, hRest⟩ := h
    split at hRest
    · cases hRest
    · rename_i tier' hTier
      simp only [check_bind_eq_ok, rejectIf_eq_ok] at hRest
      obtain ⟨hKey, _, _, hEnd⟩ := hRest
      cases hEnd
      refine ⟨out, hUnspent, rfl, hTier, hDepth, ?_⟩
      have hHalving : upgradeActive env.network.halvingHeight nHeight = false := by
        simp [upgradeActive, Network.halvingHeight]
      simpa [hHalving] using hKey

theorem absent_of_checkStart {tx : CTransaction} (hHolds : g.Holds f)
    (h : checkStart env g coins tx = .ok ()) : f tx.collateralIn = .absent := by
  unfold checkStart at h
  simp only [check_bind_eq_ok, rejectIf_eq_ok] at h
  obtain ⟨hNew, hConfirmed, _⟩ := h
  simp only [FluxnodeCache.checkNewStartTx, FluxnodeCache.checkIfConfirmed,
    Std.ExtTreeMap.contains_eq_isSome_getElem?, hHolds.started, hHolds.dos,
    hHolds.confirmed] at hNew hConfirmed
  cases hStatus : f tx.collateralIn <;> simp [hStatus, NodeStatus.place] at hNew hConfirmed
  rfl

theorem confirmed_of_checkConfirm {tx : CTransaction} (hHolds : g.Holds f)
    (h : checkConfirm env g nHeight tx = .ok ()) :
    (tx.nUpdateType = INITIAL_CONFIRM → ∃ d, f tx.collateralIn = .started d) ∧
      (tx.nUpdateType = UPDATE_CONFIRM → ∃ d, f tx.collateralIn = .confirmed d) := by
  unfold checkConfirm at h
  split at h
  · cases h
  · simp only [check_bind_eq_ok] at h
    obtain ⟨_, _, hRest⟩ := h
    have hOther : INITIAL_CONFIRM ≠ UPDATE_CONFIRM := by decide
    split at hRest
    · rename_i hInitial
      refine ⟨fun _ => ?_, fun hUpdate => absurd (hInitial.symm.trans hUpdate) hOther⟩
      rw [rejectIf_eq_ok, FluxnodeCache.checkIfStarted, Std.ExtTreeMap.contains_eq_isSome_getElem?,
        hHolds.started] at hRest
      cases hStatus : f tx.collateralIn <;> simp [hStatus, NodeStatus.place] at hRest ⊢
    · rename_i hNotInitial
      refine ⟨fun hInitial => absurd hInitial hNotInitial, fun hUpdate => ?_⟩
      rw [if_pos hUpdate, check_bind_eq_ok, rejectIf_eq_ok, FluxnodeCache.checkIfConfirmed,
        Std.ExtTreeMap.contains_eq_isSome_getElem?, hHolds.confirmed] at hRest
      have hConfirmed := hRest.1
      cases hStatus : f tx.collateralIn <;> simp [hStatus, NodeStatus.place] at hConfirmed ⊢

theorem contextualCheckFluxnodeTx_eq_ok {tx : CTransaction} (hFluxnode : tx.isFluxnodeTx = true)
    (h : contextualCheckFluxnodeTx env g nHeight coins tx = .ok ()) :
    (tx.nType = FLUXNODE_START_TX_TYPE → checkStart env g coins tx = .ok ()) ∧
      (tx.nType = FLUXNODE_CONFIRM_TX_TYPE → checkConfirm env g nHeight tx = .ok ()) := by
  unfold contextualCheckFluxnodeTx at h
  rw [if_pos hFluxnode] at h
  simp only [check_bind_eq_ok] at h
  obtain ⟨_, _, hRest⟩ := h
  have hOther : FLUXNODE_START_TX_TYPE ≠ FLUXNODE_CONFIRM_TX_TYPE := by decide
  split at hRest
  · rename_i hStart
    exact ⟨fun _ => hRest, fun hConfirm => absurd (hStart.symm.trans hConfirm) hOther⟩
  · rename_i hNotStart
    refine ⟨fun hStart => absurd hStart hNotStart, fun hConfirm => ?_⟩
    rwa [if_pos hConfirm] at hRest

theorem admits_of_checks (hHolds : g.Holds f)
    (hChecks : ∀ tx ∈ block.vtx, contextualCheckFluxnodeTx env g nHeight coins tx = .ok ())
    (hIp : ∀ tx ∈ block.vtx, tx.isFluxnodeStart = true → tx.ip = "") (o : COutPoint) :
    (f o).Admits env nHeight o ((fluxnodeEvents env nHeight coins block).node o) := by
  have hSources : EventSources env nHeight coins block.vtx
    (fluxnodeEvents env nHeight coins block) :=
    .of_eventsLoop block.vtx
  refine ⟨fun d hStart => ?_, fun hSome => ?_, fun hSome => ?_⟩
  · obtain ⟨before, tx, after, tier, nCollateral, hSplit, hIsStart, rfl, hInput, rfl⟩ :=
      hSources.start o d hStart
    have hMem : tx ∈ block.vtx := by simp [hSplit]
    have hKind : tx.isFluxnodeTx = true ∧ tx.nType = FLUXNODE_START_TX_TYPE := by
      simpa [CTransaction.isFluxnodeStart] using hIsStart
    obtain ⟨out, _, _, _, _, hKey⟩ := checkFluxnodeTxInput_eq_ok hInput
    have hCheck := (contextualCheckFluxnodeTx_eq_ok hKind.1 (hChecks tx hMem)).1 hKind.2
    refine ⟨absent_of_checkStart hHolds hCheck, rfl, rfl, ?_, ?_, hKey⟩
    · simp [newStart, FluxnodeCacheData.unconfirm, hIp tx hMem hIsStart]
    · simp [newStart, FLUXNODE_START_TX_EXPIRATION_HEIGHT]
  · obtain ⟨ip, hConfirm⟩ := Option.isSome_iff_exists.mp hSome
    obtain ⟨before, tx, after, _, hSplit, hIsConfirm, rfl, _⟩ := hSources.confirm o ip hConfirm
    have hKind : (tx.isFluxnodeTx = true ∧ tx.nType = FLUXNODE_CONFIRM_TX_TYPE) ∧
        tx.nUpdateType = INITIAL_CONFIRM := by
      simpa [CTransaction.isInitialConfirm] using hIsConfirm
    have hCheck := (contextualCheckFluxnodeTx_eq_ok hKind.1.1
      (hChecks tx (by simp [hSplit]))).2 hKind.1.2
    exact (confirmed_of_checkConfirm hHolds hCheck).1 hKind.2
  · obtain ⟨ip, hUpdate⟩ := Option.isSome_iff_exists.mp hSome
    obtain ⟨tx, hMem, hIsUpdate, rfl⟩ := hSources.update o ip hUpdate
    have hKind : (tx.isFluxnodeTx = true ∧ tx.nType = FLUXNODE_CONFIRM_TX_TYPE) ∧
        tx.nUpdateType = UPDATE_CONFIRM := by
      simpa [CTransaction.isUpdateConfirm] using hIsUpdate
    have hCheck := (contextualCheckFluxnodeTx_eq_ok hKind.1.1 (hChecks tx hMem)).2 hKind.1.2
    exact (confirmed_of_checkConfirm hHolds hCheck).2 hKind.2

structure ConnectedNodes (env : FluxnodeEnv) (nHeight : Nat) (coins : CoinsView) (block : CBlock)
    (mapPaidNodes : Tier → Option (Nat × COutPoint)) (f : COutPoint → NodeStatus)
    (l : LocalFluxnodeCache) (undo : CFluxnodeTxBlockUndo) : Prop where
  connects : ∀ o, ConnectsAt env nHeight ((fluxnodeEvents env nHeight coins block).node o) (f o) l o
  noUndo : NoUndo l
  keyed : RecordsKeyed l.mapStartTxTracker
  paid : l.mapPaidNodes = mapPaidNodes
  written : Written env nHeight (fluxnodeEvents env nHeight coins block) l.pays f undo

theorem ConnectedNodes.of_connectFluxnodes (hHolds : g.Holds f)
    (hValid : ∀ o, (f o).Valid env nHeight o)
    (hPaid : ∀ tier i, mapPaidNodes tier = some i → i.1 = nHeight + 1 ∧ ∃ d, f i.2 = .confirmed d)
    (h : connectFluxnodes env g (nHeight + 1) mapPaidNodes coins block = .ok (l, undo)) :
    ConnectedNodes env (nHeight + 1) coins block mapPaidNodes f l undo ∧
      ∃ st, Collected env g (nHeight + 1) coins mapPaidNodes block.vtx st := by
  unfold connectFluxnodes at h
  rw [except_bind_eq_ok] at h
  obtain ⟨st, hLoop, hEnd⟩ := h
  cases hEnd
  have hCollected := Collected.of_foldlM hLoop
  have hRecorded : EventsRecorded g (nHeight + 1) mapPaidNodes
      (fluxnodeEvents env (nHeight + 1) coins block) st := hCollected.recorded
  have hNoUndo := hRecorded.noUndo
  refine ⟨⟨hRecorded.connectsAt hHolds hValid hPaid,
    ⟨hNoUndo.1, hNoUndo.2, hNoUndo.3, hNoUndo.4, hNoUndo.5, hNoUndo.6⟩, ?_, hRecorded.paid,
    hRecorded.written hHolds⟩, st, hCollected⟩
  intro o d hGet
  have hStart : (fluxnodeEvents env (nHeight + 1) coins block).starts[o]? = some d := by
    rw [← hRecorded.starts]
    exact hGet
  obtain ⟨_, tx, _, _, _, _, _, hKey, _, rfl⟩ := (EventSources.of_eventsLoop block.vtx).start
    o d hStart
  exact hKey

theorem ConnectedNodes.holds_flush (h : ConnectedNodes env nHeight coins block mapPaidNodes
    f l undo)
    (hHolds : g.Holds f) (hKeyed : RecordsKeyed g.mapStartTxTracker)
    (hAdmits : ∀ o, (f o).Admits env nHeight o ((fluxnodeEvents env nHeight coins block).node o)) :
    (l.flush g).1.Holds fun o =>
      (f o).step env nHeight ((fluxnodeEvents env nHeight coins block).node o) (l.pays o) := by
  intro o
  rw [l.place_flush g h.keyed hKeyed (by simp [h.noUndo.expire]), hHolds o]
  exact (h.connects o).flushPlace_eq h.noUndo (hAdmits o)

end Connect

section Disconnect

variable {env : FluxnodeEnv} {g : FluxnodeCache} {nHeight : Nat} {f f' : COutPoint → NodeStatus}
  {ev : BlockEvents} {pays : COutPoint → Bool} {block : CBlock} {undo : CFluxnodeTxBlockUndo}
  {o : COutPoint}

theorem getElem?_undoneExpiredStarts :
    (undoneExpiredStarts g nHeight)[o]? = g.mapStartTxDOSTracker[o]?.bind fun d =>
      if d.nAddedBlockHeight + FLUXNODE_START_TX_EXPIRATION_HEIGHT = nHeight then
        some { d with nStatus := .started }
      else none := by
  unfold undoneExpiredStarts
  rw [getElem?_foldl_insert_if]

section

variable {vec : List FluxnodeCacheData}
  (hSame : ∀ a ∈ vec, ∀ b ∈ vec, a.collateralIn = b.collateralIn → a = b)

include hSame

theorem getElem?_foldl_insert_records (o : COutPoint) (d : FluxnodeCacheData) :
    (vec.foldl (fun m d => m.insert d.collateralIn d)
      (∅ : Std.ExtTreeMap COutPoint FluxnodeCacheData))[o]? = some d ↔
      d ∈ vec ∧ d.collateralIn = o := by
  have hFrom : ∀ (o : COutPoint) (d : FluxnodeCacheData),
      (vec.foldl (fun m d => m.insert d.collateralIn d)
        (∅ : Std.ExtTreeMap COutPoint FluxnodeCacheData))[o]? = some d →
      d ∈ vec ∧ d.collateralIn = o := by
    refine foldlRecOn (motive := fun m : Std.ExtTreeMap COutPoint FluxnodeCacheData =>
      ∀ (o : COutPoint) (d : FluxnodeCacheData), m[o]? = some d → d ∈ vec ∧ d.collateralIn = o)
      vec _ (fun o d hGet => ?_) fun m hm a ha o d hGet => ?_
    · simp at hGet
    · rw [TreeMap.getElem?_insert_eq] at hGet
      split at hGet
      · rename_i hKey
        cases hGet
        exact ⟨ha, hKey⟩
      · exact hm o d hGet
  refine ⟨hFrom o d, ?_⟩
  rintro ⟨hMem, rfl⟩
  have hContains : (vec.foldl (fun m d => m.insert d.collateralIn d)
      (∅ : Std.ExtTreeMap COutPoint FluxnodeCacheData)).contains d.collateralIn = true := by
    refine Run.foldl_of_mem (P := fun m : Std.ExtTreeMap COutPoint FluxnodeCacheData =>
      m.contains d.collateralIn = true) hMem ∅ (fun m => ?_) fun m a h => ?_
    · simp
    · simp [Std.ExtTreeMap.contains_insert, h]
  rw [Std.ExtTreeMap.contains_eq_isSome_getElem?, Option.isSome_iff_exists] at hContains
  obtain ⟨d', hGet⟩ := hContains
  obtain ⟨hMem', hKey⟩ := hFrom _ _ hGet
  rw [hGet, hSame d' hMem' d hMem hKey]

theorem foldl_insertRecord :
    ((vec.foldl insertRecord []).map (·.collateralIn)).Nodup ∧
      ∀ d, d ∈ vec.foldl insertRecord [] ↔ d ∈ vec := by
  have hReflexive : ∀ d : FluxnodeCacheData, d.equivalent d = true := fun d => by
    simp [FluxnodeCacheData.equivalent]
  have hInv : ((vec.foldl insertRecord []).map (·.collateralIn)).Nodup ∧
      ∀ d ∈ vec.foldl insertRecord [], d ∈ vec := by
    refine foldlRecOn (motive := fun acc : List FluxnodeCacheData =>
      (acc.map (·.collateralIn)).Nodup ∧ ∀ d ∈ acc, d ∈ vec) vec insertRecord
      (b := []) ⟨by simp, by simp⟩ fun acc hAcc d hd => ?_
    unfold insertRecord
    split
    · exact hAcc
    · rename_i hNew
      refine ⟨?_, fun a ha => ?_⟩
      · rw [map_append, nodup_append]
        refine ⟨hAcc.1, by simp, ?_⟩
        intro k hk k' hk' hEq
        obtain ⟨a, ha, rfl⟩ := mem_map.mp hk
        rw [map_singleton, mem_singleton] at hk'
        rw [hSame a (hAcc.2 a ha) d hd (hEq.trans hk')] at ha
        exact hNew (any_eq_true.mpr ⟨d, ha, hReflexive d⟩)
      · rcases mem_append.mp ha with hOld | hLast
        · exact hAcc.2 a hOld
        · rwa [mem_singleton.mp hLast]
  refine ⟨hInv.1, fun d => ⟨hInv.2 d, fun hMem => ?_⟩⟩
  have hAny : (vec.foldl insertRecord []).any (·.equivalent d) = true := by
    refine Run.foldl_of_mem (P := fun acc : List FluxnodeCacheData =>
      acc.any (·.equivalent d) = true)
      hMem [] (fun acc => ?_) fun acc a hAcc => ?_
    · unfold insertRecord
      split
      · assumption
      · simp [hReflexive]
    · unfold insertRecord
      split
      · exact hAcc
      · rw [any_append, hAcc, Bool.true_or]
  obtain ⟨a, ha, hEquivalent⟩ := any_eq_true.mp hAny
  simp only [FluxnodeCacheData.equivalent, Bool.and_eq_true, beq_iff_eq] at hEquivalent
  rwa [← hSame a (hInv.2 a ha) d hMem hEquivalent.2]

end

theorem contains_collaterals {p : CTransaction → Bool} {vtx : List CTransaction} :
    (collaterals p vtx).contains o = true ↔ ∃ tx ∈ vtx, p tx = true ∧ tx.collateralIn = o := by
  unfold collaterals
  rw [TreeMap.contains_foldl_insert]
  simp [and_assoc]

theorem eq_of_collateralIn {p : COutPoint → FluxnodeCacheData → Prop}
    (hValid : ∀ o, (f o).Valid env nHeight o) (hRecord : ∀ a d, p a d → (f a).record? = some d)
    {vec : List FluxnodeCacheData} (hVec : ∀ d ∈ vec, ∃ a, p a d) :
    ∀ d ∈ vec, ∀ e ∈ vec, d.collateralIn = e.collateralIn → d = e := by
  intro d hd e he hKey
  obtain ⟨a, ha⟩ := hVec d hd
  obtain ⟨b, hb⟩ := hVec e he
  have hSame : a = b := by
    rw [← (hValid a).collateralIn (hRecord a d ha), hKey, (hValid b).collateralIn (hRecord b e hb)]
  have hRecords := hRecord b e hb
  rw [← hSame, hRecord a d ha] at hRecords
  exact Option.some.inj hRecords

section

variable (h : Written env (nHeight + 1) ev pays f undo) (hValid : ∀ o, (f o).Valid env nHeight o)

include h hValid

theorem Written.dos_eq :
    ∀ d ∈ undo.vecExpiredDosData, ∀ e ∈ undo.vecExpiredDosData,
      d.collateralIn = e.collateralIn → d = e :=
  eq_of_collateralIn hValid (fun a d hStatus => by rw [hStatus.1]; rfl) fun d hd => (h.dos d).mp hd

theorem Written.confirmed_eq :
    ∀ d ∈ undo.vecExpiredConfirmedData, ∀ e ∈ undo.vecExpiredConfirmedData,
      d.collateralIn = e.collateralIn → d = e :=
  eq_of_collateralIn hValid (fun a d hStatus => by rw [hStatus.1]; rfl)
    fun d hd => (h.confirmed d).mp hd

/-- The local cache of a disconnected block, for the undo data of the block. -/
theorem Written.disconnectsAt (hHolds : g.Holds f')
    (hStarts : ∀ o : COutPoint, (∃ tx ∈ block.vtx, tx.isFluxnodeStart = true ∧ tx.collateralIn = o)
      ↔ ev.starts[o]?.isSome = true)
    (hConfirms : ∀ o : COutPoint, (∃ tx ∈ block.vtx, tx.isInitialConfirm = true ∧
      tx.collateralIn = o) ↔ ev.confirms[o]?.isSome = true)
    (hUpdates : ∀ o : COutPoint, ev.updates[o]?.isSome → ∃ d, f o = .confirmed d) (o : COutPoint) :
    DisconnectsAt env (nHeight + 1) (ev.node o) (f o) (f' o)
      (disconnectFluxnodes g (nHeight + 1) block undo) o where
  start := by
    rw [disconnectFluxnodes, getElem?_undoneExpiredStarts, hHolds.dos]
  dosUndo := by
    rw [Bool.eq_iff_iff, disconnectFluxnodes, TreeMap.contains_foldl_insert,
      ← Std.ExtTreeMap.contains_eq_isSome_getElem?]
    simp
  dos := by
    ext d
    rw [disconnectFluxnodes, getElem?_foldl_insert_records (h.dos_eq hValid), h.dos,
      Option.filter_eq_some_iff, NodeStatus.place_dos_eq_some, beq_iff_eq]
    exact collateralIn_iff (p := fun a d => f a = .dos d ∧
      d.nAddedBlockHeight + FLUXNODE_DOS_REMOVE_AMOUNT = nHeight + 1) hValid
      (fun a d hStatus => by rw [hStatus.1]; rfl) o d
  updated := by
    rw [disconnectFluxnodes, getElem?_undoneUpdates, h.lastConfirmed, h.lastIp, hHolds.confirmed]
    cases hUpdate : ev.updates[o]? with
    | none => simp [BlockEvents.node, hUpdate]
    | some ip =>
      obtain ⟨d, hStatus⟩ := hUpdates o (by rw [hUpdate]; rfl)
      rw [hStatus]
      cases hNow : (f' o).place.confirmed <;>
        simp [BlockEvents.node, hUpdate, NodeStatus.record?, NodeStatus.place,
          FluxnodeCacheData.update]
  expire := by
    obtain ⟨hNodup, hMem⟩ := foldl_insertRecord (h.confirmed_eq hValid)
    ext d
    rw [disconnectFluxnodes, find?_key_eq_some_iff hNodup, hMem, h.confirmed,
      Option.filter_eq_some_iff, NodeStatus.place_confirmed_eq_some]
    exact collateralIn_iff (p := fun a d => f a = .confirmed d ∧
      (ev.node a).expires env (nHeight + 1) d = true) hValid
      (fun a d hStatus => by rw [hStatus.1]; rfl) o d
  undoStart := by
    rw [Bool.eq_iff_iff, disconnectFluxnodes, contains_collaterals]
    exact hStarts o
  undoConfirm := by
    rw [Bool.eq_iff_iff, disconnectFluxnodes, contains_collaterals]
    exact hConfirms o

end

theorem onlyUndo_disconnectFluxnodes : OnlyUndo (disconnectFluxnodes g nHeight block undo) :=
  ⟨rfl, rfl, rfl, rfl, rfl⟩

/-- The events and statuses of a block that is disconnected, and those that its undo data was
    written for. -/
structure Undoable (env : FluxnodeEnv) (nHeight : Nat) (block : CBlock) (ev : BlockEvents)
    (pays : COutPoint → Bool) (undo : CFluxnodeTxBlockUndo) (w f : COutPoint → NodeStatus) :
    Prop where
  written : Written env (nHeight + 1) ev pays w undo
  same : ∀ o, (w o).SameButPaid (f o)
  valid : ∀ o, (f o).Valid env nHeight o
  admits : ∀ o, (f o).Admits env (nHeight + 1) o (ev.node o)
  starts : ∀ o : COutPoint, (∃ tx ∈ block.vtx, tx.isFluxnodeStart = true ∧ tx.collateralIn = o) ↔
    ev.starts[o]?.isSome = true
  confirms : ∀ o : COutPoint, (∃ tx ∈ block.vtx, tx.isInitialConfirm = true ∧ tx.collateralIn = o) ↔
    ev.confirms[o]?.isSome = true

namespace Undoable

variable {w : COutPoint → NodeStatus}

section

variable (h : Undoable env nHeight block ev pays undo w f)

include h

theorem disconnectsAt (hHolds : g.Holds f') (o : COutPoint) :
    DisconnectsAt env (nHeight + 1) (ev.node o) (w o) (f' o)
      (disconnectFluxnodes g (nHeight + 1) block undo) o := by
  refine h.written.disconnectsAt (fun o => (h.same o).valid.mpr (h.valid o)) hHolds h.starts
    h.confirms (fun o hSome => ?_) o
  exact ((h.same o).admits.mpr (h.admits o)).update hSome

theorem of_same (hSame : ∀ o, (f o).SameButPaid (f' o)) :
    Undoable env nHeight block ev pays undo w f' where
  written := h.written
  same o := (h.same o).trans (hSame o)
  valid o := (hSame o).valid.mp (h.valid o)
  admits o := (hSame o).admits.mp (h.admits o)
  starts := h.starts
  confirms := h.confirms

theorem place_flush (hHolds : g.Holds f') (hValid : ∀ o, (f' o).Valid env (nHeight + 1) o)
    (o : COutPoint) :
    ((disconnectFluxnodes g (nHeight + 1) block undo).flush g).1.place o =
      (disconnectFluxnodes g (nHeight + 1) block undo).flushPlace o (f' o).place := by
  rw [← hHolds o]
  refine LocalFluxnodeCache.place_flush _ g (fun a d hGet => ?_)
    (recordsKeyed_of_valid hHolds hValid)
    (foldl_insertRecord (h.written.confirmed_eq fun o => (h.same o).valid.mpr (h.valid o))).1 o
  rw [(h.disconnectsAt hHolds a).start, Option.bind_eq_some_iff] at hGet
  obtain ⟨banned, hDos, hSome⟩ := hGet
  rw [NodeStatus.place_dos_eq_some] at hDos
  rw [Option.ite_none_right_eq_some] at hSome
  cases hSome.2
  exact (hValid a).collateralIn (d := banned) (by rw [hDos]; rfl)

theorem holds_flush (hHolds : g.Holds f') {pays' : COutPoint → Bool}
    (hNow : ∀ o, (f' o).SameButPaid ((f o).step env (nHeight + 1) (ev.node o) (pays' o))) :
    ∃ height : COutPoint → Nat,
      ((disconnectFluxnodes g (nHeight + 1) block undo).flush g).1.Holds fun o =>
        (f o).withPaid (height o) := by
  have hValid : ∀ o, (f' o).Valid env (nHeight + 1) o := fun o =>
    (hNow o).valid.mpr ((h.valid o).step (h.admits o) (pays' o))
  exact ⟨_, fun o => (h.place_flush hHolds hValid o).trans
    ((h.disconnectsAt hHolds o).flushPlace_eq onlyUndo_disconnectFluxnodes (h.valid o) (h.admits o)
      (h.same o) (hNow o))⟩

end

theorem holds_flush_before (h : Undoable env nHeight block ev pays undo f f)
    (hHolds : g.Holds fun o => (f o).step env (nHeight + 1) (ev.node o) (pays o)) :
    ((disconnectFluxnodes g (nHeight + 1) block undo).flush g).1.Holds f := by
  intro o
  rw [h.place_flush hHolds fun o => (h.valid o).step (h.admits o) (pays o)]
  refine (h.disconnectsAt hHolds o).flushPlace_eq_before onlyUndo_disconnectFluxnodes (h.valid o)
    (h.admits o) fun d hStatus => ?_
  refine (h.written.lastPaid o).trans ?_
  rw [hStatus]
  rfl

end Undoable

end Disconnect

end CloudService
