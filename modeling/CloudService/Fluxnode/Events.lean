/-
  What a block does to the nodes: `fluxnodeEvents` reads the events off the transactions and the
  coins. `ConnectBlock` collects exactly these when it succeeds (`Collected`).
-/

import CloudService.Chain.Node
import CloudService.Fluxnode.Status
import Mathlib.Data.List.Induction

namespace CloudService

open CTransaction List

inductive FluxnodeEvent where
  | nothing
  | start (d : FluxnodeCacheData)
  | confirm
  | update
  | spend

def fluxnodeEvent (env : FluxnodeEnv) (nHeight : Nat) (view : CoinsView) (tx : CTransaction) :
    FluxnodeEvent :=
  if tx.isCoinBase then .nothing
  else if tx.isFluxnodeTx then
    match checkFluxnodeTxInput env nHeight view tx with
    | .error _ => .nothing
    | .ok (tier, nCollateral) =>
      if tx.nType = FLUXNODE_START_TX_TYPE then .start (newStart nHeight tx tier nCollateral)
      else if tx.nType = FLUXNODE_CONFIRM_TX_TYPE then
        if tx.nUpdateType = INITIAL_CONFIRM then .confirm
        else if tx.nUpdateType = UPDATE_CONFIRM then .update
        else .nothing
      else .nothing
  else .spend

structure BlockEvents where
  starts : Std.ExtTreeMap COutPoint FluxnodeCacheData := ∅
  confirms : Std.ExtTreeMap COutPoint String := ∅
  updates : Std.ExtTreeMap COutPoint String := ∅
  spent : Std.ExtTreeSet COutPoint := ∅

namespace BlockEvents

def node (ev : BlockEvents) (o : COutPoint) : NodeEvents where
  start := ev.starts[o]?
  confirm := ev.confirms[o]?
  update := ev.updates[o]?
  spent := ev.spent.contains o

def record (ev : BlockEvents) (tx : CTransaction) : FluxnodeEvent → BlockEvents
  | .nothing => ev
  | .start d => { ev with starts := ev.starts.insert tx.collateralIn d }
  | .confirm => { ev with confirms := ev.confirms.insert tx.collateralIn tx.ip }
  | .update => { ev with updates := ev.updates.insert tx.collateralIn tx.ip }
  | .spend => { ev with spent := tx.vin.foldl (fun s txin => s.insert txin.prevout) ev.spent }

end BlockEvents

def eventsLoop (env : FluxnodeEnv) (nHeight : Nat) (coins : CoinsView) (txs : List CTransaction) :
    CoinsView × BlockEvents :=
  txs.foldl (fun st tx => (st.1.updateCoins (env.getHash tx) tx nHeight,
    st.2.record tx (fluxnodeEvent env nHeight st.1 tx))) (coins, {})

def fluxnodeEvents (env : FluxnodeEnv) (nHeight : Nat) (coins : CoinsView) (block : CBlock) :
    BlockEvents :=
  (eventsLoop env nHeight coins block.vtx).2

section FluxnodeEvent

variable {env : FluxnodeEnv} {nHeight : Nat} {view : CoinsView} {tx : CTransaction}

/-- The event of a fluxnode transaction that passes its check. -/
def checkedEvent (nHeight : Nat) (tx : CTransaction) (r : Tier × CAmount) : FluxnodeEvent :=
  if tx.nType = FLUXNODE_START_TX_TYPE then .start (newStart nHeight tx r.1 r.2)
  else if tx.nType = FLUXNODE_CONFIRM_TX_TYPE then
    if tx.nUpdateType = INITIAL_CONFIRM then .confirm
    else if tx.nUpdateType = UPDATE_CONFIRM then .update
    else .nothing
  else .nothing

theorem fluxnodeEvent_of_input {r : Tier × CAmount} (hCoinBase : tx.isCoinBase = false)
    (hFluxnode : tx.isFluxnodeTx = true)
    (hInput : checkFluxnodeTxInput env nHeight view tx = .ok r) :
    fluxnodeEvent env nHeight view tx = checkedEvent nHeight tx r := by
  simp [fluxnodeEvent, checkedEvent, hCoinBase, hFluxnode, hInput]

/-- What each event says of its transaction. -/
theorem fluxnodeEvent_spec (env : FluxnodeEnv) (nHeight : Nat) (view : CoinsView)
    (tx : CTransaction) :
    match fluxnodeEvent env nHeight view tx with
    | .nothing => True
    | .start d => tx.isFluxnodeStart = true ∧ ∃ tier nCollateral,
        checkFluxnodeTxInput env nHeight view tx = .ok (tier, nCollateral) ∧
        d = newStart nHeight tx tier nCollateral
    | .confirm => tx.isInitialConfirm = true ∧ ∃ r, checkFluxnodeTxInput env nHeight view tx = .ok r
    | .update => tx.isUpdateConfirm = true
    | .spend => tx.isCoinBase = false ∧ tx.isFluxnodeTx = false := by
  cases hCoinBase : tx.isCoinBase with
  | true => simp [fluxnodeEvent, hCoinBase]
  | false =>
    cases hFluxnode : tx.isFluxnodeTx with
    | false => simp [fluxnodeEvent, hCoinBase, hFluxnode]
    | true =>
      cases hInput : checkFluxnodeTxInput env nHeight view tx with
      | error e => simp [fluxnodeEvent, hCoinBase, hFluxnode, hInput]
      | ok r =>
        rw [fluxnodeEvent_of_input hCoinBase hFluxnode hInput, checkedEvent]
        split_ifs with hStart hConfirm hInitial hUpdate
        · exact ⟨by simp [isFluxnodeStart, hFluxnode, hStart], r.1, r.2, rfl, rfl⟩
        · exact ⟨by simp [isInitialConfirm, hFluxnode, hConfirm, hInitial], r, rfl⟩
        · simp [isUpdateConfirm, hFluxnode, hConfirm, hUpdate]
        · trivial
        · trivial

theorem fluxnodeEvent_of_spend (h : tx.isCoinBase = false ∧ tx.isFluxnodeTx = false) :
    fluxnodeEvent env nHeight view tx = .spend := by
  simp [fluxnodeEvent, h]

end FluxnodeEvent

section Loop

variable {env : FluxnodeEnv} {g : FluxnodeCache} {nHeight : Nat} {coins : CoinsView}
  {done : List CTransaction} {tx : CTransaction} {o : COutPoint}

theorem eventsLoop_snoc : eventsLoop env nHeight coins (done ++ [tx]) =
    ((eventsLoop env nHeight coins done).1.updateCoins (env.getHash tx) tx nHeight,
      (eventsLoop env nHeight coins done).2.record tx
        (fluxnodeEvent env nHeight (eventsLoop env nHeight coins done).1 tx)) := by
  simp [eventsLoop, foldl_append]

theorem eventsLoop_fst (txs : List CTransaction) : (eventsLoop env nHeight coins txs).1 =
    txs.foldl (fun v tx => v.updateCoins (env.getHash tx) tx nHeight) coins := by
  induction txs using reverseRecOn with
  | nil => rfl
  | append_singleton txs tx ih =>
    rw [eventsLoop_snoc, ih, foldl_append]
    rfl

/-! ## Where events come from -/

structure EventSources (env : FluxnodeEnv) (nHeight : Nat) (coins : CoinsView)
    (done : List CTransaction) (ev : BlockEvents) : Prop where
  start : ∀ (o : COutPoint) (d : FluxnodeCacheData), ev.starts[o]? = some d →
    ∃ before tx after tier nCollateral, done = before ++ tx :: after ∧
      tx.isFluxnodeStart = true ∧ tx.collateralIn = o ∧
      checkFluxnodeTxInput env nHeight (eventsLoop env nHeight coins before).1 tx =
        .ok (tier, nCollateral) ∧ d = newStart nHeight tx tier nCollateral
  confirm : ∀ (o : COutPoint) (ip : String), ev.confirms[o]? = some ip →
    ∃ before tx after r, done = before ++ tx :: after ∧ tx.isInitialConfirm = true ∧
      tx.collateralIn = o ∧
      checkFluxnodeTxInput env nHeight (eventsLoop env nHeight coins before).1 tx = .ok r
  update : ∀ (o : COutPoint) (ip : String), ev.updates[o]? = some ip →
    ∃ tx ∈ done, tx.isUpdateConfirm = true ∧ tx.collateralIn = o
  spent : ∀ o : COutPoint, ev.spent.contains o = true ↔
    ∃ tx ∈ done, tx.isCoinBase = false ∧ tx.isFluxnodeTx = false ∧ ∃ txin ∈ tx.vin,
      txin.prevout = o

namespace EventSources

theorem mono {ev : BlockEvents} (h : EventSources env nHeight coins done ev)
    {spent : Std.ExtTreeSet COutPoint}
    (hSpent : ∀ o, spent.contains o = true ↔ ev.spent.contains o = true ∨
      (tx.isCoinBase = false ∧ tx.isFluxnodeTx = false ∧ ∃ txin ∈ tx.vin, txin.prevout = o)) :
    EventSources env nHeight coins (done ++ [tx]) { ev with spent } where
  start o d hStart := by
    obtain ⟨before, t, after, tier, nCollateral, rfl, hRest⟩ := h.start o d hStart
    exact ⟨before, t, after ++ [tx], tier, nCollateral, by simp, hRest⟩
  confirm o ip hConfirm := by
    obtain ⟨before, t, after, r, rfl, hRest⟩ := h.confirm o ip hConfirm
    exact ⟨before, t, after ++ [tx], r, by simp, hRest⟩
  update o ip hUpdate := by
    obtain ⟨t, hMem, hRest⟩ := h.update o ip hUpdate
    exact ⟨t, mem_append_left _ hMem, hRest⟩
  spent o := by
    rw [hSpent, h.spent o]
    simp only [mem_append, mem_singleton]
    constructor
    · rintro (⟨t, hMem, hRest⟩ | hRest)
      · exact ⟨t, .inl hMem, hRest⟩
      · exact ⟨tx, .inr rfl, hRest⟩
    · rintro ⟨t, hMem | rfl, hRest⟩
      · exact .inl ⟨t, hMem, hRest⟩
      · exact .inr hRest

theorem snoc (h : EventSources env nHeight coins done (eventsLoop env nHeight coins done).2) :
    EventSources env nHeight coins (done ++ [tx])
      (eventsLoop env nHeight coins (done ++ [tx])).2 := by
  rw [eventsLoop_snoc]
  generalize hEv : (eventsLoop env nHeight coins done).2 = ev at h ⊢
  by_cases hSpend : tx.isCoinBase = false ∧ tx.isFluxnodeTx = false
  · rw [fluxnodeEvent_of_spend hSpend]
    refine h.mono fun o => ?_
    rw [TreeMap.contains_foldl_insert]
    simp [hSpend]
  · have hMono : EventSources env nHeight coins (done ++ [tx]) ev := h.mono fun o => by
      rw [← and_assoc, iff_self_or]
      exact fun hBoth => absurd hBoth.1 hSpend
    have hSpec := fluxnodeEvent_spec env nHeight (eventsLoop env nHeight coins done).1 tx
    cases hEvent : fluxnodeEvent env nHeight (eventsLoop env nHeight coins done).1 tx with
    | nothing => exact hMono
    | spend =>
      rw [hEvent] at hSpec
      exact absurd hSpec hSpend
    | start d =>
      refine { hMono with start := fun o d' hStart => ?_ }
      rw [BlockEvents.record, TreeMap.getElem?_insert_eq] at hStart
      split at hStart
      · rename_i hKey
        cases hStart
        rw [hEvent] at hSpec
        obtain ⟨hIsStart, tier, nCollateral, hInput, hNew⟩ := hSpec
        exact ⟨done, tx, [], tier, nCollateral, rfl, hIsStart, hKey, hInput, hNew⟩
      · exact hMono.start o d' hStart
    | confirm =>
      refine { hMono with confirm := fun o ip hConfirm => ?_ }
      rw [BlockEvents.record, TreeMap.getElem?_insert_eq] at hConfirm
      split at hConfirm
      · rename_i hKey
        rw [hEvent] at hSpec
        obtain ⟨hIsConfirm, r, hInput⟩ := hSpec
        exact ⟨done, tx, [], r, rfl, hIsConfirm, hKey, hInput⟩
      · exact hMono.confirm o ip hConfirm
    | update =>
      refine { hMono with update := fun o ip hUpdate => ?_ }
      rw [BlockEvents.record, TreeMap.getElem?_insert_eq] at hUpdate
      split at hUpdate
      · rename_i hKey
        rw [hEvent] at hSpec
        exact ⟨tx, by simp, hSpec, hKey⟩
      · exact hMono.update o ip hUpdate

theorem of_eventsLoop (txs : List CTransaction) :
    EventSources env nHeight coins txs (eventsLoop env nHeight coins txs).2 := by
  induction txs using reverseRecOn with
  | nil =>
    exact ⟨fun o d h => by simp [eventsLoop] at h, fun o ip h => by simp [eventsLoop] at h,
      fun o ip h => by simp [eventsLoop] at h, fun o => by simp [eventsLoop]⟩
  | append_singleton txs tx ih => exact ih.snoc

end EventSources

/-! ## The loop of ConnectBlock -/

/-- What a turn of the loop records for the event of its transaction. -/
def FluxnodeLoop.record (g : FluxnodeCache) (nHeight : Nat) (st : FluxnodeLoop)
    (tx : CTransaction) : FluxnodeEvent → FluxnodeLoop
  | .nothing => st
  | .start d =>
    { st with
      fluxnodeCache := { st.fluxnodeCache with
        mapStartTxTracker := st.fluxnodeCache.mapStartTxTracker.insert tx.collateralIn d } }
  | .confirm =>
    { st with
      fluxnodeCache := { st.fluxnodeCache with
        mapAddToConfirm := st.fluxnodeCache.mapAddToConfirm.insert tx.collateralIn tx.ip
        setAddToConfirmHeight := nHeight } }
  | .update =>
    (g.getFluxnodeData tx.collateralIn).elim st fun data =>
      { st with
        fluxnodeCache := { st.fluxnodeCache with
          mapAddToUpdateConfirm :=
            st.fluxnodeCache.mapAddToUpdateConfirm.insert tx.collateralIn tx.ip
          setAddToUpdateConfirmHeight := nHeight }
        fluxnodeTxBlockUndo := { st.fluxnodeTxBlockUndo with
          mapUpdateLastConfirmHeight :=
            st.fluxnodeTxBlockUndo.mapUpdateLastConfirmHeight.insert tx.collateralIn
              data.nLastConfirmedBlockHeight
          mapLastIpAddress :=
            st.fluxnodeTxBlockUndo.mapLastIpAddress.insert tx.collateralIn data.ip } }
  | .spend =>
    { st with
      setSpentOutPoints :=
        tx.vin.foldl (fun s txin => s.insert txin.prevout) st.setSpentOutPoints }

theorem FluxnodeLoop.view_record (st : FluxnodeLoop) (e : FluxnodeEvent) :
    (st.record g nHeight tx e).view = st.view := by
  cases e with
  | update => cases hData : g.getFluxnodeData tx.collateralIn <;> simp [record, hData]
  | nothing | start d | confirm | spend => rfl

theorem connectFluxnodeTx_eq_ok {st st' : FluxnodeLoop} (hCoinBase : tx.isCoinBase = false)
    (hFluxnode : tx.isFluxnodeTx = true) (h : connectFluxnodeTx env g nHeight st tx = .ok st') :
    st' = st.record g nHeight tx (fluxnodeEvent env nHeight st.view tx) ∧
      (∃ r, checkFluxnodeTxInput env nHeight st.view tx = .ok r) ∧
      (fluxnodeEvent env nHeight st.view tx = .update →
        ∃ data, g.getFluxnodeData tx.collateralIn = some data) := by
  unfold connectFluxnodeTx at h
  rw [except_bind_eq_ok] at h
  obtain ⟨r, hInput, hRest⟩ := h
  rw [fluxnodeEvent_of_input hCoinBase hFluxnode hInput, checkedEvent]
  by_cases hStart : tx.nType = FLUXNODE_START_TX_TYPE
  · simp only [if_pos hStart] at hRest ⊢
    rw [check_bind_eq_ok] at hRest
    cases hRest.2
    exact ⟨rfl, ⟨r, hInput⟩, by simp⟩
  · by_cases hConfirm : tx.nType = FLUXNODE_CONFIRM_TX_TYPE
    · by_cases hInitial : tx.nUpdateType = INITIAL_CONFIRM
      · simp only [if_neg hStart, if_pos hConfirm, if_pos hInitial] at hRest ⊢
        cases hRest
        exact ⟨rfl, ⟨r, hInput⟩, by simp⟩
      · by_cases hUpdate : tx.nUpdateType = UPDATE_CONFIRM
        · simp only [if_neg hStart, if_pos hConfirm, if_neg hInitial, if_pos hUpdate] at hRest ⊢
          cases hData : g.getFluxnodeData tx.collateralIn with
          | none =>
            rw [hData] at hRest
            cases hRest
          | some data =>
            rw [hData] at hRest
            cases hRest
            refine ⟨?_, ⟨r, hInput⟩, fun _ => ⟨data, rfl⟩⟩
            rw [FluxnodeLoop.record, hData]
            rfl
        · simp only [if_neg hStart, if_pos hConfirm, if_neg hInitial, if_neg hUpdate] at hRest ⊢
          cases hRest
          exact ⟨rfl, ⟨r, hInput⟩, by simp⟩
    · simp only [if_neg hStart, if_neg hConfirm] at hRest ⊢
      cases hRest
      exact ⟨rfl, ⟨r, hInput⟩, by simp⟩

theorem connectFluxnodeTurn_eq_ok {st st' : FluxnodeLoop}
    (h : connectFluxnodeTurn env g nHeight st tx = .ok st') :
    st' = { st.record g nHeight tx (fluxnodeEvent env nHeight st.view tx) with
        view := st.view.updateCoins (env.getHash tx) tx nHeight } ∧
      (tx.isCoinBase = false → tx.isFluxnodeTx = true →
        ∃ r, checkFluxnodeTxInput env nHeight st.view tx = .ok r) ∧
      (fluxnodeEvent env nHeight st.view tx = .update →
        ∃ data, g.getFluxnodeData tx.collateralIn = some data) := by
  unfold connectFluxnodeTurn at h
  rw [except_bind_eq_ok] at h
  obtain ⟨mid, hMid, hEnd⟩ := h
  cases hEnd
  unfold connectFluxnodeBranch at hMid
  cases hCoinBase : tx.isCoinBase with
  | true =>
    rw [if_pos hCoinBase] at hMid
    cases hMid
    have hEvent : fluxnodeEvent env nHeight st.view tx = .nothing :=
      by simp [fluxnodeEvent, hCoinBase]
    rw [hEvent]
    exact ⟨rfl, by simp, by simp⟩
  | false =>
    rw [hCoinBase] at hMid
    cases hFluxnode : tx.isFluxnodeTx with
    | false =>
      rw [hFluxnode] at hMid
      cases hMid
      rw [fluxnodeEvent_of_spend ⟨hCoinBase, hFluxnode⟩]
      exact ⟨rfl, by simp, by simp⟩
    | true =>
      rw [hFluxnode] at hMid
      obtain ⟨rfl, hInput, hData⟩ := connectFluxnodeTx_eq_ok hCoinBase hFluxnode hMid
      rw [FluxnodeLoop.view_record]
      exact ⟨rfl, fun _ _ => hInput, hData⟩

/-- The loop has recorded some events. -/
structure EventsRecorded (g : FluxnodeCache) (nHeight : Nat)
    (mapPaidNodes : Tier → Option (Nat × COutPoint)) (ev : BlockEvents) (st : FluxnodeLoop) :
    Prop where
  starts : st.fluxnodeCache.mapStartTxTracker = ev.starts
  confirms : st.fluxnodeCache.mapAddToConfirm = ev.confirms
  confirmHeight : ∀ o : COutPoint, ev.confirms[o]?.isSome →
    st.fluxnodeCache.setAddToConfirmHeight = nHeight
  updates : st.fluxnodeCache.mapAddToUpdateConfirm = ev.updates
  updateHeight : ∀ o : COutPoint, ev.updates[o]?.isSome →
    st.fluxnodeCache.setAddToUpdateConfirmHeight = nHeight
  spent : st.setSpentOutPoints = ev.spent
  paid : st.fluxnodeCache.mapPaidNodes = mapPaidNodes
  noUndo : NoUndo st.fluxnodeCache
  lastConfirmed : ∀ o : COutPoint, st.fluxnodeTxBlockUndo.mapUpdateLastConfirmHeight[o]? =
    ev.updates[o]?.bind fun _ => (g.getFluxnodeData o).map (·.nLastConfirmedBlockHeight)
  lastIp : ∀ o : COutPoint, st.fluxnodeTxBlockUndo.mapLastIpAddress[o]? =
    ev.updates[o]?.bind fun _ => (g.getFluxnodeData o).map (·.ip)

variable {mapPaidNodes : Tier → Option (Nat × COutPoint)} {st st' : FluxnodeLoop} {ev : BlockEvents}

theorem EventsRecorded.record (h : EventsRecorded g nHeight mapPaidNodes ev st) (e : FluxnodeEvent)
    (hData : e = .update → ∃ data, g.getFluxnodeData tx.collateralIn = some data) :
    EventsRecorded g nHeight mapPaidNodes (ev.record tx e) (st.record g nHeight tx e) := by
  cases e with
  | nothing => exact h
  | start d =>
    exact { h with
      starts := congrArg (·.insert tx.collateralIn d) h.starts
      noUndo := ⟨h.noUndo.1, h.noUndo.2, h.noUndo.3, h.noUndo.4, h.noUndo.5, h.noUndo.6⟩ }
  | confirm =>
    exact { h with
      confirms := congrArg (·.insert tx.collateralIn tx.ip) h.confirms
      confirmHeight := fun _ _ => rfl
      noUndo := ⟨h.noUndo.1, h.noUndo.2, h.noUndo.3, h.noUndo.4, h.noUndo.5, h.noUndo.6⟩ }
  | update =>
    obtain ⟨data, hGet⟩ := hData rfl
    rw [FluxnodeLoop.record, hGet, Option.elim_some]
    refine { h with
      updates := congrArg (·.insert tx.collateralIn tx.ip) h.updates
      updateHeight := fun _ _ => rfl
      noUndo := ⟨h.noUndo.1, h.noUndo.2, h.noUndo.3, h.noUndo.4, h.noUndo.5, h.noUndo.6⟩
      lastConfirmed := fun o => ?_
      lastIp := fun o => ?_ }
    · by_cases hKey : tx.collateralIn = o
      · subst hKey
        simp [BlockEvents.record, hGet]
      · simp [BlockEvents.record, hKey, h.lastConfirmed]
    · by_cases hKey : tx.collateralIn = o
      · subst hKey
        simp [BlockEvents.record, hGet]
      · simp [BlockEvents.record, hKey, h.lastIp]
  | spend =>
    exact { h with spent := by simp only [FluxnodeLoop.record, BlockEvents.record, h.spent] }

/-- What the loop has collected after some transactions. -/
structure Collected (env : FluxnodeEnv) (g : FluxnodeCache) (nHeight : Nat) (coins : CoinsView)
    (mapPaidNodes : Tier → Option (Nat × COutPoint)) (done : List CTransaction)
    (st : FluxnodeLoop) : Prop where
  view : st.view = (eventsLoop env nHeight coins done).1
  recorded : EventsRecorded g nHeight mapPaidNodes (eventsLoop env nHeight coins done).2 st
  inputs : ∀ before tx after, done = before ++ tx :: after → tx.isCoinBase = false →
    tx.isFluxnodeTx = true →
    ∃ r, checkFluxnodeTxInput env nHeight (eventsLoop env nHeight coins before).1 tx = .ok r

namespace Collected

theorem start : Collected env g nHeight coins mapPaidNodes []
    { view := coins, fluxnodeCache := { mapPaidNodes } } where
  view := rfl
  recorded :=
    { starts := rfl
      confirms := rfl
      confirmHeight := fun o h => by simp [eventsLoop] at h
      updates := rfl
      updateHeight := fun o h => by simp [eventsLoop] at h
      spent := rfl
      paid := rfl
      noUndo := ⟨rfl, rfl, rfl, rfl, rfl, rfl⟩
      lastConfirmed := fun o => by simp [eventsLoop]
      lastIp := fun o => by simp [eventsLoop] }
  inputs before tx after h := by simp at h

theorem snoc (h : Collected env g nHeight coins mapPaidNodes done st)
    (hTurn : connectFluxnodeTurn env g nHeight st tx = .ok st') :
    Collected env g nHeight coins mapPaidNodes (done ++ [tx]) st' := by
  obtain ⟨rfl, hInput, hData⟩ := connectFluxnodeTurn_eq_ok hTurn
  rw [h.view] at hInput hData
  have hRecorded := h.recorded.record _ hData
  refine ⟨?_, ?_, ?_⟩
  · rw [eventsLoop_snoc, h.view]
  · rw [eventsLoop_snoc, h.view]
    exact { hRecorded with noUndo := hRecorded.noUndo }
  · intro before t after hSplit
    rcases eq_nil_or_concat after with rfl | ⟨after, last, rfl⟩
    · obtain ⟨rfl, hLast⟩ := append_inj' hSplit rfl
      cases hLast
      exact hInput
    · rw [concat_eq_append, ← cons_append, ← append_assoc] at hSplit
      exact h.inputs before t after (append_inj' hSplit rfl).1

theorem of_foldlM {vtx : List CTransaction} (h : vtx.foldlM (connectFluxnodeTurn env g nHeight)
      { view := coins, fluxnodeCache := { mapPaidNodes } } = .ok st) :
    Collected env g nHeight coins mapPaidNodes vtx st := by
  have hSteps : Run.Steps _ (fun _ _ => True) _ vtx st := .of_foldlM h fun _ _ => trivial
  exact hSteps.invariant_split (fun done st => Collected env g nHeight coins mapPaidNodes done st)
    (fun done tx rest s t _ hDone _ hTurn => hDone.snoc hTurn) start

end Collected

/-! ## Every transaction leaves its event -/

theorem eventsLoop_keeps {P : BlockEvents → Prop} (hP : ∀ ev tx e, P ev → P (ev.record tx e))
    {before : List CTransaction} (h : P (eventsLoop env nHeight coins before).2)
    (after : List CTransaction) : P (eventsLoop env nHeight coins (before ++ after)).2 := by
  induction after using reverseRecOn with
  | nil => rwa [append_nil]
  | append_singleton after tx ih =>
    rw [← append_assoc, eventsLoop_snoc]
    exact hP _ _ _ ih

theorem contains_starts_record (ev : BlockEvents) (e : FluxnodeEvent)
    (h : ev.starts.contains o = true) : (ev.record tx e).starts.contains o = true := by
  cases e with
  | start d => simp [BlockEvents.record, Std.ExtTreeMap.contains_insert, h]
  | nothing | confirm | update | spend => exact h

theorem contains_confirms_record (ev : BlockEvents) (e : FluxnodeEvent)
    (h : ev.confirms.contains o = true) : (ev.record tx e).confirms.contains o = true := by
  cases e with
  | confirm => simp [BlockEvents.record, Std.ExtTreeMap.contains_insert, h]
  | nothing | start d | update | spend => exact h

namespace Collected

variable {vtx : List CTransaction}

section

variable (h : Collected env g nHeight coins mapPaidNodes vtx st)

include h

theorem fluxnodeEvent_eq {before after : List CTransaction} (hSplit : vtx = before ++ tx :: after)
    (hCoinBase : tx.isCoinBase = false) (hFluxnode : tx.isFluxnodeTx = true) :
    ∃ r, fluxnodeEvent env nHeight (eventsLoop env nHeight coins before).1 tx =
      checkedEvent nHeight tx r := by
  obtain ⟨r, hInput⟩ := h.inputs before tx after hSplit hCoinBase hFluxnode
  exact ⟨r, fluxnodeEvent_of_input hCoinBase hFluxnode hInput⟩

theorem isSome_starts_iff (hCoinBase : ∀ tx ∈ vtx, tx.isFluxnodeTx = true → tx.isCoinBase = false)
    (o : COutPoint) :
    (∃ tx ∈ vtx, tx.isFluxnodeStart = true ∧ tx.collateralIn = o) ↔
      (eventsLoop env nHeight coins vtx).2.starts[o]?.isSome = true := by
  constructor
  · rintro ⟨tx, hMem, hStart, rfl⟩
    obtain ⟨before, after, hSplit⟩ := append_of_mem hMem
    simp only [isFluxnodeStart, Bool.and_eq_true, beq_iff_eq] at hStart
    obtain ⟨r, hEvent⟩ := h.fluxnodeEvent_eq hSplit (hCoinBase tx hMem hStart.1) hStart.1
    rw [← Std.ExtTreeMap.contains_eq_isSome_getElem?, hSplit, append_cons]
    refine eventsLoop_keeps (P := fun ev => ev.starts.contains tx.collateralIn = true)
      (fun ev _ e hEv => contains_starts_record ev e hEv) ?_ after
    simp [eventsLoop_snoc, hEvent, checkedEvent, hStart.2, BlockEvents.record]
  · intro hSome
    obtain ⟨d, hGet⟩ := Option.isSome_iff_exists.mp hSome
    obtain ⟨before, tx, after, _, _, rfl, hStart, hKey, _⟩ :=
      (EventSources.of_eventsLoop vtx).start o d hGet
    exact ⟨tx, by simp, hStart, hKey⟩

theorem isSome_confirms_iff
    (hCoinBase : ∀ tx ∈ vtx, tx.isFluxnodeTx = true → tx.isCoinBase = false) (o : COutPoint) :
    (∃ tx ∈ vtx, tx.isInitialConfirm = true ∧ tx.collateralIn = o) ↔
      (eventsLoop env nHeight coins vtx).2.confirms[o]?.isSome = true := by
  constructor
  · rintro ⟨tx, hMem, hConfirm, rfl⟩
    obtain ⟨before, after, hSplit⟩ := append_of_mem hMem
    simp only [isInitialConfirm, Bool.and_eq_true, beq_iff_eq] at hConfirm
    obtain ⟨⟨hFluxnode, hType⟩, hInitial⟩ := hConfirm
    have hNotStart : FLUXNODE_CONFIRM_TX_TYPE ≠ FLUXNODE_START_TX_TYPE := by decide
    obtain ⟨r, hEvent⟩ := h.fluxnodeEvent_eq hSplit (hCoinBase tx hMem hFluxnode) hFluxnode
    rw [← Std.ExtTreeMap.contains_eq_isSome_getElem?, hSplit, append_cons]
    refine eventsLoop_keeps (P := fun ev => ev.confirms.contains tx.collateralIn = true)
      (fun ev _ e hEv => contains_confirms_record ev e hEv) ?_ after
    simp [eventsLoop_snoc, hEvent, checkedEvent, hType, hNotStart, hInitial, BlockEvents.record]
  · intro hSome
    obtain ⟨ip, hGet⟩ := Option.isSome_iff_exists.mp hSome
    obtain ⟨before, tx, after, _, rfl, hConfirm, hKey, _⟩ :=
      (EventSources.of_eventsLoop vtx).confirm o ip hGet
    exact ⟨tx, by simp, hConfirm, hKey⟩

end

end Collected

end Loop

end CloudService
