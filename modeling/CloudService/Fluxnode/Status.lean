/-
  The life of a node. A block moves it by `NodeStatus.step`, and `Flush` after a disconnected
  block takes the step back.
-/

import CloudService.Fluxnode.Block
import CloudService.Fluxnode.Places

namespace CloudService

open LocalFluxnodeCache

variable {d : FluxnodeCacheData}

inductive NodeStatus where
  | absent
  | started (d : FluxnodeCacheData)
  | dos (d : FluxnodeCacheData)
  | confirmed (d : FluxnodeCacheData)
deriving DecidableEq

structure NodeEvents where
  start : Option FluxnodeCacheData := none
  confirm : Option String := none
  update : Option String := none
  spent : Bool := false

def NodeEvents.expires (env : FluxnodeEnv) (nHeight : Nat) (ev : NodeEvents)
    (d : FluxnodeCacheData) : Bool :=
  (getCoinTierFromAmount d.nCollateral).isNone ||
    (ev.update.isNone &&
      decide (d.nLastConfirmedBlockHeight + getFluxnodeExpirationCount env nHeight < nHeight)) ||
    ev.spent

namespace NodeStatus

def place : NodeStatus → Place
  | absent => {}
  | started d => { started := some d }
  | dos d => { dos := some d }
  | confirmed d => { confirmed := some d }

def record? : NodeStatus → Option FluxnodeCacheData
  | absent => none
  | started d | dos d | confirmed d => some d

def lastPaid : NodeStatus → Nat
  | confirmed d => d.nLastPaidHeight
  | _ => 0

def withPaid (nHeight : Nat) : NodeStatus → NodeStatus
  | confirmed d => confirmed (d.withPaid nHeight)
  | st => st

/-- The status after a block, for a node that the block pays or not. -/
def step (env : FluxnodeEnv) (nHeight : Nat) (ev : NodeEvents) (paid : Bool) :
    NodeStatus → NodeStatus
  | absent => ev.start.elim absent started
  | started d =>
    match ev.confirm with
    | some ip => confirmed (d.confirm nHeight ip)
    | none =>
      if d.nAddedBlockHeight + FLUXNODE_START_TX_EXPIRATION_HEIGHT = nHeight then
        dos { d with nStatus := .dosProtection }
      else started d
  | dos d =>
    if d.nAddedBlockHeight + FLUXNODE_DOS_REMOVE_AMOUNT = nHeight then absent else dos d
  | confirmed d =>
    if ev.expires env nHeight d then absent
    else
      let d := ev.update.elim d (d.update nHeight)
      confirmed (if paid then d.withPaid nHeight else d)

def Valid (env : FluxnodeEnv) (nHeight : Nat) (o : COutPoint) : NodeStatus → Prop
  | absent => True
  | started d => d.collateralIn = o ∧ d.unconfirm = d ∧
      nHeight < d.nAddedBlockHeight + FLUXNODE_START_TX_EXPIRATION_HEIGHT ∧
      env.isAP2SHFluxNodePublicKey d.collateralPubkey = false
  | dos d => d.collateralIn = o ∧
      d.nAddedBlockHeight + FLUXNODE_START_TX_EXPIRATION_HEIGHT ≤ nHeight ∧
      nHeight < d.nAddedBlockHeight + FLUXNODE_DOS_REMOVE_AMOUNT
  | confirmed d => d.collateralIn = o ∧
      env.isAP2SHFluxNodePublicKey d.collateralPubkey = false

structure Admits (env : FluxnodeEnv) (nHeight : Nat) (o : COutPoint) (st : NodeStatus)
    (ev : NodeEvents) : Prop where
  start : ∀ d, ev.start = some d → st = absent ∧ d.nAddedBlockHeight = nHeight ∧
    (started d).Valid env nHeight o
  confirm : ev.confirm.isSome → ∃ d, st = started d
  update : ev.update.isSome → ∃ d, st = confirmed d

variable {env : FluxnodeEnv} {nHeight : Nat} {o : COutPoint} {ev : NodeEvents} {st st' : NodeStatus}

/-! ## Places -/

@[simp] theorem place_confirmed_eq_some :
    st.place.confirmed = some d ↔ st = confirmed d := by
  cases st <;> simp [place]

@[simp] theorem place_started_eq_some :
    st.place.started = some d ↔ st = started d := by
  cases st <;> simp [place]

@[simp] theorem place_dos_eq_some :
    st.place.dos = some d ↔ st = dos d := by
  cases st <;> simp [place]

theorem Valid.collateralIn (h : st.Valid env nHeight o)
    (hRecord : st.record? = some d) : d.collateralIn = o := by
  cases st <;> cases hRecord <;> exact h.1

/-! ## The height of the last payment -/

@[simp] theorem withPaid_withPaid (st : NodeStatus) (n m : Nat) :
    (st.withPaid n).withPaid m = st.withPaid m := by
  cases st <;> rfl

@[simp] theorem withPaid_self :
    (confirmed d).withPaid d.nLastPaidHeight = confirmed d := rfl

def SameButPaid (a b : NodeStatus) : Prop := a.withPaid 0 = b.withPaid 0

theorem SameButPaid.refl (a : NodeStatus) : a.SameButPaid a := rfl

theorem SameButPaid.symm {a b : NodeStatus} (h : a.SameButPaid b) : b.SameButPaid a := Eq.symm h

theorem SameButPaid.trans {a b c : NodeStatus} (h₁ : a.SameButPaid b) (h₂ : b.SameButPaid c) :
    a.SameButPaid c := Eq.trans h₁ h₂

theorem sameButPaid_withPaid (n : Nat) : (st.withPaid n).SameButPaid st := by
  unfold SameButPaid
  rw [withPaid_withPaid]

section

variable {a b : NodeStatus} (h : a.SameButPaid b)

include h

theorem SameButPaid.eq_withPaid : ∃ n, a = b.withPaid n := by
  cases a with
  | confirmed d =>
    refine ⟨d.nLastPaidHeight, ?_⟩
    have hTwice := b.withPaid_withPaid 0 d.nLastPaidHeight
    rw [← hTwice, ← h, withPaid_withPaid]
    exact withPaid_self.symm
  | absent | started d | dos d =>
    refine ⟨0, ?_⟩
    rw [← h]
    rfl

theorem SameButPaid.step (paid paid' : Bool) :
    (a.step env nHeight ev paid).SameButPaid (b.step env nHeight ev paid') := by
  obtain ⟨n, rfl⟩ := h.eq_withPaid
  cases b with
  | absent | started d | dos d => exact .refl _
  | confirmed d =>
    have hExpires : ev.expires env nHeight (d.withPaid n) = ev.expires env nHeight d := rfl
    simp only [NodeStatus.step, NodeStatus.withPaid, hExpires]
    split
    · exact .refl _
    · cases ev.update <;> cases paid <;> cases paid' <;> rfl

theorem SameButPaid.valid : a.Valid env nHeight o ↔ b.Valid env nHeight o := by
  obtain ⟨n, rfl⟩ := h.eq_withPaid
  cases b <;> exact Iff.rfl

theorem SameButPaid.admits : a.Admits env nHeight o ev ↔ b.Admits env nHeight o ev := by
  have hOf : ∀ {a b : NodeStatus}, a.SameButPaid b → a.Admits env nHeight o ev →
      b.Admits env nHeight o ev := by
    intro a b hSame hAdmits
    obtain ⟨n, rfl⟩ := hSame.eq_withPaid
    refine ⟨fun d hStart => ?_, fun hConfirm => ?_, fun hUpdate => ?_⟩
    · obtain ⟨hAbsent, hNew⟩ := hAdmits.start d hStart
      cases b <;> first | exact ⟨rfl, hNew⟩ | cases hAbsent
    · obtain ⟨d, hStarted⟩ := hAdmits.confirm hConfirm
      cases b <;> first | exact ⟨_, rfl⟩ | cases hStarted
    · obtain ⟨d, hConfirmed⟩ := hAdmits.update hUpdate
      cases b <;> first | exact ⟨_, rfl⟩ | cases hConfirmed
  exact ⟨hOf h, hOf h.symm⟩

end

namespace Admits

theorem no_start (h : st.Admits env nHeight o ev) (hNot : st ≠ absent) : ev.start = none :=
  Option.eq_none_iff_forall_ne_some.mpr fun d hStart => hNot (h.start d hStart).1

theorem no_confirm (h : st.Admits env nHeight o ev) (hNot : ∀ d, st ≠ started d) :
    ev.confirm = none := by
  cases hConfirm : ev.confirm with
  | none => rfl
  | some ip =>
    obtain ⟨d, hStarted⟩ := h.confirm (by rw [hConfirm]; rfl)
    exact absurd hStarted (hNot d)

theorem no_update (h : st.Admits env nHeight o ev) (hNot : ∀ d, st ≠ confirmed d) :
    ev.update = none := by
  cases hUpdate : ev.update with
  | none => rfl
  | some ip =>
    obtain ⟨d, hConfirmed⟩ := h.update (by rw [hUpdate]; rfl)
    exact absurd hConfirmed (hNot d)

end Admits

/-! ## A block -/

theorem Valid.step (h : st.Valid env nHeight o) (hAdmits : st.Admits env (nHeight + 1) o ev)
    (paid : Bool) : (st.step env (nHeight + 1) ev paid).Valid env (nHeight + 1) o := by
  cases st with
  | absent =>
    cases hStart : ev.start with
    | none => simp [NodeStatus.step, hStart, Valid]
    | some d =>
      obtain ⟨_, _, hNew⟩ := hAdmits.start d hStart
      simpa [NodeStatus.step, hStart] using hNew
  | started d =>
    obtain ⟨hKey, hFresh, hTime, hPubkey⟩ := h
    simp only [NodeStatus.step]
    split
    · exact ⟨hKey, hPubkey⟩
    · split
      · rename_i hExpired
        refine ⟨hKey, hExpired.le, ?_⟩
        simp only [FLUXNODE_START_TX_EXPIRATION_HEIGHT, FLUXNODE_DOS_REMOVE_AMOUNT] at hExpired ⊢
        omega
      · rename_i hNotExpired
        exact ⟨hKey, hFresh, by omega, hPubkey⟩
  | dos d =>
    obtain ⟨hKey, hBanned, hTime⟩ := h
    simp only [NodeStatus.step]
    split
    · trivial
    · exact ⟨hKey, by omega, by omega⟩
  | confirmed d =>
    obtain ⟨hKey, hPubkey⟩ := h
    simp only [NodeStatus.step]
    split
    · trivial
    · cases ev.update <;> cases paid <;> exact ⟨hKey, hPubkey⟩

theorem step_eq_confirmed {paid : Bool} (h : st.step env nHeight ev paid = .confirmed d) :
    (∃ started ip, st = .started started ∧ ev.confirm = some ip ∧ d = started.confirm nHeight ip) ∨
      ∃ old d', st = .confirmed old ∧ ev.expires env nHeight old = false ∧
        st.step env nHeight ev false = .confirmed d' ∧ d'.listData = old.listData ∧
        d'.nTier = old.nTier ∧ d = if paid then d'.withPaid nHeight else d' := by
  cases st with
  | absent =>
    cases hStart : ev.start with
    | none => simp [step, hStart] at h
    | some start => simp [step, hStart] at h
  | started old =>
    cases hConfirm : ev.confirm with
    | none =>
      simp only [step, hConfirm] at h
      split at h <;> cases h
    | some ip =>
      simp only [step, hConfirm] at h
      cases h
      exact .inl ⟨old, ip, rfl, rfl, rfl⟩
  | dos old =>
    simp only [step] at h
    split at h <;> cases h
  | confirmed old =>
    simp only [step] at h ⊢
    split at h
    · cases h
    · rename_i hExpires
      cases h
      refine .inr ⟨old, ev.update.elim old (old.update nHeight), rfl, by simpa using hExpires, ?_,
        ?_, ?_, rfl⟩
      · simp [hExpires]
      · cases ev.update <;> rfl
      · cases ev.update <;> rfl

end NodeStatus

/-! ## Connecting a block -/

def LocalFluxnodeCache.pays (l : LocalFluxnodeCache) (o : COutPoint) : Bool :=
  Tier.all.any fun tier => (l.mapPaidNodes tier).any (·.2 == o)

theorem LocalFluxnodeCache.pays_eq_true {l : LocalFluxnodeCache} {o : COutPoint} :
    l.pays o = true ↔ ∃ tier i, l.mapPaidNodes tier = some i ∧ i.2 = o := by
  unfold pays
  rw [List.any_eq_true]
  constructor
  · rintro ⟨tier, _, hTier⟩
    cases hPaid : l.mapPaidNodes tier with
    | none =>
      rw [hPaid] at hTier
      cases hTier
    | some i =>
      rw [hPaid, Option.any_some, beq_iff_eq] at hTier
      exact ⟨tier, i, hPaid, hTier⟩
  · rintro ⟨tier, i, hPaid, hKey⟩
    refine ⟨tier, tier.mem_all, ?_⟩
    rw [hPaid, Option.any_some, beq_iff_eq]
    exact hKey

structure ConnectsAt (env : FluxnodeEnv) (nHeight : Nat) (ev : NodeEvents) (st : NodeStatus)
    (l : LocalFluxnodeCache) (o : COutPoint) : Prop where
  start : l.mapStartTxTracker[o]? = ev.start
  dos : l.mapStartTxDOSTracker[o]? = st.place.started.bind fun d =>
    if d.nAddedBlockHeight + FLUXNODE_START_TX_EXPIRATION_HEIGHT = nHeight ∧ ev.confirm = none then
      some { d with nStatus := .dosProtection }
    else none
  dosExpired : l.mapDosExpiredToRemove.contains o = st.place.dos.any fun d =>
    d.nAddedBlockHeight + FLUXNODE_DOS_REMOVE_AMOUNT == nHeight
  confirm : l.mapAddToConfirm[o]? = ev.confirm
  confirmHeight : ev.confirm.isSome → l.setAddToConfirmHeight = nHeight
  update : l.mapAddToUpdateConfirm[o]? = ev.update
  updateHeight : ev.update.isSome → l.setAddToUpdateConfirmHeight = nHeight
  expired : l.setExpireConfirmOutPoints.contains o = st.place.confirmed.any (ev.expires env nHeight)
  paidHeight : ∀ tier i, l.mapPaidNodes tier = some i → i.1 = nHeight
  paid : l.pays o = true → ∃ d, st = .confirmed d

/-- The fields of the local cache that only a disconnected block fills. -/
structure NoUndo (l : LocalFluxnodeCache) : Prop where
  dos : l.mapDOSToUndo = ∅
  confirmed : l.mapConfirmedFluxnodeData = ∅
  expire : l.setUndoExpireConfirm = []
  start : l.setUndoStartTx = ∅
  confirm : l.setUndoAddToConfirm = ∅
  paid : l.mapUndoPaidNodes = ∅

theorem LocalFluxnodeCache.paidPlace_eq {l : LocalFluxnodeCache} {nHeight : Nat} {o : COutPoint}
    (h : ∀ tier i, l.mapPaidNodes tier = some i → i.1 = nHeight) (tiers : List Tier) (p : Place) :
    l.paidPlace tiers o p =
      if tiers.any fun tier => (l.mapPaidNodes tier).any (·.2 == o) then p.withPaid nHeight
      else p := by
  have hTwice : ∀ p : Place, (p.withPaid nHeight).withPaid nHeight = p.withPaid nHeight := by
    intro p
    cases hConfirmed : p.confirmed <;> simp [Place.withPaid, hConfirmed, FluxnodeCacheData.withPaid]
  unfold paidPlace
  induction tiers generalizing p with
  | nil => rfl
  | cons tier tiers ih =>
    rw [List.foldl_cons, ih, List.any_cons]
    cases hPaid : l.mapPaidNodes tier with
    | none => simp
    | some i =>
      by_cases hKey : i.2 = o
      · simp [hKey, h tier i hPaid, hTwice]
      · simp [hKey]

namespace ConnectsAt

variable {env : FluxnodeEnv} {nHeight : Nat} {ev : NodeEvents} {st : NodeStatus}
  {l : LocalFluxnodeCache} {o : COutPoint}

theorem not_paid (h : ConnectsAt env nHeight ev st l o) (hNot : ∀ d, st ≠ .confirmed d) :
    l.pays o = false := by
  rw [← Bool.not_eq_true]
  intro hPays
  obtain ⟨d, hConfirmed⟩ := h.paid hPays
  exact hNot d hConfirmed

/-- `Flush` after a connected block is the step of every node. -/
theorem flushPlace_eq (h : ConnectsAt env nHeight ev st l o) (hNoUndo : NoUndo l)
    (hAdmits : st.Admits env nHeight o ev) :
    l.flushPlace o st.place = (st.step env nHeight ev (l.pays o)).place := by
  have hPaid : ∀ p, l.paidPlace Tier.all o p = if l.pays o then p.withPaid nHeight else p :=
    l.paidPlace_eq h.paidHeight Tier.all
  simp only [flushPlace, hPaid, startsPlace,
    confirmsPlace, h.start, h.dos, h.dosExpired, h.confirm, h.update, h.expired,
    hNoUndo.dos, hNoUndo.confirmed, hNoUndo.expire, hNoUndo.start, hNoUndo.confirm, hNoUndo.paid,
    Std.ExtTreeMap.getElem?_empty, Std.ExtTreeSet.contains_empty, List.find?_nil, Option.elim_none,
    Bool.false_eq_true, if_false]
  -- In each status only the events that it admits are left.
  cases st with
  | absent =>
    have hConfirm := hAdmits.no_confirm (by simp)
    have hUpdate := hAdmits.no_update (by simp)
    have hNotPaid := h.not_paid (by simp)
    cases hStart : ev.start <;>
      simp [NodeStatus.place, NodeStatus.step, Place.addStart, hConfirm, hUpdate, hNotPaid, hStart]
  | started d =>
    have hStart := hAdmits.no_start (by simp)
    have hUpdate := hAdmits.no_update (by simp)
    have hNotPaid := h.not_paid (by simp)
    cases hConfirm : ev.confirm with
    | some ip =>
      simp [NodeStatus.place, NodeStatus.step, Place.addToConfirm, hStart, hConfirm, hUpdate,
        hNotPaid, h.confirmHeight (by rw [hConfirm]; rfl)]
    | none =>
      by_cases hTime : d.nAddedBlockHeight + FLUXNODE_START_TX_EXPIRATION_HEIGHT = nHeight <;>
        simp [NodeStatus.place, NodeStatus.step, Place.addDos, hStart, hConfirm, hUpdate,
          hNotPaid, hTime]
  | dos d =>
    have hStart := hAdmits.no_start (by simp)
    have hConfirm := hAdmits.no_confirm (by simp)
    have hUpdate := hAdmits.no_update (by simp)
    have hNotPaid := h.not_paid (by simp)
    by_cases hTime : d.nAddedBlockHeight + FLUXNODE_DOS_REMOVE_AMOUNT = nHeight <;>
      simp [NodeStatus.place, NodeStatus.step, Place.removeDos, hStart, hConfirm, hUpdate,
        hNotPaid, hTime]
  | confirmed d =>
    have hStart := hAdmits.no_start (by simp)
    have hConfirm := hAdmits.no_confirm (by simp)
    cases hExpires : ev.expires env nHeight d with
    | true =>
      cases hUpdate : ev.update <;>
        simp [NodeStatus.place, NodeStatus.step, Place.addToUpdateConfirm, Place.expireConfirm,
          Place.withPaid, hStart, hConfirm, hExpires]
    | false =>
      cases hUpdate : ev.update with
      | none =>
        cases l.pays o <;>
          simp [NodeStatus.place, NodeStatus.step, Place.withPaid, hStart, hConfirm, hUpdate,
            hExpires]
      | some ip =>
        have hHeight := h.updateHeight (by rw [hUpdate]; rfl)
        cases l.pays o <;>
          simp [NodeStatus.place, NodeStatus.step, Place.addToUpdateConfirm, Place.withPaid,
            hStart, hConfirm, hUpdate, hExpires, hHeight]

end ConnectsAt

/-! ## Disconnecting a block -/

structure DisconnectsAt (env : FluxnodeEnv) (nHeight : Nat) (ev : NodeEvents)
    (written now : NodeStatus) (l : LocalFluxnodeCache) (o : COutPoint) : Prop where
  start : l.mapStartTxTracker[o]? = now.place.dos.bind fun d =>
    if d.nAddedBlockHeight + FLUXNODE_START_TX_EXPIRATION_HEIGHT = nHeight then
      some { d with nStatus := .started }
    else none
  dosUndo : l.mapDOSToUndo.contains o = l.mapStartTxTracker[o]?.isSome
  dos : l.mapStartTxDOSTracker[o]? = written.place.dos.filter fun d =>
    d.nAddedBlockHeight + FLUXNODE_DOS_REMOVE_AMOUNT == nHeight
  updated : l.mapConfirmedFluxnodeData[o]? = ev.update.bind fun _ =>
    written.place.confirmed.bind fun old =>
      now.place.confirmed.map (·.update old.nLastConfirmedBlockHeight old.ip)
  expire : (l.setUndoExpireConfirm.find? fun d => decide (d.collateralIn = o)) =
    written.place.confirmed.filter (ev.expires env nHeight)
  undoStart : l.setUndoStartTx.contains o = ev.start.isSome
  undoConfirm : l.setUndoAddToConfirm.contains o = ev.confirm.isSome

/-- The fields of the local cache that only a connected block fills. -/
structure OnlyUndo (l : LocalFluxnodeCache) : Prop where
  dos : l.mapDosExpiredToRemove = ∅
  confirm : l.mapAddToConfirm = ∅
  update : l.mapAddToUpdateConfirm = ∅
  expire : l.setExpireConfirmOutPoints = ∅
  paid : l.mapPaidNodes = fun _ => none

namespace DisconnectsAt

variable {env : FluxnodeEnv} {nHeight : Nat} {ev : NodeEvents} {written now st : NodeStatus}
  {l : LocalFluxnodeCache} {o : COutPoint} {paid : Bool}

/-- `Flush` after a disconnected block takes the step of every node back. The height of the
    last payment is the one of the undo data, if that has one. -/
theorem flushPlace_eq (h : DisconnectsAt env (nHeight + 1) ev written now l o)
    (hOnly : OnlyUndo l) (hValid : st.Valid env nHeight o)
    (hAdmits : st.Admits env (nHeight + 1) o ev) (hWritten : written.SameButPaid st)
    (hNow : now.SameButPaid (st.step env (nHeight + 1) ev paid)) :
    l.flushPlace o now.place = (st.withPaid (l.mapUndoPaidNodes[o]?.getD
        (if now.place.confirmed.isSome then now.lastPaid else written.lastPaid))).place := by
  have hPaid : ∀ p, l.paidPlace Tier.all o p = p := by
    intro p
    simp [paidPlace, hOnly.paid, Tier.all]
  simp only [flushPlace, hPaid, startsPlace,
    confirmsPlace, h.start, h.dos, h.dosUndo, h.updated, h.expire, h.undoStart,
    h.undoConfirm, hOnly.dos, hOnly.confirm, hOnly.update, hOnly.expire,
    Std.ExtTreeMap.getElem?_empty, Std.ExtTreeSet.contains_empty, Option.elim_none,
    Bool.false_eq_true, if_false]
  obtain ⟨n, rfl⟩ := hWritten.eq_withPaid
  obtain ⟨m, rfl⟩ := hNow.eq_withPaid
  cases st with
  | absent =>
    have hConfirm := hAdmits.no_confirm (by simp)
    cases hStart : ev.start <;> cases l.mapUndoPaidNodes[o]? <;>
      simp [NodeStatus.place, NodeStatus.step, NodeStatus.withPaid, Place.undoStart, Place.withPaid,
        hConfirm, hStart]
  | started d =>
    obtain ⟨_, hFresh, _, _⟩ := hValid
    have hStart := hAdmits.no_start (by simp)
    have hUpdate := hAdmits.no_update (by simp)
    cases hConfirm : ev.confirm with
    | some ip =>
      have hUndone : ((d.confirm (nHeight + 1) ip).withPaid m).unconfirm = d := hFresh
      cases l.mapUndoPaidNodes[o]? <;>
        simp [NodeStatus.place, NodeStatus.step, NodeStatus.withPaid, Place.undoAddToConfirm,
          Place.withPaid, hConfirm, hStart, hUpdate, hUndone]
    | none =>
      by_cases hTime : d.nAddedBlockHeight + FLUXNODE_START_TX_EXPIRATION_HEIGHT = nHeight + 1
      · have hStatus : d.nStatus = .started := by rw [← hFresh]; rfl
        have hUndone : { d with nStatus := .started } = d := by rw [← hStatus]
        cases l.mapUndoPaidNodes[o]? <;>
          simp [NodeStatus.place, NodeStatus.step, NodeStatus.withPaid, Place.addStart,
            Place.removeDos, Place.withPaid, hConfirm, hStart, hUpdate, hTime, hUndone]
      · cases l.mapUndoPaidNodes[o]? <;>
          simp [NodeStatus.place, NodeStatus.step, NodeStatus.withPaid, Place.withPaid, hConfirm,
            hStart, hUpdate, hTime]
  | dos d =>
    obtain ⟨_, hBanned, _⟩ := hValid
    have hStart := hAdmits.no_start (by simp)
    have hConfirm := hAdmits.no_confirm (by simp)
    have hUpdate := hAdmits.no_update (by simp)
    by_cases hTime : d.nAddedBlockHeight + FLUXNODE_DOS_REMOVE_AMOUNT = nHeight + 1
    · cases l.mapUndoPaidNodes[o]? <;>
        simp [NodeStatus.place, NodeStatus.step, NodeStatus.withPaid, Option.filter_some,
          Place.addDos, Place.withPaid, hConfirm, hStart, hUpdate, hTime]
    · -- a node that is banned already was not banned by this block
      have hBefore : d.nAddedBlockHeight + FLUXNODE_START_TX_EXPIRATION_HEIGHT ≠ nHeight + 1 := by
        omega
      cases l.mapUndoPaidNodes[o]? <;>
        simp [NodeStatus.place, NodeStatus.step, NodeStatus.withPaid, Option.filter_some,
          Place.withPaid, hConfirm, hStart, hTime, hBefore]
  | confirmed d =>
    have hStart := hAdmits.no_start (by simp)
    have hConfirm := hAdmits.no_confirm (by simp)
    have hSame : ∀ k, ev.expires env (nHeight + 1) (d.withPaid k) =
        ev.expires env (nHeight + 1) d := fun _ => rfl
    cases hExpires : ev.expires env (nHeight + 1) d with
    | true =>
      cases ev.update <;> cases l.mapUndoPaidNodes[o]? <;>
        simp [NodeStatus.place, NodeStatus.step, NodeStatus.withPaid, NodeStatus.lastPaid,
          Option.filter_some, Place.undoExpire, Place.withPaid, hConfirm, hStart, hSame, hExpires]
    | false =>
      cases hUpdate : ev.update with
      | none =>
        cases l.mapUndoPaidNodes[o]? <;> cases paid <;>
          simp [NodeStatus.place, NodeStatus.step, NodeStatus.withPaid, NodeStatus.lastPaid,
            Option.filter_some, Place.withPaid, hConfirm, hStart, hUpdate, hSame, hExpires]
      | some ip =>
        cases l.mapUndoPaidNodes[o]? <;> cases paid <;>
          simp [NodeStatus.place, NodeStatus.step, NodeStatus.withPaid, NodeStatus.lastPaid,
            Option.filter_some, Place.undoUpdate, Place.withPaid, hConfirm, hStart, hUpdate, hSame,
            hExpires]

theorem flushPlace_eq_before (h : DisconnectsAt env (nHeight + 1) ev st
      (st.step env (nHeight + 1) ev paid) l o)
    (hOnly : OnlyUndo l) (hValid : st.Valid env nHeight o)
    (hAdmits : st.Admits env (nHeight + 1) o ev)
    (hPaid : ∀ d, st = .confirmed d →
      l.mapUndoPaidNodes[o]? = if paid then some d.nLastPaidHeight else none) :
    l.flushPlace o (st.step env (nHeight + 1) ev paid).place = st.place := by
  rw [h.flushPlace_eq hOnly hValid hAdmits (.refl _) (.refl _)]
  cases st with
  | absent | started d | dos d => rfl
  | confirmed d =>
    rw [hPaid d rfl]
    cases paid with
    | true => rfl
    | false =>
      cases hExpires : ev.expires env (nHeight + 1) d with
      | true => simp [NodeStatus.step, hExpires, NodeStatus.place, NodeStatus.lastPaid,
          NodeStatus.withPaid_self]
      | false => cases hUpdate : ev.update <;> simp [NodeStatus.step, hExpires, hUpdate,
          NodeStatus.place, NodeStatus.lastPaid, NodeStatus.withPaid_self]

end DisconnectsAt

end CloudService
