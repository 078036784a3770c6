/-
  Connecting a block and disconnecting it again. The entry of an expired node stays right for
  the case that its expiry is undone (`Kept`).
-/

import CloudService.Coins.Disconnect
import CloudService.Fluxnode.Collateral
import CloudService.Fluxnode.UndoLists

namespace CloudService

open Pointwise NodeStatus List

/-! ## Heights -/

theorem comparatorHeight_le_of_ledger {env : FluxnodeEnv} {block : CBlock} {chain : List CBlock}
    {o : COutPoint} {d : FluxnodeCacheData} (h : ledger env (block :: chain) o = .confirmed d) :
    d.listData.comparatorHeight ≤ chain.length := by
  induction chain generalizing block d with
  | nil => cases h
  | cons prev chain ih =>
    rcases step_eq_confirmed h with
      ⟨started, ip, _, _, rfl⟩ | ⟨old, d', hOld, _, _, hEntry, _, rfl⟩
    · exact Nat.le_refl _
    · split
      · exact Nat.le_refl _
      · rw [hEntry]
        exact (ih hOld).trans (Nat.le_succ _)

theorem FluxnodeListData.lt_of_height_lt {a b : FluxnodeListData}
    (h : a.comparatorHeight < b.comparatorHeight) : a.lt b = true := by
  unfold lt
  simp [h]

/-! ## Entries of expired nodes -/

/-- The node expired with this entry, and every node of the tier paid later came before it. -/
def Kept (env : FluxnodeEnv) (tier : Tier) (e : FluxnodeListData) : List CBlock → Prop
  | [] | [_] => False
  | block :: prev :: chain =>
    (∀ d, ledger env (block :: prev :: chain) e.out ≠ .confirmed d) ∧
      ((∃ d, ledger env (prev :: chain) e.out = .confirmed d ∧ d.listData = e) ∨
        Kept env tier e (prev :: chain) ∧ ∀ o d,
          ledgerPays env (chain.length + 1) (ledger env (prev :: chain)) o = true →
          ledger env (prev :: chain) o = .confirmed d → d.nTier = tier → d.listData.lt e = true)

theorem Kept.not_confirmed {env : FluxnodeEnv} {tier : Tier} {e : FluxnodeListData}
    {chain : List CBlock} (h : Kept env tier e chain) (d : FluxnodeCacheData) :
    ledger env chain e.out ≠ .confirmed d := by
  match chain, h with
  | _ :: _ :: _, h => exact h.1 d

section Connect

variable {env : FluxnodeEnv} {g : FluxnodeCache} {nHeight : Nat} {f : COutPoint → NodeStatus}
  {coins : CoinsView} {block : CBlock} {mapPaidNodes : Tier → Option (Nat × COutPoint)}
  {l : LocalFluxnodeCache} {undo : CFluxnodeTxBlockUndo} {tierOf : COutPoint → Tier} {tier : Tier}
  {e : FluxnodeListData}

theorem FluxnodeList.mem_of_mem_payFront {fl : FluxnodeList} {out : COutPoint}
    {entry : FluxnodeListData} (h : e ∈ (fl.payFront out entry).listConfirmedFluxnodes) :
    e ∈ fl.listConfirmedFluxnodes ∨ e = entry := by
  unfold payFront at h
  split at h
  · rename_i first rest hList
    split at h
    · rw [hList]
      rcases mem_append.mp h with hRest | hNew
      · exact .inl (mem_cons_of_mem _ hRest)
      · exact .inr (mem_singleton.mp hNew)
    · exact .inl h
  · exact .inl h

/-- The entry of a node that is not confirmed after a block was there before. -/
theorem ConnectedNodes.mem_of_mem_flush
    (h : ConnectedNodes env (nHeight + 1) coins block mapPaidNodes f l undo)
    (hQueued : Queued tierOf f g) (hValid : ∀ o, (f o).Valid env nHeight o)
    (hAdmits : ∀ o, (f o).Admits env (nHeight + 1) o
      ((fluxnodeEvents env (nHeight + 1) coins block).node o))
    (hMem : e ∈ ((l.flush g).1.mapFluxnodeList tier).listConfirmedFluxnodes)
    (hNot : ∀ d, (f e.out).step env (nHeight + 1)
      ((fluxnodeEvents env (nHeight + 1) coins block).node e.out) (l.pays e.out) ≠ .confirmed d) :
    e ∈ (g.mapFluxnodeList tier).listConfirmedFluxnodes := by
  obtain ⟨add, ht⟩ := h.trackersFlushed hQueued.holds hValid hAdmits
  obtain ⟨hSame, hLists⟩ := l.paidState_eq g
  have hQueue := hQueued.queue tier
  have hPaidOuts := (ht.paidList (l := l) hValid hAdmits hQueue.wellFormed).2
  have hList := hLists tier
  rw [ht.lists] at hList
  rw [← hList] at hPaidOuts
  rw [(LocalFluxnodeCache.flush_of_connect h.noUndo.paid g).1] at hMem
  rcases (ht.mem_flushLists (l := l) hQueued.placed hQueue hSame hPaidOuts).mp hMem with
    ⟨d, hd, _, rfl⟩ | ⟨hOld, _⟩
  · -- the block confirms the node
    obtain ⟨o, started, ip, hStarted, hConfirm, rfl⟩ := (ht.added d).mp hd
    have hOut : (started.confirm (nHeight + 1) ip).listData.out = o :=
      (hQueued.placed o started (by rw [hStarted]; rfl)).1
    rw [hOut, hStarted] at hNot
    simp [step, hConfirm] at hNot
  · rw [hList, LocalFluxnodeCache.paidList] at hOld
    cases hPaid : l.mapPaidNodes tier with
    | none =>
      rw [hPaid] at hOld
      exact hOld
    | some i =>
      cases hGet : ((l.flushConfirms (l.flushStarts { cache := g })).place i.2).confirmed with
      | none =>
        rw [hPaid, Option.elim_some, hGet] at hOld
        exact hOld
      | some d =>
        rw [hPaid, Option.elim_some, hGet, Option.elim_some] at hOld
        refine (FluxnodeList.mem_of_mem_payFront hOld).resolve_right ?_
        rintro rfl
        -- a payee that is still confirmed
        have hOut : (d.withPaid i.1).listData.out = i.2 :=
          ht.collateralIn (d := d) hValid hAdmits hGet
        rw [ht.place, place_confirmed_eq_some] at hGet
        rw [hOut] at hNot
        rcases step_eq_confirmed hGet with
          ⟨started, ip, hStarted, hConfirm, _⟩ | ⟨old, _, hStatus, hExpires, _⟩
        · simp [step, hStarted, hConfirm] at hNot
        · simp [step, hStatus, hExpires] at hNot

end Connect

/-! ## Connecting and disconnecting -/

def TipChange.block? : TipChange → Option CBlock
  | connect block => some block
  | disconnect => none

namespace FullNode

/-- No payee of the last block that is still confirmed is the first entry of its list. -/
def payeesBehind (s : FullNode) : Bool :=
  match s.node.chain.reverse with
  | block :: _ =>
    let undo := (s.mapBlockIndex[block.hash]?.map CBlockIndex.fluxnodeUndo).getD {}
    undo.mapLastPaidHeights.toList.all fun i =>
      s.fluxnodeCache.mapConfirmedFluxnodeData[i.1]?.all fun d =>
        (s.fluxnodeCache.mapFluxnodeList d.nTier).listConfirmedFluxnodes.head?.map
          (·.out) != some i.1
  | [] => true

/-- Blocks are disconnected only with their payees behind the first entries of the lists. -/
def undoesPayments (s : FullNode) : TipChange → Bool
  | .connect _ => true
  | .disconnect => s.payeesBehind

end FullNode

def EntryExact (env : FluxnodeEnv) (index : Std.ExtTreeMap Uint256 CBlockIndex) (e : CBlockIndex) :
    Prop :=
  ∃ prev chain, Indexed env index (prev :: chain) ∧ prev.hash = e.pprev ∧
    Undoable env chain.length e.block (chainEvents env (prev :: chain) e.block)
      (ledgerPays env (chain.length + 1) (ledger env (prev :: chain))) e.fluxnodeUndo
      (ledger env (prev :: chain)) (ledger env (prev :: chain))

/-- The cache is what the ledger says, with nothing else than what the chain explains. -/
structure Restores (env : FluxnodeEnv) (txs : List CTransaction) (s : FullNode) : Prop where
  follows : FollowsLedger env txs s
  kept : ∀ tier, ∀ e ∈ (s.fluxnodeCache.mapFluxnodeList tier).listConfirmedFluxnodes,
    (∀ d, ledger env s.node.chain.reverse e.out ≠ .confirmed d) →
    Kept env tier e s.node.chain.reverse
  exact : ∀ (hash : Uint256) (e : CBlockIndex), s.mapBlockIndex[hash]? = some e →
    EntryExact env s.mapBlockIndex e

section Runs

variable {env : FluxnodeEnv} {txs : List CTransaction} {s s' : FullNode} {block prev : CBlock}
  {chain : List CBlock}

theorem FollowsLedger.advances (h : FollowsLedger env txs s)
    (hConnect : s.connect env block = .ok s')
    (hChain : s.node.chain.reverse = prev :: chain) :
    ∃ l undo, FullNode.Advances env s s' block prev chain (ledger env (prev :: chain)) l undo ∧
      l.pays = ledgerPays env (chain.length + 1) (ledger env (prev :: chain)) := by
  have hQueued := h.queued
  rw [hChain] at hQueued
  obtain ⟨l, undo, hStep⟩ := h.tracks.advances hConnect hChain hQueued.holds fun o => .refl _
  exact ⟨l, undo, hStep, funext fun o => h.pays_eq hChain hStep.connected.paid o⟩

theorem FollowsLedger.placed_below (h : FollowsLedger env txs s)
    (hIds : CollisionFree env.toEnv txs)
    (hChain : s.node.chain.reverse = block :: prev :: chain) :
    Placed (collateralTier env.toEnv txs) (ledger env (prev :: chain)) := by
  have hIndexed := h.tracks.chain
  have hKnown := h.known
  rw [hChain] at hIndexed hKnown
  intro o d hRecord
  exact ⟨(h.tracks.index.ledger_valid hIndexed.2 o).collateralIn hRecord,
    tier_of_ledger hIds (fun tx hMem => hKnown tx (mem_append_right _ hMem)) hRecord⟩

theorem EntryExact.mono {index index' : Std.ExtTreeMap Uint256 CBlockIndex}
    (hIndex : ∀ (hash : Uint256) (e : CBlockIndex), index[hash]? = some e →
      index'[hash]? = some e) {e : CBlockIndex} (h : EntryExact env index e) :
    EntryExact env index' e := by
  obtain ⟨prev, chain, hChain, hRest⟩ := h
  exact ⟨prev, chain, hChain.mono hIndex, hRest⟩

namespace Restores

theorem init : Restores env txs (.init env) where
  follows := .init
  kept := fun _ _ hMem => by cases hMem
  exact := fun hash e hGet => by simp [FullNode.init] at hGet

section

variable (h : Restores env txs s)

include h

/-- The entry of a node that is not confirmed, after a block is connected. -/
theorem kept_connect (hChain : s.node.chain.reverse = prev :: chain) {l : LocalFluxnodeCache}
    {undo : CFluxnodeTxBlockUndo}
    (hStep : FullNode.Advances env s s' block prev chain (ledger env (prev :: chain)) l undo)
    (hPays : l.pays = ledgerPays env (chain.length + 1) (ledger env (prev :: chain)))
    {tier : Tier} {e : FluxnodeListData}
    (hMem : e ∈ (s'.fluxnodeCache.mapFluxnodeList tier).listConfirmedFluxnodes)
    (hNot : ∀ d, ledger env (block :: prev :: chain) e.out ≠ .confirmed d) :
    Kept env tier e (block :: prev :: chain) := by
  have hQueued := h.follows.queued
  have hKept := h.kept tier e
  obtain ⟨nHeight, hValid⟩ := h.follows.valid
  rw [hChain] at hQueued hKept hValid
  have hChecked : Queued _ _ (s.checkedCache env) := FullNode.queued_checkedCache hQueued
  have hQueue := hChecked.queue tier
  have hOld : e ∈ ((s.checkedCache env).mapFluxnodeList tier).listConfirmedFluxnodes := by
    rw [hStep.flush] at hMem
    refine hStep.connected.mem_of_mem_flush hChecked hStep.undoable.valid hStep.undoable.admits hMem
      fun d => ?_
    rw [hPays]
    exact hNot d
  refine ⟨hNot, ?_⟩
  by_cases hConfirmed : ∃ d, ledger env (prev :: chain) e.out = .confirmed d
  · obtain ⟨d, hStatus⟩ := hConfirmed
    exact .inl ⟨d, hStatus, (hQueue.entry_eq hChecked.placed hOld hStatus).symm⟩
  · rw [not_exists] at hConfirmed
    have hIn : e ∈ (s.fluxnodeCache.mapFluxnodeList tier).listConfirmedFluxnodes := by
      rw [FullNode.mapFluxnodeList_checkedCache] at hOld
      split at hOld
      · rw [(hQueued.queue tier).wellFormed.cleaned_eq] at hOld
        exact LazyQueue.mem_of_mem_clean hOld
      · exact hOld
    refine .inr ⟨hKept hIn hConfirmed, fun o d hPaid hStatus hTier => ?_⟩
    -- the payee is the first entry, and the list is in order
    rw [ledgerPays_eq_true] at hPaid
    obtain ⟨hStart, tier', hPayee⟩ := hPaid
    have hSame : tier' = tier := by
      obtain ⟨d', hStatus', hTier', _⟩ := hPayee
      cases hStatus.symm.trans hStatus'
      exact hTier'.symm.trans hTier
    subst hSame
    have hPaidNode : s.paidNodes env tier' = some (s.node.nextHeight, o) := by
      refine (FullNode.paidNodes_eq_some_iff hQueued hValid).mpr ⟨?_, rfl, hPayee⟩
      rw [FullNode.paysFluxnodes, FullNode.nextHeight_eq hChain]
      exact decide_eq_true hStart
    obtain ⟨first, rest, hList, hFirst⟩ :=
      FullNode.paidNodes_front (hQueued.queue tier').wellFormed hPaidNode
    have hFirstOut : first.out = o := hFirst
    have hEntry : first = d.listData := hQueue.entry_eq hChecked.placed
      (hList ▸ mem_cons_self) (hFirstOut ▸ hStatus)
    have hSorted := hQueue.sorted
    rw [FluxnodeList.Sorted, hList, pairwise_cons] at hSorted
    rw [hList] at hOld
    rw [← hEntry]
    refine hSorted.1 e ((mem_cons.mp hOld).resolve_left ?_)
    rintro rfl
    exact hConfirmed d (hFirstOut ▸ hStatus)

theorem connect (hIds : CollisionFree env.toEnv txs) (hTxs : ∀ tx ∈ block.vtx, tx ∈ txs)
    (hConnect : s.connect env block = .ok s') : Restores env txs s' := by
  obtain ⟨prev, chain, hChain⟩ := h.follows.tracks.chain_eq
  obtain ⟨l, undo, hStep, hPays⟩ := h.follows.advances hConnect hChain
  obtain ⟨_, hNewChain, hMore⟩ := h.follows.tracks.indexOk_connect hChain (fun o => .refl _) hStep
  refine ⟨h.follows.connect hIds hTxs hConnect, fun tier e hMem hNot => ?_, fun hash e hGet => ?_⟩
  · rw [hStep.chain_eq hChain] at hNot ⊢
    exact h.kept_connect hChain hStep hPays hMem hNot
  · rcases FullNode.indexBlock_eq_ok hStep.index with ⟨_, hIndex⟩ | ⟨hIndex, _⟩
    · rw [hIndex, TreeMap.getElem?_insert_eq] at hGet
      split at hGet
      · cases hGet
        have hUndoable := hStep.undoable
        rw [hPays] at hUndoable
        exact ⟨prev, chain, hNewChain.2, (h.follows.tracks.hashBlock_eq hChain).symm, hUndoable⟩
      · exact (h.exact hash e hGet).mono hMore
    · rw [hIndex] at hGet
      exact (h.exact hash e hGet).mono hMore

theorem undoable (hChain : s.node.chain.reverse = block :: prev :: chain) :
    ∃ e, s.mapBlockIndex[block.hash]? = some e ∧
      Undoable env chain.length block (chainEvents env (prev :: chain) block)
        (ledgerPays env (chain.length + 1) (ledger env (prev :: chain))) e.fluxnodeUndo
        (ledger env (prev :: chain)) (ledger env (prev :: chain)) := by
  have hIndexed := h.follows.tracks.chain
  rw [hChain] at hIndexed
  obtain ⟨⟨e, hGet, hBlock, hPrev⟩, hRest⟩ := hIndexed
  obtain ⟨prev', chain', hOwn, hHash, hUndoable⟩ := h.exact _ _ hGet
  cases hOwn.unique h.follows.tracks.index.genesis hRest (hHash.trans hPrev)
  rw [hBlock] at hUndoable
  exact ⟨e, hGet, hUndoable⟩

/-- What the undo of the payments needs. -/
theorem undoes (hIds : CollisionFree env.toEnv txs)
    (hChain : s.node.chain.reverse = block :: prev :: chain) (hBehind : s.payeesBehind = true)
    (tier : Tier) :
    Undoes (collateralTier env.toEnv txs) (ledger env (prev :: chain))
      (ledger env (block :: prev :: chain))
      (ledgerPays env (chain.length + 1) (ledger env (prev :: chain))) tier
      (s.fluxnodeCache.mapFluxnodeList tier) := by
  have hQueued := h.follows.queued
  have hKept := h.kept tier
  have hPlaced := h.follows.placed_below hIds hChain
  obtain ⟨entry, hGet, hUndoable⟩ := h.undoable hChain
  rw [hChain] at hQueued hKept
  have hQueue := hQueued.queue tier
  have hPayee : ∀ o, ledgerPays env (chain.length + 1) (ledger env (prev :: chain)) o = true →
      IsNextPayee (ledger env (prev :: chain)) (collateralTier env.toEnv txs o) o := by
    intro o hPays
    rw [ledgerPays_eq_true] at hPays
    obtain ⟨_, tier', hPayee⟩ := hPays
    obtain ⟨d, hStatus, hTier, _⟩ := id hPayee
    rw [← (hPlaced.of_confirmed hStatus).2, hTier]
    exact hPayee
  refine ⟨hQueue, hPayee, fun o d hPays hTier hStatus e hMem hNe => ?_,
    fun e hMem hGone d hStatus => ?_,
    fun o d d' hStatus hNow => ?_, fun o d' hPays hTier hNow first rest hList hFirst => ?_⟩
  · have hLess : ∀ d', ledger env (prev :: chain) e.out = .confirmed d' →
        d.listData.lt d'.listData = true := by
      intro d' hStatus'
      obtain ⟨old, hOld, _, hLeast⟩ := hPayee o hPays
      cases hStatus.symm.trans hOld
      refine hLeast e.out d' hStatus' ?_ hNe
      rw [(hPlaced.of_confirmed hStatus').2, hTier, hQueue.ofTier e hMem]
    by_cases hConfirmed : ∃ d', ledger env (block :: prev :: chain) e.out = .confirmed d'
    · obtain ⟨d', hNow⟩ := hConfirmed
      rw [hQueue.entry_eq hQueued.placed hMem hNow]
      rcases step_eq_confirmed hNow with
        ⟨started, ip, _, _, rfl⟩ | ⟨old, d'', hOld, _, _, hEntry, _, rfl⟩
      · exact FluxnodeListData.lt_of_height_lt
          (Nat.lt_succ_of_le (comparatorHeight_le_of_ledger hStatus))
      · split
        · -- another payee is of another tier
          rename_i hPaid
          have hOther := hPayee e.out hPaid
          rw [hQueue.ofTier e hMem, ← hTier] at hOther
          exact absurd (hOther.unique (hPayee o hPays)) hNe
        · rw [hEntry]
          exact hLess old hOld
    · rw [not_exists] at hConfirmed
      rcases (hKept e hMem hConfirmed).2 with ⟨d', hStatus', rfl⟩ | ⟨_, hBefore⟩
      · exact hLess d' hStatus'
      · exact hBefore o d hPays hStatus ((hPlaced.of_confirmed hStatus).2.trans hTier)
  · rcases (hKept e hMem hGone).2 with ⟨d', hStatus', hEntry⟩ | ⟨hStale, _⟩
    · cases hStatus.symm.trans hStatus'
      exact hEntry.symm
    · exact absurd hStatus (hStale.not_confirmed d)
  · rcases step_eq_confirmed hNow with
      ⟨started, _, hStarted, _⟩ | ⟨old, d'', hOld, _, _, hEntry, _, rfl⟩
    · rw [hStatus] at hStarted
      cases hStarted
    · cases hStatus.symm.trans hOld
      have hPaid : ∀ b : Bool, ((if b = true then d''.withPaid (chain.length + 1) else d'').withPaid
          d.nLastPaidHeight).listData = (d''.withPaid d.nLastPaidHeight).listData := by
        intro b
        cases b <;> rfl
      rw [hPaid, FluxnodeCacheData.withPaid, FluxnodeCacheData.listData]
      rw [FluxnodeCacheData.listData, FluxnodeCacheData.listData,
        FluxnodeListData.mk.injEq] at hEntry
      exact FluxnodeListData.mk.injEq _ _ _ _ _ _ ▸ ⟨hEntry.1, hEntry.2.1, rfl⟩
  · obtain ⟨d, hStatus, _⟩ := hPayee o hPays
    unfold FullNode.payeesBehind at hBehind
    rw [hChain] at hBehind
    simp only [hGet, Option.map_some, Option.getD_some] at hBehind
    have hOne := all_eq_true.mp hBehind (o, d.nLastPaidHeight)
      (hUndoable.mem_lastPaid_iff.mpr ⟨hPays, d, hStatus, rfl⟩)
    have hConfirmed : s.fluxnodeCache.mapConfirmedFluxnodeData[o]? = some d' := by
      rw [hQueued.holds.confirmed, hNow]
      rfl
    rw [hConfirmed, Option.all_some, (hQueued.placed.of_confirmed hNow).2, hTier, hList] at hOne
    simp [hFirst] at hOne

theorem disconnect (hIds : CollisionFree env.toEnv txs) (hBehind : s.payeesBehind = true)
    (hDisconnect : s.disconnect env = .ok s') : Restores env txs s' := by
  have hTracks := h.follows.tracks.disconnect hDisconnect
  unfold FullNode.disconnect at hDisconnect
  split at hDisconnect
  · rename_i block prev chain hChain
    cases hDisconnect
    have hUndoes := h.undoes hIds hChain hBehind
    have hPlaced := h.follows.placed_below hIds hChain
    have hQueued := h.follows.queued
    have hKnown := h.follows.known
    have hKept := h.kept
    obtain ⟨e, hGet, hUndoable⟩ := h.undoable hChain
    rw [hChain] at hQueued hKnown hKept
    rw [hGet] at hTracks ⊢
    refine ⟨⟨hTracks, ?_, ?_⟩, fun tier e hMem hNot => ?_, h.exact⟩
    · rw [reverse_reverse]
      exact ⟨hUndoable.holds_flush_before hQueued.holds, hPlaced,
        hUndoable.queueOf_disconnect hQueued.holds hPlaced hQueued.placed hUndoes⟩
    · rw [reverse_reverse]
      exact fun tx hMem => hKnown tx (mem_append_right _ hMem)
    · rw [reverse_reverse] at hNot ⊢
      obtain ⟨hOld, hGone⟩ := hUndoable.mem_of_mem_disconnect hQueued.holds hPlaced hQueued.placed
        hUndoes hMem hNot
      rcases (hKept tier e hOld hGone).2 with ⟨d, hStatus, _⟩ | ⟨hStale, _⟩
      · exact absurd hStatus (hNot d)
      · exact hStale
  · cases hDisconnect

theorem step (hIds : CollisionFree env.toEnv txs) {change : TipChange}
    (hTxs : ∀ block, change.block? = some block → ∀ tx ∈ block.vtx, tx ∈ txs)
    (hOk : s.undoesPayments change = true) (hStep : s.step env change = .ok s') :
    Restores env txs s' := by
  cases change with
  | connect block => exact h.connect hIds (hTxs block rfl) hStep
  | disconnect => exact h.disconnect hIds hOk hStep

end

end Restores

theorem FollowsLedger.nextPayment_of_chain (hs : FollowsLedger env txs s)
    (hs' : FollowsLedger env txs s')
    (hChain : s'.node.chain = s.node.chain) (tier : Tier) :
    s'.nextPayment env tier = s.nextPayment env tier := by
  obtain ⟨nHeight, hValid⟩ := hs.valid
  have hQueued := hs'.queued
  unfold FullNode.nextPayment
  rw [hs'.tracks.view, hs.tracks.view, hChain]
  rw [hChain] at hQueued
  exact hQueued.getNextPayment_eq hs.queued hValid _ tier

theorem FollowsLedger.nextPayment_of_blocks (hIds : CollisionFree env.toEnv txs)
    {blocks : List CBlock}
    (hTxs : ∀ tx ∈ chainTxs blocks, tx ∈ txs) {t u v : FullNode} (hs : FollowsLedger env txs s)
    (ht : FollowsLedger env txs t) (hChain : t.node.chain = s.node.chain)
    (hu : blocks.foldlM (FullNode.connect env) s = .ok u)
    (hv : blocks.foldlM (FullNode.connect env) t = .ok v) (tier : Tier) :
    v.nextPayment env tier = u.nextPayment env tier := by
  induction blocks generalizing s t with
  | nil =>
    cases hu
    cases hv
    exact hs.nextPayment_of_chain ht hChain tier
  | cons block blocks ih =>
    rw [foldlM_cons, except_bind_eq_ok] at hu hv
    obtain ⟨s₁, hConnectS, hRestS⟩ := hu
    obtain ⟨t₁, hConnectT, hRestT⟩ := hv
    have hBlock : ∀ tx ∈ block.vtx, tx ∈ txs := fun tx hMem => hTxs tx (mem_append_left _ hMem)
    have hExtended : t₁.node.chain = s₁.node.chain := by
      obtain ⟨prev, chain, hEq⟩ := hs.tracks.chain_eq
      obtain ⟨_, _, hStepS, _⟩ := hs.advances hConnectS hEq
      obtain ⟨_, _, hStepT, _⟩ := ht.advances hConnectT (hChain ▸ hEq)
      exact reverse_injective
        ((hStepT.chain_eq (hChain ▸ hEq)).trans (hStepS.chain_eq hEq).symm)
    exact ih (fun tx hMem => hTxs tx (mem_append_right _ hMem))
      (hs.connect hIds hBlock hConnectS) (ht.connect hIds hBlock hConnectT) hExtended hRestS hRestT

end Runs

/-- On runs on which no block is disconnected while a node that it paid is the first entry of its
    list, a block that is connected and disconnected leaves the trackers as they were, and the
    payees of all blocks that may follow. The coins are those that the undo data of the block
    restores. -/
theorem FullNode.disconnect_restores (env : FluxnodeEnv) (changes : List TipChange) (block : CBlock)
    (more : List CBlock)
    (hIds : CollisionFree env.toEnv
      (chainTxs (changes.filterMap TipChange.block? ++ block :: more)))
    (s s' : FullNode)
    (hRun : Run.Steps (FullNode.step env) (fun s change => s.undoesPayments change = true)
      (.init env) changes s)
    (hConnect : s.connect env block = .ok s') (hBehind : s'.payeesBehind = true) :
    ∃ s'', s'.disconnect env = .ok s'' ∧
      s''.fluxnodeCache.mapStartTxTracker = s.fluxnodeCache.mapStartTxTracker ∧
      s''.fluxnodeCache.mapStartTxDOSTracker = s.fluxnodeCache.mapStartTxDOSTracker ∧
      s''.fluxnodeCache.mapConfirmedFluxnodeData = s.fluxnodeCache.mapConfirmedFluxnodeData ∧
      (∀ tier, s''.nextPayment env tier = s.nextPayment env tier) ∧
      (SaplingRootRecorded env.toEnv s.node.context block →
        SparesHeightZero s.node.view block.vtx → ∃ undo view',
        connectUndo (s.payingEnv env) {} s.node.context block s.node.cache = some undo ∧
        disconnectCoins env.toEnv s.node.nextHeight s.node.view.hashBlock block undo s'.node.view =
          some (.ok, view') ∧ SameState s''.node.view view') ∧
      ∀ u u'', more.foldlM (FullNode.connect env) s = .ok u →
        more.foldlM (FullNode.connect env) s'' = .ok u'' →
        ∀ tier, u''.nextPayment env tier = u.nextPayment env tier := by
  have hTxs : ∀ b ∈ changes.filterMap TipChange.block? ++ block :: more, ∀ tx ∈ b.vtx,
      tx ∈ chainTxs (changes.filterMap TipChange.block? ++ block :: more) :=
    fun b hb tx hTx => mem_flatMap.mpr ⟨b, hb, hTx⟩
  have hStart :
      Restores env (chainTxs (changes.filterMap TipChange.block? ++ block :: more)) s := by
    refine (hRun.strengthen fun change hMem b hBlock => hTxs b ?_).invariant
      (fun _ _ _ h hOk hStep => Restores.step h hIds hOk.2 hOk.1 hStep) .init
    exact mem_append_left _ (mem_filterMap.mpr ⟨change, hMem, hBlock⟩)
  have hMiddle := hStart.connect hIds (hTxs block (by simp)) hConnect
  obtain ⟨prev, chain, hChain⟩ := hStart.follows.tracks.chain_eq
  obtain ⟨_, _, hStep, _⟩ := hStart.follows.advances hConnect hChain
  have hExtended := hStep.chain_eq hChain
  obtain ⟨s'', hDisconnect, hBack⟩ : ∃ s'', s'.disconnect env = .ok s'' ∧
      s''.node.chain = s.node.chain := by
    unfold disconnect
    rw [hExtended]
    exact ⟨_, rfl, (congrArg List.reverse hChain.symm).trans (reverse_reverse _)⟩
  have hEnd := hMiddle.disconnect hIds hBehind hDisconnect
  -- Both states follow the ledger of one chain, so nothing of the path is left in them.
  have hPlace : ∀ o, s''.fluxnodeCache.place o = s.fluxnodeCache.place o := fun o => by
    rw [hEnd.follows.queued.holds o, hStart.follows.queued.holds o, hBack]
  refine ⟨s'', hDisconnect, Std.ExtTreeMap.ext_getElem? fun o => congrArg Place.started (hPlace o),
    Std.ExtTreeMap.ext_getElem? fun o => congrArg Place.dos (hPlace o),
    Std.ExtTreeMap.ext_getElem? fun o => congrArg Place.confirmed (hPlace o),
    hStart.follows.nextPayment_of_chain hEnd.follows hBack, fun hRoot hSpares => ?_,
    fun u u'' hu hu'' tier => ?_⟩
  · obtain ⟨st, _, hPre, hLoop, _, hNode⟩ := connectTip_eq_ok hStep.tip
    rw [hEnd.follows.tracks.view, hBack, ← hStart.follows.tracks.view, hNode]
    have hBlock := hTxs block (by simp)
    exact disconnectCoins_restores (ValidBlock.of_preChecks hPre)
      (fun t ht u hu => hIds t (hBlock t ht) u (hBlock u hu))
      ((Nat.succ_pos _).trans_eq (FullNode.nextHeight_eq hChain).symm) hLoop hRoot hSpares
  · refine hStart.follows.nextPayment_of_blocks hIds (fun tx hMem => ?_) hEnd.follows hBack hu
      hu'' tier
    obtain ⟨b, hb, hTx⟩ := mem_flatMap.mp hMem
    exact hTxs b (mem_append_right _ (mem_cons_of_mem _ hb)) tx hTx

def sampleTipChanges : List TipChange :=
  (sampleNodeBlocks ++ [nodeBlock 0 103 [sampleConfirm 1], nodeBlock 0 104 []]).map .connect ++
    [.disconnect]

set_option maxRecDepth 10000 in
theorem FullNode.disconnect_restores_sampleTipChanges : ∃ s s' s'' u u'',
    Run.Steps (FullNode.step sampleFluxnodeEnv) (fun s change => s.undoesPayments change = true)
      (.init sampleFluxnodeEnv) sampleTipChanges s ∧
    s.connect sampleFluxnodeEnv (nodeBlock 0 104 []) = .ok s' ∧ s'.payeesBehind = true ∧
    s'.disconnect sampleFluxnodeEnv = .ok s'' ∧
    s''.fluxnodeCache.mapConfirmedFluxnodeData = s.fluxnodeCache.mapConfirmedFluxnodeData ∧
    [nodeBlock 1 104 []].foldlM (FullNode.connect sampleFluxnodeEnv) s = .ok u ∧
    [nodeBlock 1 104 []].foldlM (FullNode.connect sampleFluxnodeEnv) s'' = .ok u'' ∧
    ∀ tier, u''.nextPayment sampleFluxnodeEnv tier = u.nextPayment sampleFluxnodeEnv tier := by
  have hIds : CollisionFree sampleFluxnodeEnv.toEnv (chainTxs (sampleTipChanges.filterMap
      TipChange.block? ++ nodeBlock 0 104 [] :: [nodeBlock 1 104 []])) := by
    decide +kernel
  obtain ⟨s, hSteps, ⟨u, hu, _⟩, s', hConnect, hBehind, t, hDisconnect, u'', hu'', _⟩ : ∃ s,
      Run.Steps (FullNode.step sampleFluxnodeEnv) (fun s change => s.undoesPayments change = true)
        (.init sampleFluxnodeEnv) sampleTipChanges s ∧
      (∃ u, [nodeBlock 1 104 []].foldlM (FullNode.connect sampleFluxnodeEnv) s = .ok u ∧ True) ∧
      ∃ s', s.connect sampleFluxnodeEnv (nodeBlock 0 104 []) = .ok s' ∧ s'.payeesBehind = true ∧
      ∃ t, s'.disconnect sampleFluxnodeEnv = .ok t ∧
      ∃ u, [nodeBlock 1 104 []].foldlM (FullNode.connect sampleFluxnodeEnv) t = .ok u ∧ True :=
    Run.exists_steps .other (by decide +kernel)
  obtain ⟨s'', hRestored, _, _, hConfirmed, _, _, hLater⟩ := FullNode.disconnect_restores _
    sampleTipChanges _ [nodeBlock 1 104 []] hIds s s' hSteps hConnect hBehind
  cases hDisconnect.symm.trans hRestored
  exact ⟨s, s', t, u, u'', hSteps, hConnect, hBehind, hDisconnect, hConfirmed, hu, hu'',
    hLater u u'' hu hu''⟩

/-- A reorganisation: a block is connected and disconnected, then two blocks of another branch,
    the first of which spends the collateral of the second node. -/
def sampleReorg : List TipChange :=
  (sampleNodeBlocks ++ [nodeBlock 0 103 [sampleConfirm 1], nodeBlock 0 104 []]).map .connect ++
    [.connect (nodeBlock 0 105 []), .disconnect, .connect (nodeBlock 1 105 [sampleSpend 1]),
      .connect (nodeBlock 1 106 []), .disconnect, .disconnect]

set_option maxRecDepth 10000 in
/-- When the second block of the branch is disconnected, the first node is the only entry of its
    list and keeps the height of the payment there. Connecting and disconnecting a block then
    changes the record of the second node and who is paid next. -/
theorem FullNode.disconnect_changes_payee : ∃ s s' s'' : FullNode,
    s.Reached sampleFluxnodeEnv ∧
    s.connect sampleFluxnodeEnv (nodeBlock 0 105 []) = .ok s' ∧
    s'.disconnect sampleFluxnodeEnv = .ok s'' ∧
    (∃ d d'', s.fluxnodeCache.mapConfirmedFluxnodeData[sampleCollateral 1]? = some d ∧
      s''.fluxnodeCache.mapConfirmedFluxnodeData[sampleCollateral 1]? = some d'' ∧
      d.nLastPaidHeight = 104 ∧ d''.nLastPaidHeight = 105) ∧
    ∃ dest dest'', s.nextPayment sampleFluxnodeEnv .proton = some (sampleCollateral 1, dest) ∧
      s''.nextPayment sampleFluxnodeEnv .proton = some (sampleCollateral 0, dest'') := by
  obtain ⟨s, hSteps, s', hConnect, s'', hDisconnect, ⟨d, hGet, hPaid⟩, ⟨d'', hGet'', hPaid''⟩,
      ⟨⟨_, dest⟩, hNext, hOut⟩, ⟨⟨_, dest''⟩, hNext'', hOut''⟩⟩ : ∃ s,
      Run.Steps (FullNode.step sampleFluxnodeEnv) (fun _ _ => True) (.init sampleFluxnodeEnv)
        sampleReorg s ∧
      ∃ s', s.connect sampleFluxnodeEnv (nodeBlock 0 105 []) = .ok s' ∧
      ∃ s'', s'.disconnect sampleFluxnodeEnv = .ok s'' ∧
        (∃ d, s.fluxnodeCache.mapConfirmedFluxnodeData[sampleCollateral 1]? = some d ∧
          d.nLastPaidHeight = 104) ∧
        (∃ d, s''.fluxnodeCache.mapConfirmedFluxnodeData[sampleCollateral 1]? = some d ∧
          d.nLastPaidHeight = 105) ∧
        (∃ pay, s.nextPayment sampleFluxnodeEnv .proton = some pay ∧ pay.1 = sampleCollateral 1) ∧
        ∃ pay, s''.nextPayment sampleFluxnodeEnv .proton = some pay ∧ pay.1 = sampleCollateral 0 :=
    Run.exists_steps .other (by decide +kernel)
  cases hOut
  cases hOut''
  exact ⟨s, s', s'', ⟨_, hSteps⟩, hConnect, hDisconnect, ⟨d, d'', hGet, hGet'', hPaid, hPaid''⟩,
    dest, dest'', hNext, hNext''⟩

end CloudService
