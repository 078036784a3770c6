/-
  `DisconnectBlock` undoes `ConnectBlock` on the chain state, unless the coin put back last
  has height zero, or the previous header has a null Sapling root.
-/

import CloudService.Coins.Conservation
import CloudService.Coins.Undo

namespace CloudService

open CoinsView List

variable {nHeight : Nat} {v : CoinsView} {env : Env} {s : DisconnectState}

/-! ## The undo of one transaction -/

theorem contains_foldl_erase {s : Std.ExtTreeSet Uint256} (nfs : List Uint256) (nf : Uint256) :
    (nfs.foldl (fun s nf => s.erase nf) s).contains nf = true ↔
      nf ∉ nfs ∧ s.contains nf = true := by
  induction nfs generalizing s with
  | nil => simp
  | cons head nfs ih =>
    rw [foldl_cons, ih, Std.ExtTreeSet.contains_erase]
    simp only [Bool.and_eq_true, bne_iff_ne, ne_eq, Std.LawfulEqCmp.compare_eq_iff_eq, mem_cons,
      not_or]
    tauto

theorem foldl_erase_foldl_insert {s : Std.ExtTreeSet Uint256} {nfs : List Uint256}
    (hNew : ∀ nf ∈ nfs, s.contains nf = false) :
    nfs.foldl (fun s nf => s.erase nf) (nfs.foldl (fun s nf => s.insert nf) s) = s := by
  refine Std.ExtTreeSet.ext_contains fun nf => ?_
  rw [Bool.eq_iff_iff, contains_foldl_erase, contains_foldl_insert]
  constructor
  · rintro ⟨hNot, hMem | hOld⟩
    · exact absurd hMem hNot
    · exact hOld
  · intro hOld
    refine ⟨fun hMem => ?_, .inr hOld⟩
    rw [hNew nf hMem] at hOld
    cases hOld

/-- The view has the coins and nullifiers, and normal forms for what remains to be undone. -/
structure Reached (env : Env) (done : List CTransaction) (v : CoinsView) (s : DisconnectState) :
    Prop where
  coin : ∀ y, s.view.coin y = v.coin y
  sprout : s.view.sproutNullifiers = v.sproutNullifiers
  sapling : s.view.saplingNullifiers = v.saplingNullifiers
  normal : ∀ t ∈ done, (s.view.accessCoins (env.getHash t)).Normal

/-- A transaction with the undo data that `ConnectBlock` records for it. -/
def undoEntry (e : LoopState × CTransaction) : CTransaction × Option CTxUndo :=
  (e.2, if e.2.isCoinBase then none else some (e.1.view.txUndo e.2))

section Turn

variable {env : Env} {flags : ConnectFlags} {ctx : ConnectContext} {block : CBlock}
  {st st' : LoopState} {tx : CTransaction} {done rest : List CTransaction} {s : DisconnectState}

/-- The view between the removal of the outputs and the return of the inputs. -/
def withoutOutputs (env : Env) (nHeight : Nat) (tx : CTransaction) (s : DisconnectState) :
    DisconnectState :=
  { view := (removeOutputs env nHeight tx s).view.setNullifiers tx false
    fClean := (removeOutputs env nHeight tx s).fClean }

def undone (env : Env) (nHeight : Nat) (e : LoopState × CTransaction) (s : DisconnectState) :
    DisconnectState :=
  restoreInputs (spentBy e.2) (e.1.view.inputsUndo (spentBy e.2)) (withoutOutputs env nHeight e.2 s)

theorem disconnectTx_eq (nHeight : Nat) :
    disconnectTx env nHeight (undoEntry (st, tx)) s = some (undone env nHeight (st, tx) s) := by
  unfold disconnectTx undoEntry undone spentBy
  cases hCoinBase : tx.isCoinBase with
  | true => rfl
  | false =>
    have hUndo : st.view.txUndo tx = st.view.inputsUndo (tx.vin.map CTxIn.prevout) := by
      simp [txUndo, hCoinBase]
    have hLength : (st.view.txUndo tx).length = tx.vin.length := by
      rw [hUndo, length_inputsUndo, length_map]
    simp only [Bool.false_eq_true, if_false]
    rw [if_pos hLength, hUndo]
    rfl

theorem Reached.removeOutputs_fClean (h : Reached env (done ++ [tx]) st'.view s)
    (hNext : NextTx env ctx done st tx st') :
    (removeOutputs env ctx.nHeight tx s).fClean = s.fClean := by
  have hRecord := h.normal tx (by simp)
  have hOutputs := (checkTransactionValues_eq_ok hNext.valid.values).1
  have hCoins : ∀ n, (s.view.accessCoins (env.getHash tx)).clearUnspendable.coin n =
      (CCoins.fromTx tx ctx.nHeight).coin n := by
    intro n
    rw [CCoins.coin_clearUnspendable, coin_accessCoins, h.coin, hNext.view, coin_updateCoins,
      if_pos rfl]
    cases hCoin : (CCoins.fromTx tx ctx.nHeight).coin n with
    | none => rfl
    | some c => simp [Option.filter, CCoins.spendable_of_coin_fromTx hCoin]
  have hSame := hRecord.clearUnspendable.same (.fromTx hOutputs ctx.nHeight) hCoins
  unfold removeOutputs
  dsimp only
  rw [hSame, Bool.and_true]

theorem Reached.coin_withoutOutputs (h : Reached env (done ++ [tx]) st'.view s)
    (hCoins : LoopCoins env ctx.view done st.view) (hNext : NextTx env ctx done st tx st')
    (y : COutPoint) :
    (withoutOutputs env ctx.nHeight tx s).view.coin y =
      ((spentBy tx).foldl spendInput st.view).coin y := by
  have hRemoved : (withoutOutputs env ctx.nHeight tx s).view.coin y =
      (s.view.modifyCoins (env.getHash tx) {}).coin y := rfl
  rw [hRemoved, coin_modifyCoins, coin_foldl_spendInput, h.coin, hNext.view, coin_updateCoins]
  by_cases hId : y.hash = env.getHash tx
  · -- No older coin has this id.
    have hNone : st.view.coin y = none := by
      cases hCoin : st.view.coin y with
      | none => rfl
      | some c => exact absurd (hId ▸ hCoins.origin y c hCoin) (hCoins.not_known hNext)
    rw [if_pos hId, hNone, ite_self]
    rfl
  · rw [if_neg hId, if_neg hId]

theorem NextTx.new_nullifiers (hNext : NextTx env ctx done st tx st') :
    (∀ nf ∈ txSproutNullifiers tx, st.view.sproutNullifiers.contains nf = false) ∧
      ∀ nf ∈ txSaplingNullifiers tx, st.view.saplingNullifiers.contains nf = false := by
  cases hCoinBase : tx.isCoinBase with
  | false => exact st.view.not_contains_of_shieldedRequirements (hNext.requirements hCoinBase)
  | true =>
    -- A coinbase has no shielded inputs.
    have hInputs := hNext.valid.inputs
    unfold checkTransactionInputs at hInputs
    simp only [check_bind_eq_ok, hCoinBase, if_true, rejectIf_eq_ok] at hInputs
    obtain ⟨_, _, _, hJoinSplit, hSpend, _⟩ := hInputs
    have hNoJoinSplit : tx.vJoinSplit = [] := by simpa using hJoinSplit
    have hNoSpend : tx.vShieldedSpend = [] := by simpa using hSpend
    simp [txSproutNullifiers, txSaplingNullifiers, hNoJoinSplit, hNoSpend]

theorem Reached.nullifiers_withoutOutputs (h : Reached env (done ++ [tx]) st'.view s)
    (hNext : NextTx env ctx done st tx st') :
    (withoutOutputs env ctx.nHeight tx s).view.sproutNullifiers = st.view.sproutNullifiers ∧
      (withoutOutputs env ctx.nHeight tx s).view.saplingNullifiers = st.view.saplingNullifiers := by
  obtain ⟨hSprout, hSapling⟩ := hNext.new_nullifiers
  have hSproutSet : s.view.sproutNullifiers =
      (txSproutNullifiers tx).foldl (fun s nf => s.insert nf) st.view.sproutNullifiers := by
    rw [h.sprout, hNext.view]
    unfold updateCoins
    rw [spendInputs_frame]
    rfl
  have hSaplingSet : s.view.saplingNullifiers =
      (txSaplingNullifiers tx).foldl (fun s nf => s.insert nf) st.view.saplingNullifiers := by
    rw [h.sapling, hNext.view]
    unfold updateCoins
    rw [spendInputs_frame]
    rfl
  constructor
  · have hErased : (withoutOutputs env ctx.nHeight tx s).view.sproutNullifiers =
        (txSproutNullifiers tx).foldl (fun s nf => s.erase nf) s.view.sproutNullifiers := rfl
    rw [hErased, hSproutSet, foldl_erase_foldl_insert hSprout]
  · have hErased : (withoutOutputs env ctx.nHeight tx s).view.saplingNullifiers =
        (txSaplingNullifiers tx).foldl (fun s nf => s.erase nf) s.view.saplingNullifiers := rfl
    rw [hErased, hSaplingSet, foldl_erase_foldl_insert hSapling]

theorem Reached.normal_withoutOutputs (h : Reached env (done ++ [tx]) st'.view s) (nHeight : Nat) :
    ∀ t ∈ done, ((withoutOutputs env nHeight tx s).view.accessCoins (env.getHash t)).Normal := by
  intro t hMem
  have hRemoved : (withoutOutputs env nHeight tx s).view.accessCoins (env.getHash t) =
      (s.view.modifyCoins (env.getHash tx) {}).accessCoins (env.getHash t) := rfl
  rw [hRemoved, accessCoins_modifyCoins]
  split
  · exact .empty
  · exact h.normal t (mem_append_left _ hMem)

theorem NextTx.have_spentBy (hNext : NextTx env ctx done st tx st') :
    (spentBy tx).Nodup ∧ ∀ o ∈ spentBy tx, ∃ c, st.view.coin o = some c :=
  ⟨hNext.valid.nodup_spentBy, st.view.haveInputs_eq_true.mp hNext.haveInputs⟩

theorem fClean_of_undone {e : LoopState × CTransaction}
    (h : (undone env nHeight e s).fClean = true) : s.fClean = true := by
  have hRemoved : (withoutOutputs env nHeight e.2 s).fClean = true := fClean_of_restoreInputs h
  simp only [withoutOutputs, removeOutputs, Bool.and_eq_true] at hRemoved
  exact hRemoved.1

section

variable (h : Reached env (done ++ [tx]) st'.view s)
  (hCoins : LoopCoins env ctx.view done st.view) (hNext : NextTx env ctx done st tx st')

include h hCoins hNext

theorem Reached.back (hAll : AllRestorable st.view (spentBy tx)) :
    (undone env ctx.nHeight (st, tx) s).fClean = s.fClean ∧
      Reached env done st.view (undone env ctx.nHeight (st, tx) s) := by
  obtain ⟨hNodup, hHave⟩ := hNext.have_spentBy
  obtain ⟨hTests, hBack⟩ :=
    restoreInputs_restores hNodup hHave (h.coin_withoutOutputs hCoins hNext) hAll
  obtain ⟨hSprout, hSapling⟩ := h.nullifiers_withoutOutputs hNext
  refine ⟨hTests.trans (h.removeOutputs_fClean hNext), hBack, ?_, ?_, fun t hMem => ?_⟩
  · rw [undone, restoreInputs_frame]
    exact hSprout
  · rw [undone, restoreInputs_frame]
    exact hSapling
  · exact Normal.restoreInputs hNodup hHave (h.normal_withoutOutputs ctx.nHeight t hMem)

theorem Reached.allRestorable (hTests : (undone env ctx.nHeight (st, tx) s).fClean = true) :
    AllRestorable st.view (spentBy tx) := by
  obtain ⟨hNodup, hHave⟩ := hNext.have_spentBy
  exact (allRestorable_of_clean hNodup hHave (h.coin_withoutOutputs hCoins hNext) hTests).2

end

end Turn

/-! ## The undo of the loop -/

section Loop

variable {env : Env} {flags : ConnectFlags} {ctx : ConnectContext} {block : CBlock}
  {st stEnd : LoopState} {done rest : List CTransaction} {s : DisconnectState} {c : OPoICache}

/-- What the loop spends can be put back. -/
def LoopRestorable (trace : List (LoopState × CTransaction)) : Prop :=
  ∀ e ∈ trace, AllRestorable e.1.view (spentBy e.2)

/-- The undo of the rest of the loop: it goes back to where the rest started when all inputs
    can be put back, and only then all tests pass. -/
theorem Reached.disconnectTxs (hBlock : ValidBlock env ctx block)
    (hIds : CollisionFree env block.vtx) (hVtx : block.vtx = done ++ rest)
    (hSteps : Run.Steps (connectTx env flags ctx block) (fun _ _ => True) st rest stEnd)
    (hCoins : LoopCoins env ctx.view done st.view) (h : Reached env block.vtx stEnd.view s) :
    ∃ s', ((Run.trace (connectTx env flags ctx block) st rest).map undoEntry).foldrM
        (disconnectTx env ctx.nHeight) s = some s' ∧
      (LoopRestorable (Run.trace (connectTx env flags ctx block) st rest) →
        s'.fClean = s.fClean ∧ Reached env done st.view s') ∧
      (s'.fClean = true → s.fClean = true ∧
        LoopRestorable (Run.trace (connectTx env flags ctx block) st rest)) := by
  induction hSteps generalizing done with
  | nil st =>
    rw [hVtx, append_nil] at h
    exact ⟨s, rfl, fun _ => ⟨rfl, h⟩, fun hClean => ⟨hClean, fun _ hMem => by cases hMem⟩⟩
  | @cons st st' stEnd tx rest hStep _ hRest ih =>
    have hNext := NextTx.of_block hBlock hIds hVtx hStep
    obtain ⟨s₁, hUndo, hBack, hTests⟩ := ih (by simp [hVtx]) (hCoins.step hNext) h
    rw [Run.trace_cons_ok hStep, map_cons, foldrM_cons, hUndo]
    refine ⟨undone env ctx.nHeight (st, tx) s₁, disconnectTx_eq ctx.nHeight, fun hAll => ?_,
      fun hClean => ?_⟩
    · obtain ⟨hHead, hTail⟩ := forall_mem_cons.mp hAll
      obtain ⟨hClean, hReached⟩ := hBack hTail
      obtain ⟨hClean', hReached'⟩ := hReached.back hCoins hNext hHead
      exact ⟨hClean'.trans hClean, hReached'⟩
    · obtain ⟨hStart, hTail⟩ := hTests (fClean_of_undone hClean)
      obtain ⟨_, hReached⟩ := hBack hTail
      exact ⟨hStart, forall_mem_cons.mpr ⟨hReached.allRestorable hCoins hNext hClean, hTail⟩⟩

theorem normal_of_steps (hBlock : ValidBlock env ctx block) (hVtx : block.vtx = done ++ rest)
    (h : Run.Steps (connectTx env flags ctx block) (fun _ _ => True) (loopStart ctx c) done st) :
    ∀ t ∈ done, (st.view.accessCoins (env.getHash t)).Normal := by
  refine h.invariant_split
    (fun done st => ∀ t ∈ done, (st.view.accessCoins (env.getHash t)).Normal) ?_ (by simp)
  intro past tx later s s' hSplit hPast _ hTurn t hMem
  have hValid := hBlock.txs tx (by simp [hVtx, hSplit])
  rw [(CoinTurn.of_connectTx hTurn).view, accessCoins_updateCoins]
  split
  · exact .fromTx (checkTransactionValues_eq_ok hValid.values).1 ctx.nHeight
  · rename_i hOther
    refine Normal.spendInputs ?_
    rcases mem_append.mp hMem with hOld | hNow
    · exact hPast t hOld
    · exact absurd (by rw [mem_singleton.mp hNow]) hOther

/-! ## Coins at height zero -/

/-- The coins after a part of the loop: old unspent ones, and new ones at the block's height. -/
structure LoopOrigin (ctx : ConnectContext) (done : List CTransaction) (v : CoinsView) : Prop where
  old : ∀ y c, v.coin y = some c → ctx.view.coin y = some c ∨ c.nHeight = ctx.nHeight
  kept : ∀ y c, ctx.view.coin y = some c → (∀ t ∈ done, y ∉ spentBy t) → v.coin y = some c

theorem LoopOrigin.of_steps (hBlock : ValidBlock env ctx block)
    (hIds : CollisionFree env block.vtx) (hVtx : block.vtx = done ++ rest)
    (h : Run.Steps (connectTx env flags ctx block) (fun _ _ => True) (loopStart ctx c) done st) :
    LoopCoins env ctx.view done st.view ∧ LoopOrigin ctx done st.view := by
  refine h.invariant_split (fun done st => LoopCoins env ctx.view done st.view ∧
    LoopOrigin ctx done st.view) ?_ ⟨.start env ctx.view, ?_⟩
  · rintro past tx later s s' hSplit ⟨hCoins, hOrigin⟩ - hTurn
    have hWhole : block.vtx = past ++ tx :: (later ++ rest) := by rw [hVtx, hSplit]; simp
    have hNext := NextTx.of_block hBlock hIds hWhole hTurn
    refine ⟨hCoins.step hNext, fun y c hCoin => ?_, fun y c hCoin hUnspent => ?_⟩
    · rw [hNext.view, coin_updateCoins] at hCoin
      split at hCoin
      · exact .inr (CCoins.meta_of_coin hCoin).2.1
      · split at hCoin
        · cases hCoin
        · exact hOrigin.old y c hCoin
    · have hBefore := hOrigin.kept y c hCoin fun t hMem => hUnspent t (mem_append_left _ hMem)
      exact hCoins.coin_kept hNext hBefore (hUnspent tx (by simp))
  · exact ⟨fun _ _ hCoin => .inl hCoin, fun _ _ hCoin _ => hCoin⟩

/-- Of every transaction at height zero with coins in the view, a coin is left unspent. -/
def SparesHeightZero (v : CoinsView) (txs : List CTransaction) : Prop :=
  ∀ o c, v.coin o = some c → c.nHeight = 0 →
    ∃ n c', v.coin ⟨o.hash, n⟩ = some c' ∧ ∀ tx ∈ txs, ⟨o.hash, n⟩ ∉ spentBy tx

theorem allRestorable_of_left {os : List COutPoint}
    (h : ∀ o ∈ os, ∀ c, v.coin o = some c → c.nHeight = 0 →
      ∃ n c', (⟨o.hash, n⟩ : COutPoint) ∉ os ∧ v.coin ⟨o.hash, n⟩ = some c') :
    AllRestorable v os := by
  induction os generalizing v with
  | nil => trivial
  | cons o os ih =>
    refine ⟨fun c hCoin hZero => ?_, ih fun o' hMem c hCoin hZero => ?_⟩
    · obtain ⟨n, c', hNot, hLeft⟩ := h o mem_cons_self c hCoin hZero
      refine ⟨n, c', fun hPos => hNot ?_, hLeft⟩
      rw [hPos]
      exact mem_cons_self
    · rw [coin_spendInput] at hCoin
      split at hCoin
      · cases hCoin
      · obtain ⟨n, c', hNot, hLeft⟩ := h o' (mem_cons_of_mem _ hMem) c hCoin hZero
        rw [mem_cons, not_or] at hNot
        exact ⟨n, c', hNot.2, by rw [coin_spendInput, if_neg hNot.1, hLeft]⟩

theorem AllRestorable.leaves {os : List COutPoint} {txid : Uint256}
    (h : AllRestorable v os) (hOld : ∃ n c, v.coin ⟨txid, n⟩ = some c ∧ c.nHeight = 0) :
    ∃ n c, (os.foldl spendInput v).coin ⟨txid, n⟩ = some c ∧ c.nHeight = 0 := by
  induction os generalizing v with
  | nil => exact hOld
  | cons o os ih =>
    refine ih h.2 ?_
    obtain ⟨n, c, hCoin, hZero⟩ := hOld
    by_cases hSpent : (⟨txid, n⟩ : COutPoint) = o
    · subst hSpent
      obtain ⟨m, c', hNe, hOther⟩ := h.1 c hCoin hZero
      refine ⟨m, c', ?_, (meta_eq_of_hash hCoin hOther).2.1 ▸ hZero⟩
      rw [coin_spendInput, if_neg fun hEq => hNe (congrArg COutPoint.n hEq), hOther]
    · exact ⟨n, c, by rw [coin_spendInput, if_neg hSpent, hCoin], hZero⟩

section

variable (hBlock : ValidBlock env ctx block) (hIds : CollisionFree env block.vtx)
  (hHeight : 0 < ctx.nHeight) (hLoop : connectLoop env flags ctx block c = .ok stEnd)

include hBlock hIds hHeight hLoop

theorem loopRestorable_of_spares (h : SparesHeightZero ctx.view block.vtx) :
    LoopRestorable (Run.trace (connectTx env flags ctx block) (loopStart ctx c) block.vtx) := by
  rintro ⟨st, tx⟩ hMem
  obtain ⟨before, after, _, hVtx, hBefore, _, _⟩ := (steps_of_loop hLoop).split_trace _ hMem
  obtain ⟨_, hOrigin⟩ := LoopOrigin.of_steps hBlock hIds hVtx hBefore
  refine allRestorable_of_left fun o hSpent coin hCoin hZero => ?_
  obtain ⟨n, c', hLeft, hUnspent⟩ :=
    h o coin ((hOrigin.old o coin hCoin).resolve_right (by omega)) hZero
  refine ⟨n, c', hUnspent tx (by rw [hVtx]; simp), hOrigin.kept _ c' hLeft fun t hDone => ?_⟩
  exact hUnspent t (by rw [hVtx]; exact mem_append_left _ hDone)

theorem spares_of_loopRestorable
    (h : LoopRestorable (Run.trace (connectTx env flags ctx block) (loopStart ctx c) block.vtx)) :
    SparesHeightZero ctx.view block.vtx := by
  intro o coin hCoin hZero
  -- The loop leaves a coin of the transaction; it is an old one that nothing has spent.
  have hSteps := steps_of_loop hLoop
  obtain ⟨hCoins, hOrigin⟩ := LoopOrigin.of_steps hBlock hIds (append_nil _).symm hSteps
  have hLeft : ∃ n c, stEnd.view.coin ⟨o.hash, n⟩ = some c ∧ c.nHeight = 0 := by
    have hRestorable : Run.Steps (connectTx env flags ctx block)
        (fun st tx => AllRestorable st.view (spentBy tx)) (loopStart ctx c) block.vtx stEnd :=
      .of_foldlM hLoop h
    refine (hRestorable.invariant_split (fun done st => LoopCoins env ctx.view done st.view ∧
        ∃ n c, st.view.coin ⟨o.hash, n⟩ = some c ∧ c.nHeight = 0) ?_
      ⟨.start env ctx.view, o.n, coin, hCoin, hZero⟩).2
    rintro done tx rest s s' hVtx ⟨hKnown, hOld⟩ hAll hTurn
    have hNext := NextTx.of_block hBlock hIds hVtx hTurn
    refine ⟨hKnown.step hNext, ?_⟩
    have hSeen : KnownId env ctx.view done o.hash := by
      obtain ⟨n, c', hBefore, _⟩ := hOld
      exact hKnown.origin ⟨o.hash, n⟩ c' hBefore
    have hId : o.hash ≠ env.getHash tx := fun hEq => hKnown.not_known hNext (hEq ▸ hSeen)
    obtain ⟨n, c', hAfter, hZero'⟩ := hAll.leaves hOld
    refine ⟨n, c', ?_, hZero'⟩
    rwa [hNext.view, coin_updateCoins, if_neg hId, ← coin_foldl_spendInput]
  obtain ⟨n, c', hEnd, hZero'⟩ := hLeft
  refine ⟨n, c', (hOrigin.old _ c' hEnd).resolve_right (by omega), fun t hMem hSpent => ?_⟩
  rw [(hCoins.spent t hMem _ hSpent).1] at hEnd
  cases hEnd

end

theorem vtxundo_of_steps
    (h : Run.Steps (connectTx env flags ctx block) (fun _ _ => True) st rest stEnd)
    (hIndex : 0 < st.i) :
    stEnd.vtxundo = st.vtxundo ++
      (Run.trace (connectTx env flags ctx block) st rest).map fun e => e.1.view.txUndo e.2 := by
  induction h with
  | nil st => simp [Run.trace]
  | @cons st st' stEnd tx rest hStep _ _ ih =>
    have hTurn := CoinTurn.of_connectTx hStep
    rw [ih (by rw [hTurn.index]; omega), hTurn.vtxundo, if_neg (by omega),
      Run.trace_cons_ok hStep, map_cons, append_assoc, singleton_append]

theorem zip_vtxundo (hBlock : ValidBlock env ctx block)
    (hLoop : connectLoop env flags ctx block c = .ok stEnd) :
    stEnd.vtxundo.length + 1 = block.vtx.length ∧
      block.vtx.zip (none :: stEnd.vtxundo.map some) =
        (Run.trace (connectTx env flags ctx block) (loopStart ctx c) block.vtx).map undoEntry := by
  have hSteps := steps_of_loop hLoop
  obtain ⟨coinbase, rest, hVtx, hCoinBase, hRest⟩ := hBlock.shape
  rw [hVtx] at hSteps ⊢
  cases hSteps with
  | @cons _ st _ _ _ hStep _ hSteps =>
    have hTurn := CoinTurn.of_connectTx hStep
    have hTrace := hSteps.map_snd_trace
    have hUndo := vtxundo_of_steps hSteps (by rw [hTurn.index]; omega)
    have hFirst : (loopStart ctx c).i = 0 := rfl
    have hNone : (loopStart ctx c).vtxundo = [] := rfl
    rw [hTurn.vtxundo, if_pos hFirst, hNone, nil_append] at hUndo
    rw [Run.trace_cons_ok hStep]
    generalize Run.trace (connectTx env flags ctx block) st rest = turns at hTrace hUndo ⊢
    constructor
    · rw [hUndo, length_map, length_cons, ← hTrace, length_map]
    · have hHead : undoEntry (loopStart ctx c, coinbase) = (coinbase, none) := by
        simp [undoEntry, hCoinBase]
      rw [map_cons, hHead, zip_cons_cons, hUndo, map_map]
      refine congrArg _ ?_
      nth_rewrite 1 [← hTrace]
      rw [zip_map']
      refine map_congr_left fun e hMem => ?_
      have hOther : e.2.isCoinBase = false :=
        hRest e.2 (hTrace ▸ mem_map_of_mem hMem)
      simp [undoEntry, hOther]

end Loop

/-! ## Anchors -/

theorem popAnchor_pushAnchor {root : MerkleTree → Uint256} {a : AnchorCache}
    (hKnown : (a.getAnchorAt root a.best).isSome = true) (tree : MerkleTree) (rt : Uint256) :
    ∃ a', (a.pushAnchor root tree).popAnchor root rt = some a' ∧
      a'.best = if rt.isNull then root tree else rt := by
  have hBest : (a.pushAnchor root tree).best = root tree := by
    unfold AnchorCache.pushAnchor
    split
    · rfl
    · rename_i hSame
      exact not_not.mp hSame
  have hPushed : ((a.pushAnchor root tree).getAnchorAt root (root tree)).isSome = true := by
    unfold AnchorCache.pushAnchor
    split
    · unfold AnchorCache.getAnchorAt
      split
      · rfl
      · simp
    · rename_i hSame
      rwa [← not_not.mp hSame]
  unfold AnchorCache.popAnchor
  rw [hBest]
  split
  · obtain ⟨found, hFound⟩ := Option.isSome_iff_exists.mp hPushed
    rw [hFound]
    exact ⟨_, rfl, rfl⟩
  · rename_i hSame
    refine ⟨_, rfl, ?_⟩
    rw [hBest, not_not.mp hSame, ite_self]

theorem checkAnchors_eq_ok {roots : TreeRoots} (h : checkAnchors roots v = .ok ()) :
    (v.sproutAnchors.getAnchorAt roots.sprout v.sproutAnchors.best).isSome = true ∧
      (v.saplingAnchors.getAnchorAt roots.sapling v.saplingAnchors.best).isSome = true ∧
      v.sproutAnchors.best ≠ 0 := by
  unfold checkAnchors at h
  split at h
  · cases h
  · rename_i tree hTree
    simp only [check_bind_eq_ok, rejectIf_eq_ok, bne_eq_false_iff_eq, Option.isNone_eq_false_iff]
      at h
    refine ⟨by rw [hTree]; rfl, h.2, ?_⟩
    rw [← h.1]
    exact roots.sprout_ne_null tree

theorem anchors_of_steps {flags : ConnectFlags} {ctx : ConnectContext} {block : CBlock}
    {c : OPoICache} {st : LoopState} {done : List CTransaction}
    (h : Run.Steps (connectTx env flags ctx block) (fun _ _ => True) (loopStart ctx c) done st) :
    st.view.sproutAnchors = ctx.view.sproutAnchors ∧
      st.view.saplingAnchors = ctx.view.saplingAnchors := by
  refine h.invariant (I := fun st => st.view.sproutAnchors = ctx.view.sproutAnchors ∧
      st.view.saplingAnchors = ctx.view.saplingAnchors) ?_ ⟨rfl, rfl⟩
  intro s tx s' hAnchors _ hTurn
  rw [(CoinTurn.of_connectTx hTurn).view]
  unfold updateCoins
  rw [spendInputs_frame]
  exact hAnchors

theorem disconnectTx_anchors {e : CTransaction × Option CTxUndo}
    {s' : DisconnectState} (h : disconnectTx env nHeight e s = some s') :
    s'.view.sproutAnchors = s.view.sproutAnchors ∧
      s'.view.saplingAnchors = s.view.saplingAnchors := by
  unfold disconnectTx at h
  split at h
  · cases h
    exact ⟨rfl, rfl⟩
  · split at h
    · cases h
      rw [restoreInputs_frame]
      exact ⟨rfl, rfl⟩
    · cases h

theorem foldrM_disconnectTx_anchors
    {es : List (CTransaction × Option CTxUndo)} {s' : DisconnectState}
    (h : es.foldrM (disconnectTx env nHeight) s = some s') :
    s'.view.sproutAnchors = s.view.sproutAnchors ∧
      s'.view.saplingAnchors = s.view.saplingAnchors := by
  induction es generalizing s' with
  | nil =>
    cases h
    exact ⟨rfl, rfl⟩
  | cons e es ih =>
    rw [foldrM_cons] at h
    obtain ⟨s₁, hRest, hHead⟩ := Option.bind_eq_some_iff.mp h
    obtain ⟨hSprout, hSapling⟩ := disconnectTx_anchors hHead
    obtain ⟨hSprout', hSapling'⟩ := ih hRest
    exact ⟨hSprout.trans hSprout', hSapling.trans hSapling'⟩

/-! ## The block -/

/-- The same available outputs, nullifiers, best anchors and best block. -/
structure SameState (v w : CoinsView) : Prop where
  coin : ∀ y, w.coin y = v.coin y
  sproutNullifiers : w.sproutNullifiers = v.sproutNullifiers
  saplingNullifiers : w.saplingNullifiers = v.saplingNullifiers
  sproutBest : w.sproutAnchors.best = v.sproutAnchors.best
  saplingBest : w.saplingAnchors.best = v.saplingAnchors.best
  hashBlock : w.hashBlock = v.hashBlock

/-- The best Sapling anchor before a block can be read off the header of the previous block. -/
def SaplingRootRecorded (env : Env) (ctx : ConnectContext) (block : CBlock) : Prop :=
  let rt := saplingRootBefore env ctx.nHeight ctx.view.hashBlock
  (if rt.isNull then env.roots.sapling (saplingTree env ctx block) else rt) =
    ctx.view.saplingAnchors.best
deriving Decidable

section Block

variable {env : Env} {flags : ConnectFlags} {ctx : ConnectContext} {block : CBlock}
  {st : LoopState} {c : OPoICache}

theorem disconnectTxs_of_loop (hBlock : ValidBlock env ctx block)
    (hIds : CollisionFree env block.vtx) (hHeight : 0 < ctx.nHeight)
    (hLoop : connectLoop env flags ctx block c = .ok st) :
    ∃ s, (block.vtx.zip (none :: st.vtxundo.map some)).foldrM (disconnectTx env ctx.nHeight)
        { view := connectedView env ctx block st.view } = some s ∧
      (SparesHeightZero ctx.view block.vtx → s.fClean = true ∧ Reached env [] ctx.view s) ∧
      (s.fClean = true → SparesHeightZero ctx.view block.vtx) := by
  have hSteps := steps_of_loop hLoop
  have hStart : Reached env block.vtx st.view { view := connectedView env ctx block st.view } :=
    ⟨fun _ => rfl, rfl, rfl, normal_of_steps hBlock (append_nil _).symm hSteps⟩
  obtain ⟨s, hUndo, hBack, hTests⟩ :=
    Reached.disconnectTxs hBlock hIds rfl hSteps (.start env ctx.view) hStart
  rw [(zip_vtxundo hBlock hLoop).2]
  refine ⟨s, hUndo, fun hSpares => ?_, fun hClean => ?_⟩
  · exact hBack (loopRestorable_of_spares hBlock hIds hHeight hLoop hSpares)
  · exact spares_of_loopRestorable hBlock hIds hHeight hLoop (hTests hClean).2

theorem disconnectCoins_eq (hBlock : ValidBlock env ctx block)
    (hLoop : connectLoop env flags ctx block c = .ok st)
    (hUndo : (block.vtx.zip (none :: st.vtxundo.map some)).foldrM (disconnectTx env ctx.nHeight)
      { view := connectedView env ctx block st.view } = some s) :
    ∃ view', disconnectCoins env ctx.nHeight ctx.view.hashBlock block
        ⟨st.vtxundo, ctx.view.sproutAnchors.best⟩ (connectedView env ctx block st.view) =
          some (if s.fClean then .ok else .unclean, view') ∧
      (∀ y, view'.coin y = s.view.coin y) ∧
      view'.sproutNullifiers = s.view.sproutNullifiers ∧
      view'.saplingNullifiers = s.view.saplingNullifiers ∧
      view'.sproutAnchors.best = ctx.view.sproutAnchors.best ∧
      (view'.saplingAnchors.best = ctx.view.saplingAnchors.best ↔
        SaplingRootRecorded env ctx block) ∧
      view'.hashBlock = ctx.view.hashBlock := by
  obtain ⟨hSprout, hSapling⟩ := foldrM_disconnectTx_anchors hUndo
  obtain ⟨hSproutLoop, hSaplingLoop⟩ := anchors_of_steps (steps_of_loop hLoop)
  obtain ⟨hKnown, hKnown', hNotNull⟩ := checkAnchors_eq_ok hBlock.anchors
  obtain ⟨sprout, hPopSprout, hBestSprout⟩ := popAnchor_pushAnchor hKnown (sproutTree env ctx block)
    ctx.view.sproutAnchors.best
  obtain ⟨sapling, hPopSapling, hBestSapling⟩ :=
    popAnchor_pushAnchor hKnown' (saplingTree env ctx block)
      (saplingRootBefore env ctx.nHeight ctx.view.hashBlock)
  refine ⟨{ s.view with
    sproutAnchors := sprout, saplingAnchors := sapling, hashBlock := ctx.view.hashBlock },
    ?_, fun _ => rfl, rfl, rfl, ?_, ?_, rfl⟩
  · have hHash : (connectedView env ctx block st.view).hashBlock = block.hash := rfl
    unfold disconnectCoins
    rw [if_neg (not_not.mpr hHash)]
    rw [if_neg (not_not.mpr (zip_vtxundo hBlock hLoop).1), hUndo]
    dsimp only
    rw [hSprout, hSapling]
    dsimp only [connectedView, anchoredView]
    rw [hSproutLoop, hSaplingLoop, hPopSprout, hPopSapling]
    rfl
  · rw [hBestSprout, if_neg (by simpa [Uint256.isNull] using hNotNull)]
  · rw [hBestSapling]
    exact Iff.rfl

theorem disconnectCoins_restores (hBlock : ValidBlock env ctx block)
    (hIds : CollisionFree env block.vtx) (hHeight : 0 < ctx.nHeight)
    (hLoop : connectLoop env flags ctx block c = .ok st) (hRoot : SaplingRootRecorded env ctx block)
    (hSpares : SparesHeightZero ctx.view block.vtx) :
    ∃ undo view', connectUndo env flags ctx block c = some undo ∧
      disconnectCoins env ctx.nHeight ctx.view.hashBlock block undo
        (connectedView env ctx block st.view) = some (.ok, view') ∧ SameState ctx.view view' := by
  obtain ⟨s, hUndo, hBack, _⟩ := disconnectTxs_of_loop hBlock hIds hHeight hLoop
  obtain ⟨view', hDisconnect, hCoin, hSprout, hSapling, hBestSprout, hBestSapling, hHash⟩ :=
    disconnectCoins_eq hBlock hLoop hUndo
  obtain ⟨hClean, hReached⟩ := hBack hSpares
  rw [if_pos hClean] at hDisconnect
  refine ⟨_, view', by rw [connectUndo, hLoop], hDisconnect, ?_⟩
  exact
    { coin := fun y => (hCoin y).trans (hReached.coin y)
      sproutNullifiers := hSprout.trans hReached.sprout
      saplingNullifiers := hSapling.trans hReached.sapling
      sproutBest := hBestSprout
      saplingBest := hBestSapling.mpr hRoot
      hashBlock := hHash }

end Block

/-- Disconnecting a block that was connected to a view, with the undo data of the connect,
    succeeds and gives the view back, exactly when the best Sapling anchor is recorded in the
    header of the previous block and no transaction at height zero loses its last coin. -/
theorem disconnectCoins_undoes_iff {env : Env} {flags : ConnectFlags} {ctx : ConnectContext}
    {block : CBlock} {c : OPoICache} {view : CoinsView} (hHeight : 0 < ctx.nHeight)
    (hIds : CollisionFree env block.vtx) (hJustCheck : flags.fJustCheck = false)
    (h : (connectBlock env flags ctx block c).verdict = .ok view) :
    (∃ undo view', connectUndo env flags ctx block c = some undo ∧
        disconnectCoins env ctx.nHeight ctx.view.hashBlock block undo view = some (.ok, view') ∧
        SameState ctx.view view') ↔
      SaplingRootRecorded env ctx block ∧ SparesHeightZero ctx.view block.vtx := by
  obtain ⟨st, hPre, hLoop, _, rfl⟩ := connectBlock_eq_ok h
  have hBlock := ValidBlock.of_preChecks hPre
  rw [hJustCheck, if_neg Bool.false_ne_true]
  constructor
  · rintro ⟨undo, view'', hData, hResult, hSame⟩
    obtain ⟨s, hUndo, _, hTests⟩ := disconnectTxs_of_loop hBlock hIds hHeight hLoop
    obtain ⟨_, hDisconnect, _, _, _, _, hBestSapling, _⟩ := disconnectCoins_eq hBlock hLoop hUndo
    rw [connectUndo, hLoop] at hData
    cases hData
    rw [hDisconnect, Option.some.injEq, Prod.mk.injEq] at hResult
    obtain ⟨hOk, rfl⟩ := hResult
    refine ⟨hBestSapling.mp hSame.saplingBest, hTests ?_⟩
    by_contra hUnclean
    rw [if_neg hUnclean] at hOk
    cases hOk
  · rintro ⟨hRoot, hSpares⟩
    exact disconnectCoins_restores hBlock hIds hHeight hLoop hRoot hSpares

theorem transfer_disconnects : ∃ view,
    (connectBlock sampleNet {} sampleCoinContext sampleTransferBlock {}).verdict = .ok view ∧
    ∃ undo view',
      connectUndo sampleNet {} sampleCoinContext sampleTransferBlock {} = some undo ∧
      disconnectCoins sampleNet 3 3 sampleTransferBlock undo view =
        some (.ok, view') ∧ SameState sampleCoinView view' := by
  obtain ⟨view, hAccepted, _⟩ : ∃ view,
      (connectBlock sampleNet {} sampleCoinContext sampleTransferBlock {}).verdict =
        .ok view ∧ True := by decide +kernel
  have hSpares : SparesHeightZero sampleCoinView sampleTransferBlock.vtx := by
    intro o coin hCoin hZero
    obtain ⟨coins, hGet, hCoin⟩ := Option.bind_eq_some_iff.mp hCoin
    simp only [sampleCoinView, TreeMap.getElem?_insert_eq] at hGet
    split at hGet
    · cases hGet
      rw [(CCoins.meta_of_coin hCoin).2.1] at hZero
      cases hZero
    · simp at hGet
  exact ⟨view, hAccepted, (disconnectCoins_undoes_iff (by decide) (by decide +kernel) rfl
    hAccepted).mpr ⟨by decide +kernel, hSpares⟩⟩

/-- An environment where ACADIA is active from the start, as on the main net, and the header of
    the genesis block has no Sapling root. -/
def sampleAcadiaEnv : Env :=
  { sampleEnv sampleParams with
    acadiaActive := fun _ => true
    hashFinalSaplingRoot := fun hash => if hash = 1 then 0 else sampleRoot [9] }

def sampleShieldedBlock : CBlock :=
  ⟨2, [sampleCoinbase [("miner", 100)] 1,
    { vShieldedSpend := [{ nullifier := 5, anchor := sampleRoot [] }], vShieldedOutput :=
      [{ cm := 9 }] }]⟩

def sampleFirstContext : ConnectContext :=
  { chainActive := [1], nHeight := 1, view := .init sampleAcadiaEnv.roots 1 }

/-- Disconnecting the first block does not bring the Sapling anchor of the empty tree back. -/
theorem first_block_keeps_anchor : ∃ view undo view',
    (connectBlock sampleAcadiaEnv {} sampleFirstContext sampleShieldedBlock {}).verdict = .ok view ∧
    connectUndo sampleAcadiaEnv {} sampleFirstContext sampleShieldedBlock {} = some undo ∧
    CollisionFree sampleAcadiaEnv sampleShieldedBlock.vtx ∧
    disconnectCoins sampleAcadiaEnv 1 1 sampleShieldedBlock undo view = some (.ok, view') ∧
    view'.saplingAnchors.best ≠ sampleFirstContext.view.saplingAnchors.best := by
  obtain ⟨view, hAccepted, undo, hUndo, result, hDisconnect, hOk, hBest⟩ : ∃ view,
      (connectBlock sampleAcadiaEnv {} sampleFirstContext sampleShieldedBlock {}).verdict =
        .ok view ∧
      ∃ undo, connectUndo sampleAcadiaEnv {} sampleFirstContext sampleShieldedBlock {} =
        some undo ∧
      ∃ result, disconnectCoins sampleAcadiaEnv 1 1 sampleShieldedBlock undo view =
        some result ∧ result.1 = .ok ∧
        result.2.saplingAnchors.best ≠ sampleFirstContext.view.saplingAnchors.best := by
    decide +kernel
  obtain ⟨_, view'⟩ := result
  cases hOk
  exact ⟨view, undo, view', hAccepted, hUndo, by decide +kernel, hDisconnect, hBest⟩

end CloudService
