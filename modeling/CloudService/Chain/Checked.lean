/-
  What the checks of `ConnectBlock` establish for the coins, under any flags: for a
  transaction alone, for a block before its loop, and for one turn of the loop.
-/

import CloudService.Chain.ConnectBlock

namespace CloudService

theorem liftCheck_eq_ok {check : Checked Unit} : liftCheck check = .ok () ↔ check = .ok () := by
  cases check with
  | error r => simp [liftCheck]
  | ok u => simp [liftCheck]

theorem requireOther_eq_ok {b : Bool} : requireOther b = .ok () ↔ b = true := by
  cases b with
  | false => simp [requireOther]
  | true => simp [requireOther]

structure ValidTx (tx : CTransaction) : Prop where
  kind : checkTransactionKind tx = .ok ()
  opoi : tx.isOPoITx = true → tx.vin = [] ∧ tx.vout = [] ∧ tx.vJoinSplit = []
  values : checkTransactionValues tx = .ok ()
  inputs : checkTransactionInputs tx = .ok ()

/-- What the checks before the loop establish for the coins. -/
structure ValidBlock (env : Env) (ctx : ConnectContext) (block : CBlock) : Prop where
  shape : ∃ coinbase rest, block.vtx = coinbase :: rest ∧ coinbase.isCoinBase = true ∧
    ∀ tx ∈ rest, tx.isCoinBase = false
  txs : ∀ tx ∈ block.vtx, ValidTx tx
  noOverwrite : ∀ tx ∈ block.vtx, ctx.view.overwrites (env.getHash tx) = false
  anchors : checkAnchors env.roots ctx.view = .ok ()

/-- What the checks of a turn establish for the coins, and what it does to them. -/
structure CoinTurn (env : Env) (ctx : ConnectContext) (st : LoopState) (tx : CTransaction)
    (st' : LoopState) : Prop where
  haveInputs : st.view.haveInputs tx = true
  requirements : tx.isCoinBase = false → st.view.haveShieldedRequirements env.roots tx = true
  inputs : tx.isCoinBase = false →
    checkTxInputs (env.coinbaseProtected ctx.nHeight) st.view ctx.nHeight tx env.roots = .ok ()
  index : st'.i = st.i + 1
  view : st'.view = st.view.updateCoins (env.getHash tx) tx ctx.nHeight
  nFees : st'.nFees = if tx.isCoinBase then st.nFees
    else addInt64 st.nFees (st.view.getValueIn tx - tx.getValueOut)
  vtxundo : st'.vtxundo = if st.i = 0 then st.vtxundo else st.vtxundo ++ [st.view.txUndo tx]

section Checks

variable {env : Env} {flags : ConnectFlags} {ctx : ConnectContext} {block : CBlock}
  {st st' : LoopState} {tx : CTransaction} {c : OPoICache}

theorem connectTxApply_view (env : Env) (flags : ConnectFlags) (ctx : ConnectContext)
    (st : LoopState) (tx : CTransaction) :
    (connectTxApply env flags ctx st tx).view = st.view := by
  unfold connectTxApply
  split
  · rfl
  · rfl

theorem connectTxAfter_eq_ok (h : connectTxAfter env flags ctx block st tx = .ok ()) :
    (tx.isCoinBase = false → st.view.haveShieldedRequirements env.roots tx = true) ∧
      (flags.fIsVerifying = false → flags.fJustCheck = false → tx.isOPoI .stake = true →
        env.params.opoiActive ctx.nHeight = true → checkStakeCollateral env st.view tx = .ok ()) ∧
      (tx.isCoinBase = false →
        checkTxInputs (env.coinbaseProtected ctx.nHeight) st.view ctx.nHeight tx env.roots =
          .ok ()) := by
  unfold connectTxAfter at h
  rw [check_bind_eq_ok, liftCheck_eq_ok, rejectIf_eq_ok, check_bind_eq_ok] at h
  obtain ⟨hRequirements, _, h⟩ := h
  refine ⟨fun hCoinBase => by simpa [hCoinBase] using hRequirements,
    fun hVerifying hJustCheck hStake hActive => ?_, fun hCoinBase => ?_⟩
  · have hCond : (!flags.fIsVerifying && !flags.fJustCheck && tx.isOPoI .stake &&
        env.params.opoiActive ctx.nHeight) = true := by
      simp [hVerifying, hJustCheck, hStake, hActive]
    rw [if_pos hCond, check_bind_eq_ok] at h
    exact liftCheck_eq_ok.mp h.1
  · simp only [hCoinBase, Bool.not_false, if_true] at h
    split at h
    · rw [check_bind_eq_ok, check_bind_eq_ok] at h
      exact liftCheck_eq_ok.mp h.2.1
    · rw [check_bind_eq_ok] at h
      exact liftCheck_eq_ok.mp h.1

theorem checkBlock_eq_ok (h : checkBlock env flags ctx block c = .ok ()) :
    (∃ coinbase rest, block.vtx = coinbase :: rest ∧ coinbase.isCoinBase = true ∧
      ∀ tx ∈ rest, tx.isCoinBase = false) ∧
      ∀ tx ∈ block.vtx, checkBlockTx env flags ctx c tx = .ok () := by
  unfold checkBlock at h
  split at h
  · cases h
  · rename_i coinbase rest hVtx
    simp only [check_bind_eq_ok, liftCheck_eq_ok, rejectIf_eq_ok] at h
    obtain ⟨hCoinBase, hRest, hAll⟩ := h
    refine ⟨⟨coinbase, rest, hVtx, by simpa using hCoinBase, ?_⟩, ?_⟩
    · simpa using hRest
    · rw [hVtx]
      exact forM_eq_ok.mp hAll

theorem opoi_empty_of_check {verifying : Bool} {hashes : List Uint256}
    (h : checkOPoITransaction env verifying hashes c tx = .ok ()) (hOPoI : tx.isOPoITx = true) :
    tx.vin = [] ∧ tx.vout = [] ∧ tx.vJoinSplit = [] := by
  have hVersion := tx.nVersion_of_isOPoITx hOPoI
  unfold checkOPoITransaction at h
  rw [if_neg (not_not.mpr hVersion), check_bind_eq_ok, rejectIf_eq_ok] at h
  have hEmpty : (tx.vin = [] ∧ tx.vout = []) ∧ tx.vJoinSplit = [] := by simpa using h.1
  exact ⟨hEmpty.1.1, hEmpty.1.2, hEmpty.2⟩

theorem ValidTx.inputless_empty (h : ValidTx tx) (hKind : tx.isInputless = true) :
    tx.vin = [] ∧ tx.vout = [] ∧ tx.vJoinSplit = [] := by
  have hChecked := h.kind
  unfold checkTransactionKind at hChecked
  rw [check_bind_eq_ok] at hChecked
  obtain ⟨_, hChecked⟩ := hChecked
  by_cases hOPoI : tx.isOPoITx = true
  · exact h.opoi hOPoI
  · by_cases hFluxnode : tx.isFluxnodeTx = true
    · rw [if_pos hFluxnode, check_bind_eq_ok] at hChecked
      replace hChecked := hChecked.1
      unfold checkFluxnodeTransaction at hChecked
      rw [check_bind_eq_ok, rejectIf_eq_ok] at hChecked
      simp only [Bool.or_eq_false_iff, Bool.not_eq_false', List.isEmpty_iff] at hChecked
      obtain ⟨⟨⟨⟨⟨hOut, hJoinSplit⟩, _⟩, hIn⟩, _⟩, _⟩ := hChecked
      exact ⟨hIn, hOut, hJoinSplit⟩
    · have hCSApp : tx.isCSAppTx = true := by
        simpa [CTransaction.isInputless, hOPoI, hFluxnode] using hKind
      rw [if_neg hFluxnode, if_pos hCSApp] at hChecked
      unfold checkCSAppTransaction at hChecked
      rw [check_bind_eq_ok, rejectIf_eq_ok] at hChecked
      simp only [Bool.or_eq_false_iff, Bool.not_eq_false', List.isEmpty_iff] at hChecked
      obtain ⟨⟨⟨hOut, hIn⟩, hJoinSplit⟩, _⟩ := hChecked
      exact ⟨hIn, hOut, hJoinSplit⟩

theorem ValidTx.of_checkBlockTx (h : checkBlockTx env flags ctx c tx = .ok ()) : ValidTx tx := by
  unfold checkBlockTx at h
  simp only [check_bind_eq_ok, liftCheck_eq_ok] at h
  obtain ⟨_, hKind, hChecked, hValues, hInputs, _⟩ := h
  exact ⟨hKind, opoi_empty_of_check hChecked, hValues, hInputs⟩

theorem ValidBlock.of_preChecks (h : connectPreChecks env flags ctx block c = .ok ()) :
    ValidBlock env ctx block := by
  unfold connectPreChecks at h
  simp only [check_bind_eq_ok] at h
  obtain ⟨hBlock, _, hOverwrite, _, h⟩ := h
  have hAnchors : checkAnchors env.roots ctx.view = .ok () := by
    refine liftCheck_eq_ok.mp ?_
    split at h
    · split at h
      · simp only [check_bind_eq_ok] at h
        exact h.2.2.2
      · simp only [check_bind_eq_ok] at h
        exact h.2
    · split at h
      · simp only [check_bind_eq_ok] at h
        exact h.2.2
      · exact h
  obtain ⟨hShape, hTxs⟩ := checkBlock_eq_ok hBlock
  exact
    { shape := hShape
      txs := fun tx hMem => .of_checkBlockTx (hTxs tx hMem)
      noOverwrite := fun tx hMem => by
        rw [liftCheck_eq_ok, rejectIf_eq_ok] at hOverwrite
        exact Bool.not_eq_true _ ▸ List.any_eq_false.mp hOverwrite tx hMem
      anchors := hAnchors }

theorem CoinTurn.of_connectTx (h : connectTx env flags ctx block st tx = .ok st') :
    CoinTurn env ctx st tx st' := by
  unfold connectTx at h
  split at h
  · cases h
  · rename_i hBefore
    dsimp only at h
    split at h
    · cases h
    · rename_i hAfter
      unfold connectTxBefore at hBefore
      simp only [check_bind_eq_ok, liftCheck_eq_ok, rejectIf_eq_ok] at hBefore
      obtain ⟨hRequirements, _, hInputs⟩ := connectTxAfter_eq_ok hAfter
      rw [connectTxApply_view] at hRequirements hInputs
      cases h
      refine ⟨by simpa using hBefore.1, hRequirements, hInputs, ?_, ?_, ?_, ?_⟩
      all_goals
        unfold connectTxApply
        split
        · rfl
        · rfl

theorem connectBlock_eq_ok {view : CoinsView}
    (h : (connectBlock env flags ctx block c).verdict = .ok view) :
    ∃ st, connectPreChecks env flags ctx block c = .ok () ∧
      connectLoop env flags ctx block c = .ok st ∧ connectPostChecks env ctx block st = .ok () ∧
      view = if flags.fJustCheck then anchoredView env ctx block st.view
        else connectedView env ctx block st.view := by
  unfold connectBlock at h
  cases hPre : connectPreChecks env flags ctx block c with
  | error e =>
    rw [hPre] at h
    cases h
  | ok _ =>
    cases hLoop : connectLoop env flags ctx block c with
    | error e =>
      rw [hPre, hLoop] at h
      cases h
    | ok st =>
      rw [hPre, hLoop] at h
      dsimp only [connectFinish] at h
      cases hPost : connectPostChecks env ctx block st with
      | error e =>
        rw [hPost] at h
        cases h
      | ok _ =>
        rw [hPost] at h
        dsimp only at h
        refine ⟨st, rfl, rfl, hPost, ?_⟩
        split at h
        · cases h
          rename_i hJustCheck
          rw [if_pos hJustCheck]
        · cases h
          rename_i hJustCheck
          rw [if_neg hJustCheck]

theorem coinbase_le_of_postChecks (h : connectPostChecks env ctx block st = .ok ())
    (hHeight : 2 < ctx.nHeight) :
    (block.vtx.headD {}).getValueOut ≤
      addInt64 st.nFees (coinbaseAllowance env.chainParams ctx.nHeight) := by
  unfold connectPostChecks at h
  simp only [check_bind_eq_ok, liftCheck_eq_ok, rejectIf_eq_ok] at h
  simpa [hHeight] using h.2.1

end Checks

end CloudService
