/-
  Value is conserved by a connected block, up to what its coinbase may issue: the transparent
  outputs and the two shielded pools.
-/

import CloudService.Chain.Evaluate
import CloudService.Coins.Loop
import CloudService.Coins.Value

namespace CloudService

open CoinsView CTransaction List

/-- The values of the two shielded pools. -/
structure PoolValues where
  sprout : CAmount
  sapling : CAmount

/-- What a transaction moves into the pools (`ReceivedBlockTransactions`). -/
def sproutValue (tx : CTransaction) : CAmount :=
  (tx.vJoinSplit.map fun joinsplit => joinsplit.vpubOld - joinsplit.vpubNew).sum
def saplingValue (tx : CTransaction) : CAmount := -tx.valueBalance

def PoolValues.connect (pools : PoolValues) (txs : List CTransaction) : PoolValues where
  sprout := pools.sprout + (txs.map sproutValue).sum
  sapling := pools.sapling + (txs.map saplingValue).sum

/-- The unspent value and the values of the shielded pools. -/
def supply (v : CoinsView) (pools : PoolValues) : CAmount :=
  v.totalValue + pools.sprout + pools.sapling

/-- Transactions with a payload are read without the shielded fields. -/
def CTransaction.WireFormed (tx : CTransaction) : Prop :=
  tx.isInputless = true →
    tx.valueBalance = 0 ∧ tx.vShieldedSpend = [] ∧ tx.vShieldedOutput = [] ∧ tx.vJoinSplit = []
deriving Decidable

section Transaction

variable {env : Env} {ctx : ConnectContext} {st st' : LoopState} {tx : CTransaction}
  {pools : PoolValues} {v : CoinsView} {done txs : List CTransaction}

theorem supply_connect_append :
    supply v (pools.connect (done ++ [tx])) =
      supply v (pools.connect done) + (sproutValue tx + saplingValue tx) := by
  simp only [supply, PoolValues.connect, map_append, sum_append, map_cons,
    map_nil, sum_cons, sum_nil]
  ring

theorem supply_connect_nil : supply v (pools.connect []) = supply v pools := by
  simp [supply, PoolValues.connect]

theorem shieldedValueIn_sub_valueOut (tx : CTransaction) :
    tx.getShieldedValueIn - tx.getValueOut =
      -(tx.vout.map CTxOut.nValue).sum - (sproutValue tx + saplingValue tx) := by
  have hSprout : sproutValue tx = (tx.vJoinSplit.map JSDescription.vpubOld).sum -
      (tx.vJoinSplit.map JSDescription.vpubNew).sum := by
    unfold sproutValue
    induction tx.vJoinSplit with
    | nil => rfl
    | cons joinsplit rest ih =>
      simp only [map_cons, sum_cons, ih]
      ring
  have hBalance : (if 0 ≤ tx.valueBalance then tx.valueBalance else 0) -
      (if tx.valueBalance ≤ 0 then -tx.valueBalance else 0) = tx.valueBalance := by
    rcases Int.lt_trichotomy tx.valueBalance 0 with hNeg | hZero | hPos
    · rw [if_neg (Int.not_le.mpr hNeg), if_pos hNeg.le]
      ring
    · rw [hZero]
      rfl
    · rw [if_pos hPos.le, if_neg (Int.not_le.mpr hPos)]
      ring
  unfold getShieldedValueIn getValueOut saplingValue
  linarith

theorem getValueOut_eq_zero (hOut : tx.vout = []) (hJoinSplit : tx.vJoinSplit = [])
    (h : tx.getValueOut ≤ tx.getShieldedValueIn) : tx.getValueOut = 0 := by
  have hValueOut : tx.getValueOut = if tx.valueBalance ≤ 0 then -tx.valueBalance else 0 := by
    simp [getValueOut, hOut, hJoinSplit]
  have hShieldedIn : tx.getShieldedValueIn = if 0 ≤ tx.valueBalance then tx.valueBalance
    else 0 := by
    simp [getShieldedValueIn, hJoinSplit]
  rw [hValueOut, hShieldedIn] at h
  rw [hValueOut]
  rcases Int.lt_trichotomy tx.valueBalance 0 with hNeg | hZero | hPos
  · rw [if_pos hNeg.le, if_neg (Int.not_le.mpr hNeg)] at h
    linarith
  · rw [hZero]
    rfl
  · rw [if_neg (Int.not_le.mpr hPos)]

theorem ValidTx.coinbase_transparent (h : ValidTx tx) (hCoinBase : tx.isCoinBase = true) :
    tx.valueBalance = 0 ∧ tx.vJoinSplit = [] := by
  have hInputs := h.inputs
  unfold checkTransactionInputs at hInputs
  simp only [check_bind_eq_ok, hCoinBase, if_true, rejectIf_eq_ok] at hInputs
  obtain ⟨_, _, _, hJoinSplit, hSpend, hOutput⟩ := hInputs
  have hFluxnode : tx.isFluxnodeTx = false := by
    refine Bool.not_eq_true _ ▸ fun hFluxnode => ?_
    have hEmpty := h.inputless_empty (by simp [isInputless, hFluxnode])
    rw [isCoinBase, hEmpty.1] at hCoinBase
    cases hCoinBase
  refine ⟨(checkTransactionValues_eq_ok h.values).2.1 ?_ ?_ hFluxnode, by simpa using hJoinSplit⟩
  · simpa using hSpend
  · simpa using hOutput

theorem CoinTurn.supply_eq (hTurn : CoinTurn env ctx st tx st') (hValid : ValidTx tx)
    (pools : PoolValues) (done : List CTransaction) :
    supply st'.view (pools.connect (done ++ [tx])) =
      supply st.view (pools.connect done) - st.view.spentValue tx -
        (st.view.spendInputs tx).valueAt (env.getHash tx) +
        (CCoins.fromTx tx ctx.nHeight).value + (sproutValue tx + saplingValue tx) := by
  rw [supply_connect_append, hTurn.view]
  unfold supply
  rw [totalValue_updateCoins hValid.nodup_spentBy hTurn.haveInputs]
  ring

def turnFee (v : CoinsView) (tx : CTransaction) : CAmount :=
  if tx.isCoinBase then 0 else v.getValueIn tx - tx.getValueOut

def coinbaseValue (txs : List CTransaction) : CAmount :=
  ((txs.filter isCoinBase).map getValueOut).sum

/-- A turn adds a non-negative fee, and the supply falls by at least as much; a coinbase may
    add what it pays. -/
theorem CoinTurn.supply_le (hTurn : CoinTurn env ctx st tx st') (hValid : ValidTx tx)
    (hNonneg : st.view.Nonneg) (pools : PoolValues) (done : List CTransaction) :
    0 ≤ turnFee st.view tx ∧
      supply st'.view (pools.connect (done ++ [tx])) + turnFee st.view tx ≤
        supply st.view (pools.connect done) + coinbaseValue [tx] := by
  obtain ⟨hOutputs, _, hShielded, hShieldedMax⟩ := checkTransactionValues_eq_ok hValid.values
  have hOld : 0 ≤ (st.view.spendInputs tx).valueAt (env.getHash tx) :=
    valueAt_nonneg (nonneg_spendInputs hNonneg) _
  have hCreated := CCoins.value_fromTx_le hOutputs ctx.nHeight
  have hThrough := shieldedValueIn_sub_valueOut tx
  rw [hTurn.supply_eq hValid]
  cases hCoinBase : tx.isCoinBase with
  | true =>
    obtain ⟨hBalance, hJoinSplit⟩ := hValid.coinbase_transparent hCoinBase
    have hPays : coinbaseValue [tx] = (tx.vout.map CTxOut.nValue).sum := by
      rw [← tx.getValueOut_of_transparent hBalance hJoinSplit]
      simp [coinbaseValue, hCoinBase]
    have hPools : sproutValue tx + saplingValue tx = 0 := by
      simp [sproutValue, saplingValue, hBalance, hJoinSplit]
    have hSpent : st.view.spentValue tx = 0 := by simp [spentValue, hCoinBase]
    have hFee : turnFee st.view tx = 0 := by simp [turnFee, hCoinBase]
    rw [hPays, hPools, hSpent, hFee]
    exact ⟨Int.le_refl 0, by linarith⟩
  | false =>
    obtain ⟨hLow, hHigh, hCovers⟩ :=
      checkTxInputs_eq_ok hShielded hShieldedMax (hTurn.inputs hCoinBase)
    have hPays : coinbaseValue [tx] = 0 := by simp [coinbaseValue, hCoinBase]
    have hSpent : st.view.spentValue tx = st.view.inputValue tx.vin := by
      simp [spentValue, hCoinBase]
    have hFee : turnFee st.view tx = st.view.getValueIn tx - tx.getValueOut := by
      simp [turnFee, hCoinBase]
    rw [hPays, hSpent, hFee]
    cases hFluxnode : tx.isFluxnodeTx with
    | true =>
      -- `GetValueIn` is zero for a fluxnode transaction, whatever its value balance.
      have hEmpty := hValid.inputless_empty (by simp [isInputless, hFluxnode])
      have hNone : st.view.inputValue tx.vin = 0 := by simp [inputValue, hEmpty.1]
      have hIn : st.view.getValueIn tx = 0 := by simp [getValueIn, hCoinBase, hFluxnode]
      have hOut : tx.getValueOut = 0 :=
        getValueOut_eq_zero hEmpty.2.1 hEmpty.2.2 (by linarith)
      rw [hIn, hOut, hNone]
      refine ⟨by decide, ?_⟩
      linarith
    | false =>
      rw [getValueIn_eq hCoinBase hFluxnode hLow hHigh hShielded hShieldedMax]
      exact ⟨by linarith, by linarith⟩

/-- The supply and the fees over the loop. -/
structure LoopValue (v₀ : CoinsView) (pools : PoolValues) (done : List CTransaction)
    (st : LoopState) : Prop where
  nonneg : st.view.Nonneg
  supply_le : ∃ fees, 0 ≤ fees ∧ st.nFees = fees.bmod 18446744073709551616 ∧
    supply st.view (pools.connect done) + fees ≤ supply v₀ pools + coinbaseValue done

theorem LoopValue.step {v₀ : CoinsView} (h : LoopValue v₀ pools done st)
    (hTurn : CoinTurn env ctx st tx st') (hValid : ValidTx tx) :
    LoopValue v₀ pools (done ++ [tx]) st' := by
  obtain ⟨fees, hFees, hSum, hSupply⟩ := h.supply_le
  obtain ⟨hFee, hNext⟩ := hTurn.supply_le hValid h.nonneg pools done
  refine ⟨?_, fees + turnFee st.view tx, Int.add_nonneg hFees hFee, ?_, ?_⟩
  · rw [hTurn.view]
    exact nonneg_updateCoins h.nonneg (checkTransactionValues_eq_ok hValid.values).1 _ _
  · rw [hTurn.nFees]
    unfold turnFee
    split
    · rw [Int.add_zero]
      exact hSum
    · rw [hSum, addInt64, Int.bmod_add_bmod]
  · have hCoinbases : coinbaseValue (done ++ [tx]) = coinbaseValue done + coinbaseValue [tx] := by
      simp [coinbaseValue]
    linarith

theorem CoinTurn.supply_of_inputless (hTurn : CoinTurn env ctx st tx st') (hValid : ValidTx tx)
    (hWire : tx.WireFormed) (hKind : tx.isInputless = true)
    (hFree : st.view.overwrites (env.getHash tx) = false) (pools : PoolValues) :
    supply st'.view (pools.connect [tx]) = supply st.view pools := by
  obtain ⟨hIn, hOut, hJoinSplit⟩ := hValid.inputless_empty hKind
  obtain ⟨hBalance, _⟩ := hWire hKind
  have hSpentBy : spentBy tx = [] := by simp [spentBy, hIn]
  have hSame : st.view.spendInputs tx = st.view := by rw [spendInputs_eq, hSpentBy]; rfl
  have hSpent : st.view.spentValue tx = 0 := by simp [spentValue, inputValue, hIn]
  have hCreated : (CCoins.fromTx tx ctx.nHeight).value = 0 := by
    rw [CCoins.fromTx, CCoins.value_cleanup, CCoins.value, hOut]
    rfl
  have hPools : sproutValue tx + saplingValue tx = 0 := by
    simp [sproutValue, saplingValue, hBalance, hJoinSplit]
  have hSupply := hTurn.supply_eq hValid pools []
  rw [nil_append, supply_connect_nil, hSame, hSpent, valueAt_eq_zero hFree, hCreated, hPools]
    at hSupply
  linarith

end Transaction

section Block

variable {env : Env} {flags : ConnectFlags} {ctx : ConnectContext} {block : CBlock}
  {st : LoopState} {c : OPoICache}

theorem steps_of_loop (h : connectLoop env flags ctx block c = .ok st) :
    Run.Steps (connectTx env flags ctx block) (fun _ _ => True) (loopStart ctx c) block.vtx st :=
  .of_foldlM h fun _ _ => trivial

theorem LoopValue.of_loop (hBlock : ValidBlock env ctx block) (hNonneg : ctx.view.Nonneg)
    (h : connectLoop env flags ctx block c = .ok st) (pools : PoolValues) :
    LoopValue ctx.view pools block.vtx st := by
  refine (steps_of_loop h).invariant_split (fun done st => LoopValue ctx.view pools done st) ?_ ?_
  · intro done tx rest s t hSplit hValue _ hTurn
    exact hValue.step (.of_connectTx hTurn) (hBlock.txs tx (by simp [hSplit]))
  · refine ⟨hNonneg, 0, Int.le_refl 0, by simp [loopStart], ?_⟩
    rw [supply_connect_nil, Int.add_zero]
    exact Int.le_add_of_nonneg_right (Int.le_refl 0)

theorem coinbaseValue_of_valid (hBlock : ValidBlock env ctx block) :
    coinbaseValue block.vtx = (block.vtx.headD {}).getValueOut := by
  obtain ⟨coinbase, rest, hVtx, hCoinBase, hRest⟩ := hBlock.shape
  have hNone : rest.filter isCoinBase = [] :=
    filter_eq_nil_iff.mpr fun tx hMem => by simp [hRest tx hMem]
  rw [hVtx, coinbaseValue, filter_cons, if_pos hCoinBase, hNone]
  simp

end Block

/-- A connected block adds at most the subsidy and the funds due at its height to the supply,
    on any view without negative outputs. Its fluxnode, CSApp and OPoI transactions do not
    change the supply. -/
theorem supply_le_of_connectBlock {env : Env} {flags : ConnectFlags} {ctx : ConnectContext}
    {block : CBlock} {c : OPoICache} {view : CoinsView} (pools : PoolValues)
    (hNonneg : ctx.view.Nonneg) (hHeight : 2 < ctx.nHeight)
    (h : (connectBlock env flags ctx block c).verdict = .ok view) :
    supply view (pools.connect block.vtx) ≤
        supply ctx.view pools + coinbaseAllowance env.chainParams ctx.nHeight ∧
      (CollisionFree env block.vtx →
        ∀ e ∈ Run.trace (connectTx env flags ctx block) (loopStart ctx c) block.vtx,
          e.2.isInputless = true → e.2.WireFormed →
          ∃ st', connectTx env flags ctx block e.1 e.2 = .ok st' ∧
            supply st'.view (pools.connect [e.2]) = supply e.1.view pools) := by
  obtain ⟨st, hPre, hLoop, hPost, hView⟩ := connectBlock_eq_ok h
  have hBlock := ValidBlock.of_preChecks hPre
  constructor
  · obtain ⟨_, fees, hFees, hSum, hSupply⟩ :=
      LoopValue.of_loop hBlock hNonneg hLoop pools
    have hTotal : view.totalValue = st.view.totalValue := by
      rw [hView]
      split
      · rfl
      · rfl
    have hSame : supply view (pools.connect block.vtx) = supply st.view
      (pools.connect block.vtx) := by
      rw [supply, supply, hTotal]
    have hAllowance := coinbaseAllowance_nonneg env.chainParams ctx.nHeight (by omega)
    have hLimit : addInt64 st.nFees (coinbaseAllowance env.chainParams ctx.nHeight) ≤
        fees + coinbaseAllowance env.chainParams ctx.nHeight := by
      rw [hSum, addInt64, Int.bmod_add_bmod]
      exact Ranges.bmod_le_self (Int.add_nonneg hFees hAllowance)
    have hCoinbase := coinbase_le_of_postChecks hPost hHeight
    rw [coinbaseValue_of_valid hBlock] at hSupply
    linarith
  · intro hIds e hMem hKind hWire
    obtain ⟨before, after, st', hVtx, hBefore, hTurn, _⟩ := (steps_of_loop hLoop).split_trace e hMem
    have hCoins := LoopCoins.of_steps hBlock hIds hVtx hBefore
    have hNext := NextTx.of_block hBlock hIds hVtx hTurn
    refine ⟨st', hTurn, hNext.supply_of_inputless hNext.valid hWire hKind ?_ pools⟩
    refine Bool.not_eq_true _ ▸ fun hUsed => hCoins.not_known hNext ?_
    obtain ⟨n, coin, hCoin⟩ := e.1.view.overwrites_eq_true.mp hUsed
    exact hCoins.origin _ coin hCoin

/-- A view with one coin of 100, and a block on it: a transfer of 60 with a fee of 40, a
    REQUEST, and a coinbase that claims the fee and the whole subsidy. -/
def sampleCoinView : CoinsView where
  cacheCoins := (∅ : Std.ExtTreeMap Uint256 CCoins).insert 7 { vout := [⟨100, []⟩], nHeight := 1 }
  sproutAnchors := { best := sampleRoot [] }
  saplingAnchors := { best := sampleRoot [] }
  hashBlock := 3
def sampleCoinContext : ConnectContext :=
  { chainActive := [1, 2, 3], nHeight := 3, view := sampleCoinView }
def sampleTransfer : CTransaction :=
  { vin := [⟨⟨7, 0⟩⟩], vout := [⟨60, []⟩], opoiSigTime := 7 }
def sampleTransferBlock : CBlock :=
  ⟨4, [sampleCoinbase [("miner", 15000000040)] 3, sampleTransfer, sampleRequest "r" "alice" 2 1]⟩

theorem supply_le_of_transfer : ∃ view,
    (connectBlock sampleNet {} sampleCoinContext sampleTransferBlock {}).verdict = .ok view ∧
    sampleCoinView.totalValue = 100 ∧ view.totalValue = 15000000100 ∧
    supply view (PoolValues.connect ⟨0, 0⟩ sampleTransferBlock.vtx) ≤
      supply sampleCoinView ⟨0, 0⟩ + coinbaseAllowance regtestParams 3 := by
  obtain ⟨view, hAccepted, hTotal⟩ : ∃ view,
      (connectBlock sampleNet {} sampleCoinContext sampleTransferBlock {}).verdict =
        .ok view ∧ view.totalValue = 15000000100 := by decide +kernel
  have hNonneg : sampleCoinView.Nonneg := by
    intro o coin hCoin
    obtain ⟨coins, hGet, hCoin⟩ := Option.bind_eq_some_iff.mp hCoin
    simp only [sampleCoinView, TreeMap.getElem?_insert_eq] at hGet
    split at hGet
    · cases hGet
      obtain ⟨hOut, _⟩ := CCoins.getElem?_of_coin hCoin
      have hMem := mem_of_getElem? hOut
      rw [mem_singleton] at hMem
      rw [hMem]
      decide
    · simp at hGet
  exact ⟨view, hAccepted, by decide +kernel, hTotal,
    (supply_le_of_connectBlock ⟨0, 0⟩ hNonneg (by decide) hAccepted).1⟩

end CloudService
