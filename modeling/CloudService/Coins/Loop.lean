/-
  The coins inside a block. The BIP30 test looks at the coins before the block only, but no
  transaction overwrites a coin.
-/

import CloudService.Chain.Node
import CloudService.Coins.View

namespace CloudService

open CoinsView

/-- Transactions with one id have the same inputs, outputs and shielded parts. -/
def CollisionFree (env : Env) (txs : List CTransaction) : Prop :=
  ∀ t ∈ txs, ∀ u ∈ txs, env.getHash t = env.getHash u →
    t.vin = u.vin ∧ t.vout = u.vout ∧ t.vJoinSplit = u.vJoinSplit ∧
      t.vShieldedSpend = u.vShieldedSpend
deriving Decidable

/-- The id of a transaction that had coins before the block or has outputs in the block. -/
def KnownId (env : Env) (v₀ : CoinsView) (done : List CTransaction) (txid : Uint256) : Prop :=
  v₀.overwrites txid = true ∨ ∃ t ∈ done, env.getHash t = txid ∧ t.vout ≠ []

/-- Every coin after some transactions has a known id, and what they spent is gone. -/
structure LoopCoins (env : Env) (v₀ : CoinsView) (done : List CTransaction) (v : CoinsView) :
    Prop where
  origin : ∀ y c, v.coin y = some c → KnownId env v₀ done y.hash
  spent : ∀ t ∈ done, ∀ y ∈ spentBy t, v.coin y = none ∧ KnownId env v₀ done y.hash
  sprout : ∀ t ∈ done, ∀ nf ∈ txSproutNullifiers t, v.sproutNullifiers.contains nf = true
  sapling : ∀ t ∈ done, ∀ nf ∈ txSaplingNullifiers t, v.saplingNullifiers.contains nf = true

section Turn

variable {env : Env} {flags : ConnectFlags} {ctx : ConnectContext} {block : CBlock}
  {st st' : LoopState}
  {tx : CTransaction} {v v₀ : CoinsView} {done rest : List CTransaction} {txid : Uint256}

theorem KnownId.mono {more : List CTransaction} (h : KnownId env v₀ done txid) :
    KnownId env v₀ (done ++ more) txid := by
  rcases h with hBefore | ⟨t, hMem, hId, hPays⟩
  · exact .inl hBefore
  · exact .inr ⟨t, List.mem_append_left _ hMem, hId, hPays⟩

theorem LoopCoins.start (env : Env) (v : CoinsView) : LoopCoins env v [] v where
  origin _ _ hCoin := .inl (v.overwrites_of_coin hCoin)
  spent _ hMem := by cases hMem
  sprout _ hMem := by cases hMem
  sapling _ hMem := by cases hMem

theorem ValidTx.vout_eq_nil (h : ValidTx tx) (hIn : tx.vin = [])
    (hJoinSplit : tx.vJoinSplit = []) (hSpend : tx.vShieldedSpend = []) : tx.vout = [] := by
  by_cases hInputless : tx.isInputless = true
  · exact (h.inputless_empty hInputless).2.1
  · have hKind := h.kind
    unfold checkTransactionKind checkTransactionParts at hKind
    rw [check_bind_eq_ok, check_bind_eq_ok, rejectIf_eq_ok] at hKind
    have hParts := hKind.1.1
    simp only [CTransaction.isInputless, Bool.or_eq_true, not_or, Bool.not_eq_true] at hInputless
    simp [hInputless, hIn, hJoinSplit, hSpend] at hParts

structure NextTx (env : Env) (ctx : ConnectContext) (done : List CTransaction) (st : LoopState)
    (tx : CTransaction) (st' : LoopState) : Prop extends CoinTurn env ctx st tx st' where
  valid : ValidTx tx
  fresh : ctx.view.overwrites (env.getHash tx) = false
  first : tx.isCoinBase = true → done = []
  same : ∀ t ∈ done, env.getHash t = env.getHash tx →
    t.vin = tx.vin ∧ t.vout = tx.vout ∧ t.vJoinSplit = tx.vJoinSplit ∧
      t.vShieldedSpend = tx.vShieldedSpend

theorem LoopCoins.not_known (h : LoopCoins env ctx.view done st.view)
    (hNext : NextTx env ctx done st tx st') : ¬ KnownId env ctx.view done (env.getHash tx) := by
  rintro (hBefore | ⟨t, hMem, hId, hPays⟩)
  · rw [hNext.fresh] at hBefore
    cases hBefore
  · obtain ⟨hIn, hOut, hJoinSplit, hSpend⟩ := hNext.same t hMem hId
    have hCoinBase : tx.isCoinBase = false := by
      refine Bool.not_eq_true _ ▸ fun hFirst => ?_
      rw [hNext.first hFirst] at hMem
      cases hMem
    have hNew := st.view.not_contains_of_shieldedRequirements (hNext.requirements hCoinBase)
    have hSpentBy : spentBy t = spentBy tx := by
      unfold spentBy CTransaction.isCoinBase
      rw [hIn]
    refine hPays (hOut.trans (hNext.valid.vout_eq_nil ?_ ?_ ?_))
    · -- An input would be spent already.
      match hVin : tx.vin with
      | [] => rfl
      | txin :: rest =>
        have hInput : txin.prevout ∈ spentBy tx := by
          rw [spentBy, hCoinBase]
          simp [hVin]
        obtain ⟨c, hCoin⟩ := st.view.haveInputs_eq_true.mp hNext.haveInputs _ hInput
        rw [← hSpentBy] at hInput
        rw [(h.spent t hMem _ hInput).1] at hCoin
        cases hCoin
    · -- A nullifier would be set already.
      match hVec : tx.vJoinSplit with
      | [] => rfl
      | joinsplit :: rest =>
        have hNf : joinsplit.nullifiers[0] ∈ txSproutNullifiers tx := by
          rw [txSproutNullifiers, hVec]
          simp
        have hOld : joinsplit.nullifiers[0] ∈ txSproutNullifiers t := by
          rwa [txSproutNullifiers, hJoinSplit]
        have hSet := h.sprout t hMem _ hOld
        rw [hNew.1 _ hNf] at hSet
        cases hSet
    · match hVec : tx.vShieldedSpend with
      | [] => rfl
      | spend :: rest =>
        have hNf : spend.nullifier ∈ txSaplingNullifiers tx := by
          rw [txSaplingNullifiers, hVec]
          simp
        have hOld : spend.nullifier ∈ txSaplingNullifiers t := by
          rwa [txSaplingNullifiers, hSpend]
        have hSet := h.sapling t hMem _ hOld
        rw [hNew.2 _ hNf] at hSet
        cases hSet

theorem vout_ne_nil_of_coin {nHeight n : Nat} {c : Coin}
    (h : (CCoins.fromTx tx nHeight).coin n = some c) : tx.vout ≠ [] := by
  intro hNil
  rw [CCoins.coin_fromTx, hNil] at h
  cases h

theorem LoopCoins.step (h : LoopCoins env ctx.view done st.view)
    (hNext : NextTx env ctx done st tx st') :
    LoopCoins env ctx.view (done ++ [tx]) st'.view where
  origin y c hCoin := by
    rw [hNext.view, coin_updateCoins] at hCoin
    split at hCoin
    · rename_i hId
      exact .inr ⟨tx, by simp, hId.symm, vout_ne_nil_of_coin hCoin⟩
    · split at hCoin
      · cases hCoin
      · exact (h.origin y c hCoin).mono
  spent t hMem y hSpent := by
    have hGone : KnownId env ctx.view done y.hash ∧
        (st.view.coin y = none ∨ y ∈ spentBy tx) := by
      rcases List.mem_append.mp hMem with hOld | hNow
      · obtain ⟨hNone, hKnown⟩ := h.spent t hOld y hSpent
        exact ⟨hKnown, .inl hNone⟩
      · rw [List.mem_singleton.mp hNow] at hSpent
        obtain ⟨c, hCoin⟩ := st.view.haveInputs_eq_true.mp hNext.haveInputs y hSpent
        exact ⟨h.origin y c hCoin, .inr hSpent⟩
    obtain ⟨hKnown, hNone⟩ := hGone
    refine ⟨?_, hKnown.mono⟩
    rw [hNext.view, coin_updateCoins]
    split
    -- A spent coin has an older id.
    · rename_i hId
      exact absurd (hId ▸ hKnown) (h.not_known hNext)
    · split
      · rfl
      · rename_i hNot
        exact hNone.resolve_right hNot
  sprout t hMem nf hNf := by
    rw [hNext.view, sproutNullifiers_updateCoins]
    rcases List.mem_append.mp hMem with hOld | hNow
    · exact .inr (h.sprout t hOld nf hNf)
    · exact .inl (List.mem_singleton.mp hNow ▸ hNf)
  sapling t hMem nf hNf := by
    rw [hNext.view, saplingNullifiers_updateCoins]
    rcases List.mem_append.mp hMem with hOld | hNow
    · exact .inr (h.sapling t hOld nf hNf)
    · exact .inl (List.mem_singleton.mp hNow ▸ hNf)

theorem LoopCoins.coin_kept (h : LoopCoins env ctx.view done st.view)
    (hNext : NextTx env ctx done st tx st') {y : COutPoint} {c : Coin}
    (hCoin : st.view.coin y = some c) (hNot : y ∉ spentBy tx) :
    st'.view.coin y = some c := by
  have hId : y.hash ≠ env.getHash tx := fun hEq =>
    h.not_known hNext (hEq ▸ h.origin y c hCoin)
  rw [hNext.view, coin_updateCoins, if_neg hId, if_neg hNot]
  exact hCoin

theorem NextTx.of_block (hBlock : ValidBlock env ctx block)
    (hIds : CollisionFree env block.vtx) (hVtx : block.vtx = done ++ tx :: rest)
    (hTurn : connectTx env flags ctx block st tx = .ok st') :
    NextTx env ctx done st tx st' := by
  have hMem : tx ∈ block.vtx := by simp [hVtx]
  refine ⟨.of_connectTx hTurn, hBlock.txs tx hMem, hBlock.noOverwrite tx hMem, ?_, ?_⟩
  · intro hCoinBase
    obtain ⟨coinbase, others, hShape, _, hOthers⟩ := hBlock.shape
    match done with
    | [] => rfl
    | first :: done =>
      rw [hVtx, List.cons_append, List.cons.injEq] at hShape
      have hOther : tx ∈ others := by simp [← hShape.2]
      rw [hOthers tx hOther] at hCoinBase
      cases hCoinBase
  · intro t hDone hId
    exact hIds t (by simp [hVtx, hDone]) tx hMem hId

theorem LoopCoins.of_steps (hBlock : ValidBlock env ctx block)
    (hIds : CollisionFree env block.vtx) {c : OPoICache} (hVtx : block.vtx = done ++ rest)
    (h : Run.Steps (connectTx env flags ctx block) (fun _ _ => True) (loopStart ctx c) done st) :
    LoopCoins env ctx.view done st.view := by
  refine h.invariant_split (fun done st => LoopCoins env ctx.view done st.view) ?_
    (.start env ctx.view)
  intro past tx later s t hSplit hCoins _ hTurn
  have hWhole : block.vtx = past ++ tx :: (later ++ rest) := by rw [hVtx, hSplit]; simp
  exact hCoins.step (.of_block hBlock hIds hWhole hTurn)

end Turn

/-! ## Runs -/

/-- The condition on the steps of a machine that the ids of each block do not collide. -/
def noCollisions (env : Env) : Machine → Input → Prop
  | _, .start block => CollisionFree env block.vtx
  | _, _ => True

instance {env : Env} (m : Machine) (input : Input) : Decidable (noCollisions env m input) :=
  match input with
  | .start block => inferInstanceAs (Decidable (CollisionFree env block.vtx))
  | .tx _ => inferInstanceAs (Decidable True)
  | .finish => inferInstanceAs (Decidable True)

/-- In the middle of a block, the coins are those of the transactions before. -/
def Machine.CoinsKnown (env : Env) : Machine → Prop
  | .idle _ => True
  | .busy node block rest st =>
    AcceptedBlock env node block ∧ CollisionFree env block.vtx ∧
      ∃ done, block.vtx = done ++ rest ∧ LoopCoins env node.view done st.view

theorem Machine.CoinsKnown.smallStep {env : Env} (m : Machine) (input : Input) (m' : Machine)
    (h : m.CoinsKnown env) (hIds : noCollisions env m input)
    (hStep : smallStep env m input = .ok m') : m'.CoinsKnown env := by
  obtain ⟨node, block, rfl, rfl, _, hBlock, rfl⟩ |
    ⟨node, block, tx, rest, st, st', rfl, rfl, hTurn, rfl⟩ | ⟨node, block, st, rfl, rfl, -, rfl⟩ :=
    smallStep_cases hStep
  · exact ⟨hBlock, hIds, [], rfl, .start env node.view⟩
  · obtain ⟨hBlock, hFree, done, hVtx, hCoins⟩ := h
    have hNext := NextTx.of_block hBlock.valid hFree hVtx hTurn
    exact ⟨hBlock, hFree, done ++ [tx], by simp [hVtx], hCoins.step hNext⟩
  · trivial

end CloudService
