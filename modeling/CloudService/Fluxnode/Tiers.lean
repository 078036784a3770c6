/-
  The tier of a node is a property of its collateral: as long as ids do not collide, an
  outpoint stands for one output.
-/

import CloudService.Coins.Loop
import CloudService.Fluxnode.Ledger

namespace CloudService

/-- The transactions of some blocks. -/
def chainTxs (blocks : List CBlock) : List CTransaction := blocks.flatMap (·.vtx)

/-! ## Where coins come from -/

def CoinsFrom (env : Env) (txs : List CTransaction) (v : CoinsView) : Prop :=
  ∀ o c, v.coin o = some c → ∃ tx ∈ txs, env.getHash tx = o.hash ∧ tx.vout[o.n]? = some c.out

section Origin

variable {env : Env} {txs : List CTransaction} {v : CoinsView} {nHeight : Nat}

theorem CoinsFrom.updateCoins (h : CoinsFrom env txs v) {tx : CTransaction} (hMem : tx ∈ txs) :
    CoinsFrom env txs (v.updateCoins (env.getHash tx) tx nHeight) := by
  intro o c hCoin
  rw [CoinsView.coin_updateCoins] at hCoin
  split at hCoin
  · rename_i hHash
    rw [CCoins.coin_fromTx] at hCoin
    obtain ⟨out, hFilter, rfl⟩ := Option.map_eq_some_iff.mp hCoin
    exact ⟨tx, hMem, hHash.symm, (Option.filter_eq_some_iff.mp hFilter).1⟩
  · split at hCoin
    · cases hCoin
    · exact h o c hCoin

theorem CoinsFrom.foldl_updateCoins (h : CoinsFrom env txs v) {more : List CTransaction}
    (hMem : ∀ tx ∈ more, tx ∈ txs) :
    CoinsFrom env txs (more.foldl (fun v tx => v.updateCoins (env.getHash tx) tx nHeight) v) :=
  List.foldlRecOn (motive := CoinsFrom env txs) more _ h fun _ hv tx hTx =>
    hv.updateCoins (hMem tx hTx)

theorem coinsFrom_chainCoins {chain : List CBlock}
    (hTxs : ∀ tx ∈ chainTxs chain.dropLast, tx ∈ txs) :
    CoinsFrom env txs (chainCoins env chain) := by
  induction chain with
  | nil =>
    intro o c hCoin
    simp [chainCoins, CoinsView.init, CoinsView.coin] at hCoin
  | cons block chain ih =>
    cases chain with
    | nil =>
      intro o c hCoin
      simp [chainCoins, CoinsView.init, CoinsView.coin] at hCoin
    | cons prev chain =>
      have hRest : CoinsFrom env txs (chainCoins env (prev :: chain)) :=
        ih fun tx hMem => hTxs tx (List.mem_append_right _ hMem)
      exact hRest.foldl_updateCoins fun tx hMem => hTxs tx (List.mem_append_left _ hMem)

end Origin

/-! ## The tier of a collateral -/

def collateralTier (env : Env) (txs : List CTransaction) (o : COutPoint) : Tier :=
  ((txs.find? fun tx => env.getHash tx == o.hash).bind fun tx =>
    tx.vout[o.n]?.bind fun out => getCoinTierFromAmount out.nValue).getD .proton

theorem collateralTier_eq {env : Env} {txs : List CTransaction} (hIds : CollisionFree env txs)
    {tx : CTransaction} (hMem : tx ∈ txs) {o : COutPoint} (hHash : env.getHash tx = o.hash)
    {out : CTxOut} (hOut : tx.vout[o.n]? = some out) {tier : Tier}
    (hTier : getCoinTierFromAmount out.nValue = some tier) : collateralTier env txs o = tier := by
  obtain ⟨first, hFind⟩ : ∃ first, (txs.find? fun tx => env.getHash tx == o.hash) = some first :=
    Option.isSome_iff_exists.mp (List.find?_isSome.mpr ⟨tx, hMem, by simp [hHash]⟩)
  have hFirst : env.getHash first = o.hash := by simpa using List.find?_some hFind
  have hSame := (hIds first (List.mem_of_find?_eq_some hFind) tx hMem (hFirst.trans hHash.symm)).2.1
  rw [collateralTier, hFind, Option.bind_some, hSame, hOut, Option.bind_some, hTier]
  rfl

section Ledger

variable {env : FluxnodeEnv} {txs : List CTransaction} {o : COutPoint} {d : FluxnodeCacheData}

theorem tier_of_start {nHeight : Nat} {coins : CoinsView} {block : CBlock}
    (hIds : CollisionFree env.toEnv txs) (hCoins : CoinsFrom env.toEnv txs coins)
    (hTxs : ∀ tx ∈ block.vtx, tx ∈ txs)
    (h : (fluxnodeEvents env nHeight coins block).starts[o]? = some d) :
    d.nTier = collateralTier env.toEnv txs o := by
  obtain ⟨before, tx, after, tier, nCollateral, hSplit, _, rfl, hInput, rfl⟩ :=
    (EventSources.of_eventsLoop block.vtx).start o d h
  obtain ⟨out, hUnspent, _, hTier, _, _⟩ := checkFluxnodeTxInput_eq_ok hInput
  rw [CoinsView.unspent_eq] at hUnspent
  obtain ⟨coin, hCoin, rfl⟩ := Option.map_eq_some_iff.mp hUnspent
  have hFrom : CoinsFrom env.toEnv txs (eventsLoop env nHeight coins before).1 := by
    rw [eventsLoop_fst]
    exact hCoins.foldl_updateCoins fun tx hMem => hTxs tx (by simp [hSplit, hMem])
  obtain ⟨source, hMem, hHash, hOut⟩ := hFrom _ coin hCoin
  exact (collateralTier_eq hIds hMem hHash hOut hTier).symm

theorem NodeStatus.tier_step {nHeight : Nat} {ev : NodeEvents} {paid : Bool} {st : NodeStatus}
    {tier : Tier} (hOld : ∀ d, st.record? = some d → d.nTier = tier)
    (hStart : ∀ d, ev.start = some d → d.nTier = tier)
    (h : (st.step env nHeight ev paid).record? = some d) : d.nTier = tier := by
  cases st with
  | absent =>
    cases hEvent : ev.start with
    | none =>
      rw [step, hEvent] at h
      cases h
    | some start =>
      rw [step, hEvent] at h
      cases h
      exact hStart d hEvent
  | started old =>
    have hTier := hOld old rfl
    simp only [step] at h
    repeat' split at h
    all_goals
      cases h
      exact hTier
  | dos old =>
    have hTier := hOld old rfl
    simp only [step] at h
    split at h
    all_goals
      cases h
      try exact hTier
  | confirmed old =>
    have hTier := hOld old rfl
    simp only [step] at h
    split at h
    · cases h
    · cases h
      cases ev.update <;> cases paid <;> exact hTier

theorem tier_of_ledger (hIds : CollisionFree env.toEnv txs) {chain : List CBlock}
    (hTxs : ∀ tx ∈ chainTxs chain.dropLast, tx ∈ txs) (h : (ledger env chain o).record? = some d) :
    d.nTier = collateralTier env.toEnv txs o := by
  induction chain generalizing d with
  | nil => cases h
  | cons block chain ih =>
    cases chain with
    | nil => cases h
    | cons prev chain =>
      have hRest : ∀ tx ∈ chainTxs (prev :: chain).dropLast, tx ∈ txs := fun tx hMem =>
        hTxs tx (List.mem_append_right _ hMem)
      refine NodeStatus.tier_step (fun old hOld => ih hRest hOld) (fun start hStart => ?_) h
      exact tier_of_start hIds (coinsFrom_chainCoins hRest)
        (fun tx hMem => hTxs tx (List.mem_append_left _ hMem)) hStart

end Ledger

end CloudService
