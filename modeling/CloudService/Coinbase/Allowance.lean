/-
  The coinbase of a template pays exactly what `ConnectBlock` allows at its height, whatever
  its loops skip.
-/

import CloudService.Coinbase.Template

namespace CloudService

open List

/-- The funds that `CreateNewBlock` pays. -/
inductive Fund where
  | exchange
  | foundation
  | swapPool
  | dev
  | marketing
deriving Repr, DecidableEq

/-- The fund outputs of `CreateNewBlock` at a height, in order. -/
def fundsDue (p : ChainParams) (nHeight : Int) : List (Fund × CAmount) :=
  (if nHeight = p.nExchangeFundingHeight then [(.exchange, p.nExchangeFundingAmount)] else []) ++
  (if nHeight = p.nFoundationFundingHeight then [(.foundation, p.nFoundationFundingAmount)]
    else []) ++
  (if isSwapPoolInterval p nHeight then [(.swapPool, p.swapPool.nAmount)] else []) ++
  (if isDevFundInterval p nHeight then [(.dev, p.devFund.nAmount)] else []) ++
  (if isMarketingFundInterval p nHeight then [(.marketing, p.marketingFund.nAmount)] else [])

theorem sum_fundsDue (p : ChainParams) (nHeight : Int) :
    getBlockSubsidy p nHeight + ((fundsDue p nHeight).map Prod.snd).sum =
      coinbaseAllowance p nHeight := by
  have hFund : ∀ (due : Prop) [Decidable due] (f : Fund) (a : CAmount),
      ((if due then [(f, a)] else []).map Prod.snd).sum = if due then a else 0 := by
    intro due _ f a
    split <;> simp
  simp only [fundsDue, map_append, sum_append, hFund, coinbaseAllowance,
    getExchangeFundAmount, getFoundationFundAmount]
  ring

theorem fundsDue_nonneg {p : ChainParams} {nHeight : Int} {f : Fund × CAmount}
    (h : f ∈ fundsDue p nHeight) : 0 ≤ f.2 := by
  simp only [fundsDue, mem_append, mem_ite_nil_right, mem_singleton] at h
  rcases h with (((⟨_, rfl⟩ | ⟨_, rfl⟩) | ⟨_, rfl⟩) | ⟨_, rfl⟩) | ⟨_, rfl⟩
  · exact p.exchange_nonneg
  · exact p.foundation_nonneg
  · exact p.swapPool.nAmount_nonneg
  · exact p.devFund.nAmount_nonneg
  · exact p.marketingFund.nAmount_nonneg

section Template

variable (env : Env) (chainActive : List Uint256) (nHeight : Nat)

/-- `FillBlockPayeeWithDeterministicPayouts`, called once fluxnodes are paid. -/
def fillBlockPayee : List CTxOut :=
  if env.startFluxnodePayments ≤ nHeight then
    (mapFluxnodePayouts env chainActive nHeight).map FluxnodePayoutInfo.output
  else []

/-- The node payments of a block are not negative and stay within its subsidy. -/
structure TiersWithinSubsidy : Prop where
  nonneg : ∀ tier, 0 ≤ env.getFluxnodeSubsidy nHeight tier
  sum_le : ((fillBlockPayee env chainActive nHeight).map CTxOut.nValue).sum ≤
    getBlockSubsidy env.chainParams nHeight

/-- The inputs of `CreateNewBlock` at a height. -/
def blockTemplate (hTiers : TiersWithinSubsidy env chainActive nHeight) (scriptPubKeyIn : CScript)
    (fundScript : Fund → CScript) (nFees : CAmount) (hFees : 0 ≤ nFees) : CoinbaseTemplate where
  scriptPubKeyIn := scriptPubKeyIn
  blockValue := getBlockSubsidy env.chainParams nHeight
  fluxnodePayouts := fillBlockPayee env chainActive nHeight
  funds := (fundsDue env.chainParams nHeight).map fun f => ⟨f.2, fundScript f.1⟩
  nFees := nFees
  payouts_nonneg := fun out hOut => by
    unfold fillBlockPayee mapFluxnodePayouts at hOut
    split at hOut
    · obtain ⟨payout, hMem, rfl⟩ := mem_map.mp hOut
      obtain ⟨tier, _, hTier⟩ := mem_filterMap.mp hMem
      obtain ⟨dest, _, rfl⟩ := Option.map_eq_some_iff.mp hTier
      exact hTiers.nonneg tier
    · cases hOut
  payouts_le := hTiers.sum_le
  funds_nonneg := fun out hOut => by
    obtain ⟨f, hMem, rfl⟩ := mem_map.mp hOut
    exact fundsDue_nonneg hMem
  nFees_nonneg := hFees

end Template

/-! ## Carving -/

/-- The outputs of a loop: none is negative, and their total is within the share they are carved
    from. -/
structure Carved (base share : CAmount) (st : PayoutLoop) : Prop where
  nonneg : ∀ out ∈ st.vout, 0 ≤ out.nValue
  sum : (st.vout.map CTxOut.nValue).sum = base + st.total
  le : st.total ≤ share

section Carving

variable {env : Env} {c : OPoICache} {vtx : List CTransaction} {base share budget : CAmount}
  {st : PayoutLoop}

theorem Carved.push (h : Carved base share st) {amount : CAmount} (hAmount : 0 ≤ amount)
    (hFits : ¬share < st.total + amount) (script : CScript) :
    Carved base share ⟨st.vout ++ [⟨amount, script⟩], st.total + amount⟩ where
  nonneg := by
    intro out hOut
    rcases mem_append.mp hOut with hOld | hNew
    · exact h.nonneg out hOld
    · cases mem_singleton.mp hNew
      exact hAmount
  sum := by
    simp [h.sum, Int.add_assoc]
  le := Int.not_lt.mp hFits

theorem Carved.payObligation (h : Carved base share st) {o : Obligation} (hAmount : 0 ≤ o.amount) :
    Carved base share (payObligation env budget share st o) := by
  unfold CloudService.payObligation
  dsimp only
  split
  · exact h
  · split
    · exact h
    · split
      · exact h
      · exact h.push hAmount ‹_› _

theorem Carved.payReward (h : Carved base share st) {w : OPoIChallengerReward}
    (hAmount : 0 ≤ w.rewardAmount) : Carved base share (payReward env share st w) := by
  unfold CloudService.payReward
  dsimp only
  split
  · exact h
  · split
    · exact h
    · exact h.push hAmount ‹_› _

/-- Whatever the loops skip, no output of the coinbase is negative, and all of them come to the
    subsidy, the funds and the fees. -/
theorem coinbaseOutputs_carved (chainActive : List Uint256) (nHeight : Nat) (t : CoinbaseTemplate)
    (hRewards : ∀ w ∈ getChallengerRewardsAtHeight env c vtx, 0 ≤ w.rewardAmount) :
    (∀ out ∈ coinbaseOutputs env c chainActive nHeight t vtx, 0 ≤ out.nValue) ∧
      ((coinbaseOutputs env c chainActive nHeight t vtx).map CTxOut.nValue).sum = t.value := by
  have hFees := t.nFees_nonneg
  have hShare : 0 ≤ t.minerReward := Int.sub_nonneg.mpr t.payouts_le
  have hBase : Carved ((t.fluxnodePayouts ++ t.funds).map CTxOut.nValue).sum t.minerReward
      ⟨t.fluxnodePayouts ++ t.funds, 0⟩ :=
    ⟨fun out hOut => (mem_append.mp hOut).elim (t.payouts_nonneg out) (t.funds_nonneg out),
      by simp, hShare⟩
  have hValue : ((t.fluxnodePayouts ++ t.funds).map CTxOut.nValue).sum + t.minerReward + t.nFees =
      t.value := by
    simp only [map_append, sum_append, CoinbaseTemplate.minerReward, CoinbaseTemplate.value]
    ring
  -- the output of the miner in front of outputs that were carved from its share
  have hDone : ∀ (vout : List CTxOut) (left : CAmount), (∀ out ∈ vout, 0 ≤ out.nValue) → 0 ≤ left →
      (vout.map CTxOut.nValue).sum + left =
        ((t.fluxnodePayouts ++ t.funds).map CTxOut.nValue).sum + t.minerReward →
      (∀ out ∈ (⟨left + t.nFees, t.scriptPubKeyIn⟩ :: vout : List CTxOut), 0 ≤ out.nValue) ∧
        ((⟨left + t.nFees, t.scriptPubKeyIn⟩ :: vout : List CTxOut).map CTxOut.nValue).sum =
          t.value := by
    intro vout left hNonneg hLeft hSum
    refine ⟨fun out hOut => ?_, ?_⟩
    · rcases mem_cons.mp hOut with rfl | hOld
      · exact Int.add_nonneg hLeft hFees
      · exact hNonneg out hOld
    · rw [map_cons, sum_cons, ← hValue, ← hSum]
      ring
  unfold coinbaseOutputs
  split
  · dsimp only
    have hPaid : Carved ((t.fluxnodePayouts ++ t.funds).map CTxOut.nValue).sum t.minerReward
        ((obligations env c vtx chainActive nHeight).foldl
          (payObligation env (env.opoiBudget nHeight) t.minerReward)
          ⟨t.fluxnodePayouts ++ t.funds, 0⟩) := by
      refine foldlRecOn _ _ hBase fun st h o hMem => h.payObligation ?_
      rw [obligations_eq] at hMem
      obtain ⟨w, hw, rfl⟩ := mem_map.mp hMem
      exact (owed_pos w hw).le
    generalize (obligations env c vtx chainActive nHeight).foldl _ _ = paid at hPaid ⊢
    have hRewarded : Carved (((t.fluxnodePayouts ++ t.funds).map CTxOut.nValue).sum + paid.total)
        (t.minerReward - paid.total) ((getChallengerRewardsAtHeight env c vtx).foldl
          (payReward env (t.minerReward - paid.total)) ⟨paid.vout, 0⟩) :=
      foldlRecOn _ _ ⟨hPaid.nonneg, by simp [hPaid.sum], Int.sub_nonneg.mpr hPaid.le⟩
        fun st h w hMem => h.payReward (hRewards w hMem)
    generalize (getChallengerRewardsAtHeight env c vtx).foldl _ _ = rewarded at hRewarded ⊢
    have hLeft := hRewarded.le
    have hSum := hRewarded.sum
    split
    · rename_i hTreasury
      refine hDone (rewarded.vout ++ [_]) _ (fun out hOut => ?_)
        (Int.sub_nonneg.mpr hTreasury.2.1) ?_
      · rcases mem_append.mp hOut with hOld | hNew
        · exact hRewarded.nonneg out hOld
        · cases mem_singleton.mp hNew
          exact hTreasury.1.le
      · rw [map_append, sum_append, hSum, map_singleton, sum_singleton]
        ring
    · refine hDone _ _ hRewarded.nonneg (by linarith) ?_
      rw [hSum]
      ring
  · exact hDone _ _ hBase.nonneg hShare rfl

theorem rewardAmount_nonneg (hSound : SoundAmounts c)
    (hPct : 0 ≤ env.params.nOPoIChallengerRewardPct) {w : OPoIChallengerReward}
    (h : w ∈ getChallengerRewardsAtHeight env c vtx) : 0 ≤ w.rewardAmount := by
  obtain ⟨r, a, hReward⟩ := tryReward_of_mem h
  obtain ⟨_, _, s, hStake, rfl⟩ := tryReward_eq_some hReward
  exact Int.tdiv_nonneg (Int.mul_nonneg (hSound.rewardStake_pos hStake).le hPct) (by decide)

end Carving

/-- On every reachable cache, at every height and for all transactions, no output of the coinbase
    of the template is negative, all of them come to the subsidy, the fees and the funds of the
    height, and that is the limit of `ConnectBlock`. -/
theorem coinbase_pays_allowance (env : Env) (node : NodeState) (hNode : Reachable env node)
    (hPct : 0 ≤ env.params.nOPoIChallengerRewardPct) (chainActive : List Uint256) (nHeight : Nat)
    (hTiers : TiersWithinSubsidy env chainActive nHeight) (scriptPubKeyIn : CScript)
    (fundScript : Fund → CScript) (nFees : CAmount) (hFees : 0 ≤ nFees)
    (hRange : nFees + coinbaseAllowance env.chainParams nHeight < 9223372036854775808)
    (txs : List CTransaction) :
    let coinbase := (createNewBlock env node.cache chainActive nHeight
      (blockTemplate env chainActive
      nHeight hTiers scriptPubKeyIn fundScript nFees hFees) txs).headD {}
    (∀ out ∈ coinbase.vout, 0 ≤ out.nValue) ∧
      (coinbase.vout.map CTxOut.nValue).sum = getBlockSubsidy env.chainParams nHeight + nFees +
        ((fundsDue env.chainParams nHeight).map Prod.snd).sum ∧
      coinbase.getValueOut = addInt64 nFees (coinbaseAllowance env.chainParams nHeight) := by
  intro coinbase
  have hRewards : ∀ w ∈ getChallengerRewardsAtHeight env node.cache ({} :: txs),
      0 ≤ w.rewardAmount :=
    fun w hw => rewardAmount_nonneg (soundAmounts_of_reachable hNode) hPct hw
  obtain ⟨hNonneg, hSum⟩ := coinbaseOutputs_carved chainActive nHeight
    (blockTemplate env chainActive nHeight hTiers scriptPubKeyIn fundScript nFees hFees) hRewards
  have hAllowance := coinbaseAllowance_nonneg env.chainParams nHeight (Int.natCast_nonneg nHeight)
  have hValue : (coinbase.vout.map CTxOut.nValue).sum =
      getBlockSubsidy env.chainParams nHeight + nFees +
        ((fundsDue env.chainParams nHeight).map Prod.snd).sum := by
    refine hSum.trans ?_
    simp only [CoinbaseTemplate.value, blockTemplate, map_map, Function.comp_def]
    ring
  refine ⟨hNonneg, hValue, ?_⟩
  rw [CTransaction.getValueOut_of_transparent rfl rfl, hValue, addInt64,
    Int.bmod_eq_of_le (le_trans (by decide) (Int.add_nonneg hFees hAllowance))
      (lt_of_lt_of_eq hRange (by decide)), ← sum_fundsDue]
  ring

/-- The template with the REVEAL of a decided challenge, whose reward and treasury part are carved
    from the subsidy of block 7. -/
theorem coinbase_pays_allowance_of_reveal :
    ∃ node, PlainRun sampleNet sampleChallengedBlocks node ∧
      ∃ t : CoinbaseTemplate, t.nFees = 3 ∧
        (getChallengerRewardsAtHeight sampleNet node.cache
          [{}, sampleChallengeReveal "r" "bob" ⟨4002, 2⟩ 7]).length = 1 ∧
        (((createNewBlock sampleNet node.cache node.chainActive 7 t
          [sampleChallengeReveal "r" "bob" ⟨4002, 2⟩ 7]).headD {}).vout.map CTxOut.nValue).sum =
          getBlockSubsidy sampleNet.chainParams 7 + 3 := by
  refine Run.exists_steps_imp .other (fun node => (getChallengerRewardsAtHeight sampleNet node.cache
      [{}, sampleChallengeReveal "r" "bob" ⟨4002, 2⟩ 7]).length = 1) (by decide +kernel)
    fun node hRun hRewards => ⟨_, rfl, hRewards, (coinbase_pays_allowance _ node
      (reachable_of_forwardRun hRun) (by decide) _ 7 ⟨fun _ => Int.le_refl 0, ?_⟩ [] (fun _ => []) 3
      (by decide) (by decide) _).2.1.trans ?_⟩
  · show (0 : CAmount) ≤ getBlockSubsidy sampleNet.chainParams 7
    decide
  · decide

end CloudService
