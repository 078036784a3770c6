/-
  The amount of a stake is declared. `ConnectBlock` compares the value of the collateral with
  the minimum stake only.
-/

import CloudService.Chain.Evaluate
import CloudService.Chain.History
import CloudService.Stakes.Evolution

namespace CloudService

/-- The declared amount of a STAKE is covered by its collateral, if that is unspent. -/
def declaresCovered (view : CoinsView) (tx : CTransaction) : Bool :=
  (view.unspent tx.opoiCollateralIn).all fun out => decide (tx.opoiPayment ≤ out.nValue)

/-- A STAKE declares no more than its collateral holds, if that is unspent. -/
def CoveredStakes (_ : NodeState) (st : LoopState) (tx : CTransaction) : Prop :=
  tx.isOPoI .stake = true → declaresCovered st.view tx = true
deriving Decidable

/-- A connected STAKE created the record on an unspent output of at least its amount. -/
def BackedBy (env : Env) (past : List TxEvent) (ident : StakeIdentity) : Prop :=
  ∃ e ∈ past, e.tx.isOPoI .stake = true ∧
    (newStake env e.node.nextHeight e.tx).identity = ident ∧
    ∃ out, e.st.view.unspent ident.collateralIn = some out ∧ ident.amount ≤ out.nValue

/-- Every live stake was created on an unspent output of at least its amount. -/
def StakesBacked (env : Env) (past : List TxEvent) (c : OPoICache) : Prop :=
  ∀ (m : String) (s : OPoIStake), c.mapStakes[m]? = some s → s.isLive = true →
    BackedBy env past s.identity

section Backing

variable {env : Env} {node : NodeState} {block : CBlock} {st st' : LoopState} {tx : CTransaction}
  {past : List TxEvent} {ident : StakeIdentity}

theorem BackedBy.extend (h : BackedBy env past ident) (e : TxEvent) :
    BackedBy env (past ++ [e]) ident := by
  obtain ⟨e', hMem, hRest⟩ := h
  exact ⟨e', List.mem_append_left _ hMem, hRest⟩

theorem identity_applyOPoITransaction {chainActive : List Uint256} {blockHeight : Nat}
    {c : OPoICache} {m : String} {s' : OPoIStake}
    (h : (applyOPoITransaction env chainActive blockHeight c tx).mapStakes[m]? = some s') :
    (∃ s, c.mapStakes[m]? = some s ∧ s'.identity = s.identity) ∨
      (tx.opoiType = .stake ∧ s' = newStake env blockHeight tx) := by
  by_cases hStake : tx.opoiType = .stake
  · simp only [applyOPoITransaction, hStake, applyStake, OPoICache.addStake, OPoICache.lockUTXO,
      TreeMap.getElem?_insert_eq] at h
    split at h
    · cases h
      exact .inr ⟨hStake, rfl⟩
    · exact .inl ⟨s', h, rfl⟩
  · by_cases hRenew : tx.opoiType = .renew
    · simp only [applyOPoITransaction, hRenew, applyRenew, OPoICache.modifyStake,
        TreeMap.getElem?_modify_eq] at h
      split at h
      · obtain ⟨s, hGet, rfl⟩ := Option.map_eq_some_iff.mp h
        exact .inl ⟨s, hGet, rfl⟩
      · exact .inl ⟨s', h, rfl⟩
    · have hEvolve : StakesEvolve c (applyOPoITransaction env chainActive blockHeight c tx) :=
        applyOPoITransaction_stakesEvolve hStake hRenew
      obtain ⟨s, hGet, hEvolves⟩ := hEvolve.get_before h
      exact .inl ⟨s, hGet, hEvolves.identity⟩

theorem unspent_of_connectTx (h : connectTx env {} node.context block st tx = .ok st')
    (hTx : AcceptedTx env node tx) (hStake : tx.isOPoI .stake = true) :
    ∃ out, st.view.unspent tx.opoiCollateralIn = some out := by
  have hOPoI : tx.isOPoITx = true := by
    simp only [CTransaction.isOPoI, Bool.and_eq_true] at hStake
    exact hStake.1
  have hCollateral := (connectTx_eq_ok h).2.2 hStake (hTx.active hOPoI)
  unfold checkStakeCollateral at hCollateral
  split at hCollateral
  · cases hCollateral
  · rename_i out hUnspent
    exact ⟨out, hUnspent⟩

theorem historyInvariant_backed :
    HistoryInvariant env CoveredStakes fun past c =>
      ∀ (m : String) (s : OPoIStake), c.mapStakes[m]? = some s → BackedBy env past s.identity where
  onTx past node block st tx st' hPast hTx hTurn hOk m s' hGet := by
    rw [(connectTx_eq_ok hTurn).1, hTx.loopCache_eq] at hGet
    split at hGet
    · rename_i hOPoI
      rcases identity_applyOPoITransaction hGet with ⟨s, hOld, hSame⟩ | ⟨hType, rfl⟩
      · rw [hSame]
        exact (hPast m s hOld).extend _
      · have hStake : tx.isOPoI .stake = true := by simp [CTransaction.isOPoI, hOPoI, hType]
        obtain ⟨out, hUnspent⟩ := unspent_of_connectTx hTurn hTx hStake
        refine ⟨⟨node, st, tx⟩, by simp, hStake, rfl, out, hUnspent, ?_⟩
        have hCovered := hOk hStake
        rw [declaresCovered, hUnspent] at hCovered
        exact of_decide_eq_true hCovered
    · exact (hPast m s' hGet).extend _
  onPasses past node vtx c hPast m s' hGet := by
    have hEvolve : StakesEvolve c (connectPasses env node.nextHeight vtx c) :=
      passPreserved_stakesEvolve.connectPasses (.refl c) vtx
    obtain ⟨s, hOld, hEvolves⟩ := hEvolve.get_before hGet
    rw [hEvolves.identity]
    exact hPast m s hOld

/-- In every run in which each STAKE declares at most the value of its collateral, every live
    stake is backed, in every state. -/
theorem stakesBacked_of_run {inputs : List Input} {m : Machine}
    (hRun : SmallRun env (onTx CoveredStakes) inputs m) :
    StakesBacked env (history env inputs) m.cache := by
  intro miner s hStake _
  refine historyInvariant_backed.run ?_ hRun miner s hStake
  intro m s hNone
  cases hNone

end Backing

def sampleDeclaredStake (amount : CAmount) : List CBlock :=
  [sampleFunding, sampleBlock 3 [{ sampleStake "alice" ⟨4002, 1⟩ 1 with opoiPayment := amount }]]

def sampleHasStake (amount : CAmount) (c : OPoICache) : Bool :=
  (c.mapStakes["alice"]?).any fun s =>
    s.isLive && s.amount == amount && s.collateralIn == ⟨4002, 1⟩

/-- A STAKE of 50. -/
theorem stakesBacked_of_small_stake : ∃ m,
    SmallRun sampleNet (onTx CoveredStakes)
      ((sampleDeclaredStake 50).flatMap blockInputs) m ∧
    sampleHasStake 50 m.cache = true ∧
    StakesBacked sampleNet
      (history sampleNet ((sampleDeclaredStake 50).flatMap blockInputs))
      m.cache := by
  exact Run.exists_steps_imp .other (fun m => sampleHasStake 50 m.cache = true) (by decide +kernel)
    fun _ hRun hStake => ⟨hStake, stakesBacked_of_run hRun⟩

/-- A STAKE of 1000 on the same output is accepted: the value of the output is compared with
    the minimum stake of 10 only. -/
theorem not_stakesBacked_of_large_stake : ∃ m,
    SmallRun sampleNet (fun _ _ => True)
      ((sampleDeclaredStake 1000).flatMap blockInputs) m ∧
    ¬ StakesBacked sampleNet
      (history sampleNet ((sampleDeclaredStake 1000).flatMap blockInputs))
      m.cache := by
  refine Run.exists_steps_imp .other (fun m => sampleHasStake 1000 m.cache = true)
    (by decide +kernel) fun _ _ hTest hBacked => ?_
  obtain ⟨s, hStake, hs⟩ := (Option.any_eq_true _ _).mp hTest
  simp only [Bool.and_eq_true, beq_iff_eq] at hs
  obtain ⟨⟨hLive, hAmount⟩, hCollateral⟩ := hs
  obtain ⟨e, hMem, _, _, out, hUnspent, hValue⟩ := hBacked "alice" s hStake hLive
  -- In no state of this run the output has a value of 1000.
  have hValues : (history sampleNet ((sampleDeclaredStake 1000).flatMap blockInputs)).all (fun e =>
        (e.st.view.unspent ⟨4002, 1⟩).all fun out => decide (out.nValue < 1000)) = true := by
    decide +kernel
  have hSmall := List.all_eq_true.mp hValues e hMem
  simp only [OPoIStake.identity, hCollateral] at hUnspent
  rw [hUnspent] at hSmall
  have hLt : out.nValue < 1000 := of_decide_eq_true hSmall
  simp only [OPoIStake.identity, hAmount] at hValue
  exact Int.not_le.mpr hLt hValue

end CloudService
