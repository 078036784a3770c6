/-
  Builder and validator of the coinbase. Only the builder looks at the share of the miner.
-/

import CloudService.Amounts.Ranges
import CloudService.Chain.CreateNewBlock
import Mathlib.Tactic.Ring

namespace CloudService

open Ranges List

def CoinbaseTemplate.value (t : CoinbaseTemplate) : CAmount :=
  t.blockValue + (t.funds.map CTxOut.nValue).sum + t.nFees

section Template

variable (env : Env) (c : OPoICache) (chainActive : List Uint256) (nHeight : Nat)
  (t : CoinbaseTemplate) (vtx : List CTransaction)

def demandedSum : CAmount := ((demanded env c vtx chainActive nHeight).map Owed.amount).sum

def demandedRewardSum : CAmount :=
  ((demandedRewards env c vtx t.value).map (·.rewardAmount)).sum

/-- Everything that the checks demand of the template fits the share of the miner. -/
@[mk_iff]
structure Covered : Prop where
  obligations : Greedy.fits Owed.amount t.minerReward 0
    (demanded env c vtx chainActive nHeight) = true
  rewards : Greedy.fits (·.rewardAmount)
    (t.minerReward - demandedSum env c chainActive nHeight vtx) 0
    (demandedRewards env c vtx t.value) = true
  treasury : 0 < treasuryReward env c vtx →
    demandedRewardSum env c t vtx + treasuryReward env c vtx ≤ t.value →
    treasuryReward env c vtx ≤ t.minerReward - demandedSum env c chainActive nHeight vtx -
      demandedRewardSum env c t vtx

def owedOutputs : List CTxOut :=
  (owed env c vtx chainActive nHeight).map (Owed.output env) ++
    (getChallengerRewardsAtHeight env c vtx).map (OPoIChallengerReward.output env) ++
    [payTo env env.treasuryAddress (treasuryReward env c vtx)]

/-- The owed outputs differ from each other and from the other outputs; no reward is negative. -/
@[mk_iff]
structure NoCoincidence : Prop where
  nodup : (owedOutputs env c chainActive nHeight vtx).Nodup
  fresh : ∀ out ∈ owedOutputs env c chainActive nHeight vtx,
    out.scriptPubKey ≠ t.scriptPubKeyIn ∧ out ∉ t.fluxnodePayouts ∧ out ∉ t.funds
  nonneg : ∀ w ∈ getChallengerRewardsAtHeight env c vtx, 0 ≤ w.rewardAmount

/-- The amounts on record fit in 64 bits beside the budget and the value of the coinbase. -/
@[mk_iff]
structure TemplateFits : Prop where
  payments : PaymentsFit c vtx (env.opoiBudget nHeight + t.value)
  rewards : RewardsFit c vtx
  room : ((rewardStakes c vtx).map (·.amount)).sum + t.value ≤ maxInt64

/-- Every sum of the builder and of the checks is in the range, whatever a total holds by then. -/
structure TemplateInRange : Prop extends ChecksInRange env c chainActive nHeight vtx where
  paid : ∀ o ∈ obligations env c vtx chainActive nHeight, ∀ total, 0 ≤ total → total ≤ t.value →
    InInt64 (total + o.amount)
  rewarded : ∀ w ∈ getChallengerRewardsAtHeight env c vtx, ∀ total, 0 ≤ total → total ≤ t.value →
    InInt64 (total + w.rewardAmount)
  settled : ∀ total, 0 ≤ total → total ≤ t.value → InInt64 (total + treasuryReward env c vtx)

/-- The OPoI outputs are added, and every address that the block may owe to can be paid. -/
structure DebtsPayable : Prop where
  active : env.params.opoiActive nHeight = true
  owed : ∀ w ∈ owed env c vtx chainActive nHeight, payable env w.obligation.address
  rewards : ∀ w ∈ getChallengerRewardsAtHeight env c vtx, payable env w.challengerAddress

/-- What the builder pays: the obligations within the budget and the share of the miner. -/
def paidObligations : List Owed :=
  Greedy.taken Owed.amount (min (env.opoiBudget nHeight) t.minerReward) 0
    (owed env c vtx chainActive nHeight)

def paidSum : CAmount := ((paidObligations env c chainActive nHeight t vtx).map Owed.amount).sum

def paidRewards : List OPoIChallengerReward :=
  Greedy.taken (·.rewardAmount) (t.minerReward - paidSum env c chainActive nHeight t vtx) 0
    (getChallengerRewardsAtHeight env c vtx)

def paidRewardSum : CAmount :=
  ((paidRewards env c chainActive nHeight t vtx).map (·.rewardAmount)).sum

def paidTreasury : List CTxOut :=
  if 0 < treasuryReward env c vtx ∧ treasuryReward env c vtx ≤
      t.minerReward - paidSum env c chainActive nHeight t vtx -
        paidRewardSum env c chainActive nHeight t vtx then
    [payTo env env.treasuryAddress (treasuryReward env c vtx)]
  else []

end Template

section Accepted

variable {env : Env} {c : OPoICache} {chainActive : List Uint256} {nHeight : Nat}
  {t : CoinbaseTemplate} {vtx : List CTransaction} {txs : List CTransaction}

/-! ## The coinbase of the template -/

theorem foldl_push {α : Type} (output : α → CTxOut) (amount : α → CAmount) (xs : List α)
    (st : PayoutLoop) :
    xs.foldl (fun st x => ⟨st.vout ++ [output x], st.total + amount x⟩) st =
      (⟨st.vout ++ xs.map output, st.total + (xs.map amount).sum⟩ : PayoutLoop) := by
  induction xs generalizing st with
  | nil => simp
  | cons x xs ih =>
    rw [foldl_cons, ih]
    simp [Int.add_assoc]

theorem payObligation_eq {w : Owed} (hPayable : payable env w.obligation.address)
    (budget available : CAmount) (st : PayoutLoop) :
    payObligation env budget available st w.obligation =
      if min budget available < st.total + w.amount then st
      else ⟨st.vout ++ [w.output env], st.total + w.amount⟩ := by
  have hValid : isValidDestination (env.decodeDestination w.obligation.address) = true := hPayable
  unfold payObligation
  dsimp only
  rw [hValid, if_neg (by simp)]
  change (if budget < st.total + w.amount then st else if available < st.total + w.amount then st
    else _) = _
  by_cases hBudget : budget < st.total + w.amount
  · rw [if_pos hBudget, if_pos (min_lt_iff.mpr (.inl hBudget))]
  · by_cases hShare : available < st.total + w.amount
    · rw [if_neg hBudget, if_pos hShare, if_pos (min_lt_iff.mpr (.inr hShare))]
    · rw [if_neg hBudget, if_neg hShare, if_neg fun hMin =>
        (min_lt_iff.mp hMin).elim hBudget hShare]
      rfl

theorem payReward_eq {w : OPoIChallengerReward} (hPayable : payable env w.challengerAddress)
    (available : CAmount) (st : PayoutLoop) :
    payReward env available st w =
      if available < st.total + w.rewardAmount then st
      else ⟨st.vout ++ [w.output env], st.total + w.rewardAmount⟩ := by
  have hValid : isValidDestination (env.decodeDestination w.challengerAddress) = true := hPayable
  unfold payReward
  simp only [hValid, Bool.true_eq_false, if_false]
  rfl

/-- A loop that pays what still fits. -/
theorem foldl_pay {α : Type} {pay : PayoutLoop → α → PayoutLoop} {output : α → CTxOut}
    {amount : α → CAmount} {available : CAmount} {xs : List α}
    (hPay : ∀ w ∈ xs, ∀ st, pay st w = if available < st.total + amount w then st
      else ⟨st.vout ++ [output w], st.total + amount w⟩) (base : List CTxOut) :
    xs.foldl pay ⟨base, 0⟩ = ⟨base ++ (Greedy.taken amount available 0 xs).map output,
      ((Greedy.taken amount available 0 xs).map amount).sum⟩ := by
  rw [Greedy.foldl_eq_taken amount available PayoutLoop.total _
    (fun st w => ⟨st.vout ++ [output w], st.total + amount w⟩)
    (fun st w hMem hOver => by rw [hPay w hMem, if_pos hOver])
    (fun st w hMem hWithin => by rw [hPay w hMem, if_neg hWithin])
    (fun _ _ => rfl), foldl_push, Int.zero_add]

theorem coinbaseOutputs_eq (h : DebtsPayable env c chainActive nHeight vtx) :
    coinbaseOutputs env c chainActive nHeight t vtx =
      ⟨t.minerReward - paidSum env c chainActive nHeight t vtx -
          paidRewardSum env c chainActive nHeight t vtx -
          ((paidTreasury env c chainActive nHeight t vtx).map CTxOut.nValue).sum + t.nFees,
        t.scriptPubKeyIn⟩ ::
      (t.fluxnodePayouts ++ t.funds ++
        (paidObligations env c chainActive nHeight t vtx).map (Owed.output env) ++
        (paidRewards env c chainActive nHeight t vtx).map (OPoIChallengerReward.output env) ++
        paidTreasury env c chainActive nHeight t vtx) := by
  unfold coinbaseOutputs
  rw [if_pos h.active]
  dsimp only
  rw [obligations_eq, foldl_map, foldl_pay fun w hMem => payObligation_eq (h.owed w hMem) _ _,
    foldl_pay fun w hMem => payReward_eq (h.rewards w hMem) _]
  unfold paidTreasury
  by_cases hTreasury : 0 < treasuryReward env c vtx ∧ treasuryReward env c vtx ≤
      t.minerReward - paidSum env c chainActive nHeight t vtx -
        paidRewardSum env c chainActive nHeight t vtx
  · rw [if_pos hTreasury]
    exact (if_pos ⟨hTreasury.1, hTreasury.2, env.treasury_valid⟩).trans
      (by simp [payTo, treasuryReward, paidRewardSum, paidRewards, paidSum, paidObligations])
  · rw [if_neg hTreasury]
    exact (if_neg fun h => hTreasury ⟨h.1, h.2.1⟩).trans
      (by simp [paidRewardSum, paidRewards, paidSum, paidObligations])

theorem coinbaseOutputs_value (h : DebtsPayable env c chainActive nHeight vtx) :
    ((coinbaseOutputs env c chainActive nHeight t vtx).map CTxOut.nValue).sum = t.value := by
  have hPaid : ((paidObligations env c chainActive nHeight t vtx).map
      fun w => (w.output env).nValue).sum = paidSum env c chainActive nHeight t vtx := rfl
  have hRewarded : ((paidRewards env c chainActive nHeight t vtx).map
      fun w => (w.output env).nValue).sum = paidRewardSum env c chainActive nHeight t vtx := rfl
  rw [coinbaseOutputs_eq h]
  simp only [map_cons, map_append, map_map, sum_cons, sum_append,
    Function.comp_def, hPaid, hRewarded, CoinbaseTemplate.minerReward, CoinbaseTemplate.value]
  ring

/-! ## The checks on the template -/

def TemplateAccepted (env : Env) (c : OPoICache) (chainActive : List Uint256) (nHeight : Nat)
    (t : CoinbaseTemplate) (txs : List CTransaction) : Prop :=
  checkOPoIPayments env c (createNewBlock env c chainActive nHeight t txs) chainActive nHeight =
      .ok () ∧
    checkOPoIChallengerRewards env c (createNewBlock env c chainActive nHeight t txs) = .ok ()

theorem templateAccepted_iff (h : DebtsPayable env c chainActive nHeight ({} :: txs)) :
    TemplateAccepted env c chainActive nHeight t txs ↔
      ((demanded env c ({} :: txs) chainActive nHeight).map (Owed.output env)).Subperm
        (coinbaseOutputs env c chainActive nHeight t ({} :: txs)) ∧
      (∀ w ∈ demandedRewards env c ({} :: txs) t.value,
        w.output env ∈ coinbaseOutputs env c chainActive nHeight t ({} :: txs)) ∧
      (0 < treasuryReward env c ({} :: txs) →
        demandedRewardSum env c t ({} :: txs) + treasuryReward env c ({} :: txs) ≤ t.value →
        payTo env env.treasuryAddress (treasuryReward env c ({} :: txs)) ∈
          coinbaseOutputs env c chainActive nHeight t ({} :: txs)) := by
  have hValue := coinbaseOutputs_value (t := t) h
  unfold TemplateAccepted createNewBlock
  rw [checkOPoIPayments_eq_ok, checkOPoIChallengerRewards_eq_ok]
  rw [CTransaction.getValueOut_of_transparent rfl rfl]
  simp only [hValue]
  have hValid : ∀ w ∈ demanded env c ({} :: txs) chainActive nHeight,
      payable env w.obligation.address := fun w hMem => h.owed w (Greedy.taken_sublist.subset hMem)
  have hValidRewards : ∀ w ∈ demandedRewards env c ({} :: txs) t.value,
      payable env w.challengerAddress := fun w hMem => h.rewards w
        (Greedy.taken_sublist.subset hMem)
  constructor
  · rintro ⟨⟨_, hOutputs⟩, hFound, hTreasury⟩
    exact ⟨hOutputs, fun w hMem => (hFound w hMem).2, hTreasury⟩
  · rintro ⟨hOutputs, hFound, hTreasury⟩
    exact ⟨⟨hValid, hOutputs⟩, fun w hMem => ⟨hValidRewards w hMem, hFound w hMem⟩, hTreasury⟩

theorem demandedSum_nonneg : 0 ≤ demandedSum env c chainActive nHeight vtx := by
  refine sum_nonneg fun a hMem => ?_
  obtain ⟨w, hw, rfl⟩ := mem_map.mp hMem
  exact Int.le_of_lt (owed_pos w (Greedy.taken_sublist.subset hw))

theorem minerReward_le_value : t.minerReward ≤ t.value := by
  have hPayouts := sum_nonneg (forall_mem_map.mpr t.payouts_nonneg)
  have hFunds := sum_nonneg (forall_mem_map.mpr t.funds_nonneg)
  have hFees := t.nFees_nonneg
  unfold CoinbaseTemplate.minerReward CoinbaseTemplate.value
  linarith

theorem paidObligations_eq (h : Greedy.fits Owed.amount t.minerReward 0
      (demanded env c vtx chainActive nHeight) = true) :
    paidObligations env c chainActive nHeight t vtx = demanded env c vtx chainActive nHeight :=
  Greedy.taken_of_fits (min_le_left _ _) (Greedy.fits_min Greedy.fits_taken h)

theorem paidSum_eq (h : paidObligations env c chainActive nHeight t vtx =
      demanded env c vtx chainActive nHeight) :
    paidSum env c chainActive nHeight t vtx = demandedSum env c chainActive nHeight vtx := by
  unfold paidSum demandedSum
  rw [h]

theorem Covered.paid (h : Covered env c chainActive nHeight t vtx) :
    paidObligations env c chainActive nHeight t vtx = demanded env c vtx chainActive nHeight ∧
      paidRewards env c chainActive nHeight t vtx = demandedRewards env c vtx t.value := by
  have hPaid := paidObligations_eq h.obligations
  refine ⟨hPaid, ?_⟩
  unfold paidRewards
  rw [paidSum_eq hPaid]
  refine Greedy.taken_of_fits ?_ h.rewards
  have hNonneg : 0 ≤ demandedSum env c chainActive nHeight vtx := demandedSum_nonneg
  have hShare : t.minerReward ≤ t.value := minerReward_le_value
  linarith

theorem Covered.accepted (h : Covered env c chainActive nHeight t ({} :: txs))
    (hPayable : DebtsPayable env c chainActive nHeight ({} :: txs)) :
    TemplateAccepted env c chainActive nHeight t txs := by
  obtain ⟨hPaid, hRewarded⟩ := h.paid
  have hRewardSum : paidRewardSum env c chainActive nHeight t ({} :: txs) =
      demandedRewardSum env c t ({} :: txs) := by
    unfold paidRewardSum demandedRewardSum
    rw [hRewarded]
  rw [templateAccepted_iff hPayable, coinbaseOutputs_eq hPayable, hPaid, hRewarded]
  refine ⟨?_, fun w hMem => ?_, fun hPos hFits => ?_⟩
  · refine List.Sublist.subperm (List.Sublist.cons _ ?_)
    rw [append_assoc, append_assoc]
    exact (sublist_append_left _ _).trans (sublist_append_right _ _)
  · refine mem_cons_of_mem _ (mem_append_left _ (mem_append_right _ ?_))
    exact mem_map_of_mem hMem
  · refine mem_cons_of_mem _ (mem_append_right _ ?_)
    have hLeft := h.treasury hPos hFits
    unfold paidTreasury
    rw [paidSum_eq hPaid, hRewardSum, if_pos ⟨hPos, hLeft⟩]
    exact mem_singleton_self _

/-! ## Nothing else passes -/

theorem NoCoincidence.found (h : NoCoincidence env c chainActive nHeight t vtx)
    (hPayable : DebtsPayable env c chainActive nHeight vtx) {out : CTxOut}
    (hOut : out ∈ owedOutputs env c chainActive nHeight vtx)
    (hMem : out ∈ coinbaseOutputs env c chainActive nHeight t vtx) :
    out ∈ (paidObligations env c chainActive nHeight t vtx).map (Owed.output env) ∨
      out ∈ (paidRewards env c chainActive nHeight t vtx).map (OPoIChallengerReward.output env) ∨
      out ∈ paidTreasury env c chainActive nHeight t vtx := by
  obtain ⟨hScript, hPayouts, hFunds⟩ := h.fresh out hOut
  rw [coinbaseOutputs_eq hPayable] at hMem
  simp only [mem_cons, mem_append] at hMem
  rcases hMem with hMiner | ((((hMem | hMem) | hMem) | hMem) | hMem)
  · exact absurd (congrArg CTxOut.scriptPubKey hMiner) hScript
  · exact absurd hMem hPayouts
  · exact absurd hMem hFunds
  · exact .inl hMem
  · exact .inr (.inl hMem)
  · exact .inr (.inr hMem)

theorem CoinbaseTemplate.value_nonneg (t : CoinbaseTemplate) : 0 ≤ t.value := by
  have hSums : ∀ outs : List CTxOut, (∀ out ∈ outs, 0 ≤ out.nValue) →
      0 ≤ (outs.map CTxOut.nValue).sum := fun outs hOuts =>
    sum_nonneg fun x hx => by
      obtain ⟨out, hOut, rfl⟩ := mem_map.mp hx
      exact hOuts out hOut
  exact Int.add_nonneg (Int.add_nonneg ((hSums _ t.payouts_nonneg).trans t.payouts_le)
    (hSums _ t.funds_nonneg)) t.nFees_nonneg

theorem TemplateFits.inRange (h : TemplateFits env c nHeight t vtx)
    (hParams : ParamsFit env.params) (hSound : SoundAmounts c) :
    TemplateInRange env c chainActive nHeight t vtx := by
  have hBudget := env.opoiBudget_nonneg nHeight
  have hValue := t.value_nonneg
  -- an amount that fits beside the value fits beside every total up to it
  have hAdd : ∀ amount : Int, 0 ≤ amount → amount + t.value ≤ maxInt64 →
      ∀ total, 0 ≤ total → total ≤ t.value → InInt64 (total + amount) := by
    intro amount hAmount hFits total hTotal hLe
    exact .of_nonneg (Int.add_nonneg hTotal hAmount) (by linarith)
  refine ⟨h.payments.checks (Int.le_add_of_nonneg_right hValue) h.rewards hParams hSound,
    fun o ho => ?_, fun w hw => ?_, ?_⟩
  · obtain ⟨hAmount, hFits⟩ := h.payments.obligation hSound ho
    exact hAdd _ hAmount (by linarith)
  · have hLe := reward_le hParams hSound hw
    exact hAdd _ (reward_nonneg hParams hSound hw).2
      ((Int.add_le_add_right hLe _).trans h.room)
  · refine hAdd _ (sum_nonneg fun x hx => ?_)
      ((Int.add_le_add_right (sum_treasury_le hParams hSound) _).trans h.room)
    obtain ⟨w, hw, rfl⟩ := mem_map.mp hx
    exact (reward_nonneg hParams hSound hw).1

end Accepted

instance {env : Env} {c : OPoICache} {chainActive : List Uint256} {nHeight : Nat}
    {t : CoinbaseTemplate} {vtx : List CTransaction} :
    Decidable (Covered env c chainActive nHeight t vtx) :=
  decidable_of_iff' _ (covered_iff ..)

instance {env : Env} {c : OPoICache} {chainActive : List Uint256} {nHeight : Nat}
    {t : CoinbaseTemplate} {vtx : List CTransaction} :
    Decidable (NoCoincidence env c chainActive nHeight t vtx) :=
  decidable_of_iff' _ (noCoincidence_iff ..)

instance {env : Env} {c : OPoICache} {nHeight : Nat} {t : CoinbaseTemplate}
    {vtx : List CTransaction} : Decidable (TemplateFits env c nHeight t vtx) :=
  decidable_of_iff' _ (templateFits_iff ..)

end CloudService
