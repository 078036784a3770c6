/-
  The rewards of proven challenges as charges on stake records.
-/

import CloudService.Stakes.Evolution

namespace CloudService

open OPoIStake List

def payout (p : Params) (g : StakeIdentity) : CAmount :=
  (g.amount * p.nOPoIChallengerRewardPct).tdiv 100 + (g.amount * p.nOPoITreasuryRewardPct).tdiv 100

def paysOut (p : Params) (g : StakeIdentity) : Bool :=
  (decide (0 < p.nOPoIChallengerRewardPct) || decide (0 < p.nOPoITreasuryRewardPct)) &&
    (decide (0 < (g.amount * p.nOPoIChallengerRewardPct).tdiv 100) ||
      decide (0 < (g.amount * p.nOPoITreasuryRewardPct).tdiv 100))

section Charges

variable (env : Env) (c : OPoICache)

def chargeOf (r : String) : Option StakeIdentity :=
  if c.isChallengerRewardPaid r then none
  else ((rewardStake c r).map identity).filter (paysOut env.params)

/-- A REVEAL that the cached votes prove: what `GetChallengerRewardsAtHeight` looks for in
    the block. -/
def announced (tx : CTransaction) : Bool :=
  tx.opoiChallengePhase == 1 && (c.mapChallenges[tx.opoiRequestId]?).any (·.isOpen) &&
    isVerifiableRequest c tx.opoiRequestId &&
    c.getAuditorMajorityResult tx.opoiRequestId env.params.nOPoIMinAuditors
      == some AUDITOR_VERIFY_FAIL

def provenCharge (ch : OPoIChallenge) : Option StakeIdentity :=
  if ch.challengeStatus = .slashed then chargeOf env c ch.requestId else none

def announcedCharge (tx : CTransaction) : Option StakeIdentity :=
  if announced env c tx then chargeOf env c tx.opoiRequestId else none

def charges (vtx : List CTransaction) : List StakeIdentity :=
  (getChallengerRewardsAtHeight env c vtx).filterMap fun w =>
    (rewardStake c w.requestId).map identity

end Charges

section Rewards

variable {env : Env} {c c' : OPoICache} {r a : String} {g : StakeIdentity} {vtx : List CTransaction}
  {w : OPoIChallengerReward}

/-! ## One reward -/

theorem tdiv_add_tdiv_le {x y z : Int} (hSum : x + y ≤ z * 100) (hWhole : 0 ≤ z) :
    x.tdiv 100 + y.tdiv 100 ≤ z := by
  have hTrunc : ∀ n : Int, n.tdiv 100 = if 0 ≤ n then n / 100 else -(-n / 100) := by
    intro n
    split
    · rename_i hn
      exact Int.tdiv_eq_ediv_of_nonneg hn
    · have hNeg : 0 ≤ -n := by omega
      rw [← Int.tdiv_eq_ediv_of_nonneg hNeg, Int.neg_tdiv, Int.neg_neg]
  rw [hTrunc x, hTrunc y]
  split
  · split <;> omega
  · split <;> omega

theorem payout_le {p : Params}
    (hPct : p.nOPoIChallengerRewardPct + p.nOPoITreasuryRewardPct ≤ 100) (hAmount : 0 ≤ g.amount) :
    payout p g ≤ g.amount := by
  refine tdiv_add_tdiv_le ?_ hAmount
  rw [← Int.mul_add]
  exact Int.mul_le_mul_of_nonneg_left hPct hAmount

theorem chargeOf_eq_some :
    chargeOf env c r = some g ↔ c.isChallengerRewardPaid r = false ∧
      ∃ s, rewardStake c r = some s ∧ s.identity = g ∧ paysOut env.params g = true := by
  unfold chargeOf
  split
  · rename_i hPaid
    simp [hPaid]
  · rename_i hPaid
    simp only [Option.filter_eq_some_iff, Option.map_eq_some_iff, hPaid, true_and]
    constructor
    · rintro ⟨⟨s, hStake, rfl⟩, hPays⟩
      exact ⟨s, hStake, rfl, hPays⟩
    · rintro ⟨s, hStake, rfl, hPays⟩
      exact ⟨⟨s, hStake, rfl⟩, hPays⟩

theorem chargeOf_evolves (hResponses : c'.mapResponses = c.mapResponses)
    (hPaid : c'.setPaidChallengerRewards = c.setPaidChallengerRewards)
    (hStakes : StakesEvolve c c') (r : String) : chargeOf env c' r = chargeOf env c r := by
  have hResponder : responder c' r = responder c r := by simp only [responder, hResponses]
  have hIdentity : (rewardStake c' r).map identity =
      (rewardStake c r).map identity := by
    unfold rewardStake
    rw [hResponder]
    cases responder c r with
    | none => rfl
    | some m =>
      have hRel := hStakes m
      simp only
      generalize c.mapStakes[m]? = x at hRel
      generalize c'.mapStakes[m]? = y at hRel
      cases hRel with
      | none => rfl
      | some hEvolves => simp [hEvolves.identity]
  unfold chargeOf OPoICache.isChallengerRewardPaid
  rw [hPaid, hIdentity]

theorem tryReward_eq_some (h : tryReward env c r a = some w) :
    w.requestId = r ∧ c.isChallengerRewardPaid r = false ∧ ∃ s, rewardStake c r = some s ∧
      w = ⟨a, (s.amount * env.params.nOPoIChallengerRewardPct).tdiv 100, r,
        (s.amount * env.params.nOPoITreasuryRewardPct).tdiv 100⟩ := by
  unfold tryReward at h
  split at h
  · cases h
  · rename_i hPaid
    split at h
    · cases h
    · rename_i s hStake
      dsimp only at h
      split at h
      · cases h
      · cases h
        exact ⟨rfl, by simpa using hPaid, s, hStake, rfl⟩

theorem tryReward_charge
    (hOn : ¬ (env.params.nOPoIChallengerRewardPct ≤ 0 ∧ env.params.nOPoITreasuryRewardPct ≤ 0)) :
    ((tryReward env c r a).bind fun w => (rewardStake c w.requestId).map identity) =
      chargeOf env c r := by
  unfold tryReward chargeOf
  split
  · rfl
  · cases hStake : rewardStake c r with
    | none => rfl
    | some s =>
      have hEnabled : (decide (0 < env.params.nOPoIChallengerRewardPct) ||
          decide (0 < env.params.nOPoITreasuryRewardPct)) = true := by
        simp only [Bool.or_eq_true, decide_eq_true_eq]
        omega
      simp only [Option.map_some, Option.filter_some, paysOut, hEnabled, Bool.true_and, identity]
      split
      · rename_i hSmall
        rw [if_neg]
        · rfl
        · simpa using hSmall
      · rename_i hLarge
        rw [if_pos]
        · simp [hStake, identity]
        · simp only [Bool.or_eq_true, decide_eq_true_eq]
          rw [← Int.not_le, ← Int.not_le]
          exact Decidable.not_and_iff_or_not.mp hLarge

theorem tryReward_isSome
    (hOn : ¬ (env.params.nOPoIChallengerRewardPct ≤ 0 ∧ env.params.nOPoITreasuryRewardPct ≤ 0)) :
    (tryReward env c r a).isSome = (chargeOf env c r).isSome := by
  rw [← tryReward_charge (a := a) hOn]
  cases hReward : tryReward env c r a with
  | none => rfl
  | some w =>
    obtain ⟨hId, _, s, hStake, _⟩ := tryReward_eq_some hReward
    simp [hId, hStake]

/-! ## The rewards of a block -/

theorem revealReward_eq (tx : CTransaction) :
    revealReward env c tx =
      if announced env c tx then tryReward env c tx.opoiRequestId tx.opoiRequester else none := by
  unfold revealReward announced
  by_cases hPhase : tx.opoiChallengePhase = 1
  · cases hCh : c.mapChallenges[tx.opoiRequestId]? with
    | none => simp [hPhase]
    | some ch => simp [hPhase]
  · simp [hPhase]

theorem revealReward_charge
    (hOn : ¬ (env.params.nOPoIChallengerRewardPct ≤ 0 ∧ env.params.nOPoITreasuryRewardPct ≤ 0))
    (tx : CTransaction) :
    ((revealReward env c tx).bind fun w => (rewardStake c w.requestId).map identity) =
      announcedCharge env c tx := by
  unfold announcedCharge
  rw [revealReward_eq]
  split
  · exact tryReward_charge hOn
  · rfl

theorem chargeOf_of_off
    (hOff : env.params.nOPoIChallengerRewardPct ≤ 0 ∧ env.params.nOPoITreasuryRewardPct ≤ 0)
    (r : String) : chargeOf env c r = none := by
  cases hCharge : chargeOf env c r with
  | none => rfl
  | some g =>
    obtain ⟨_, s, _, _, hPays⟩ := chargeOf_eq_some.mp hCharge
    have hEnabled : ¬ (0 < env.params.nOPoIChallengerRewardPct) ∧
        ¬ (0 < env.params.nOPoITreasuryRewardPct) := by omega
    simp [paysOut, hEnabled] at hPays

theorem charges_eq : charges env c vtx =
    (TreeMap.vals c.mapChallenges).filterMap (provenCharge env c) ++
      (blockTxs vtx .challenge).filterMap (announcedCharge env c) := by
  unfold charges getChallengerRewardsAtHeight
  split
  · -- Rewards are off: no record pays out.
    rename_i hOff
    simp [provenCharge, announcedCharge, chargeOf_of_off hOff]
  · rename_i hOn
    rw [filterMap_append, filterMap_filterMap, filterMap_filterMap]
    congr 1
    · refine filterMap_congr fun ch _ => ?_
      unfold provenCharge
      split
      · exact tryReward_charge hOn
      · rfl
    · exact filterMap_congr fun tx _ => revealReward_charge hOn tx

theorem mem_getChallengerRewardsAtHeight :
    w ∈ getChallengerRewardsAtHeight env c vtx ↔
      ¬(env.params.nOPoIChallengerRewardPct ≤ 0 ∧ env.params.nOPoITreasuryRewardPct ≤ 0) ∧
      ((∃ (r : String) (ch : OPoIChallenge), c.mapChallenges[r]? = some ch ∧
          ch.challengeStatus = .slashed ∧
          tryReward env c ch.requestId ch.challengerAddress = some w) ∨
        ∃ tx ∈ blockTxs vtx .challenge, announced env c tx = true ∧
          tryReward env c tx.opoiRequestId tx.opoiRequester = some w) := by
  unfold getChallengerRewardsAtHeight
  split
  · rename_i hOff
    simp [hOff]
  · rename_i hOn
    simp only [mem_append, mem_filterMap, TreeMap.mem_vals, revealReward_eq,
      Option.ite_none_right_eq_some, hOn, not_false_eq_true, true_and]
    refine or_congr_left ⟨?_, ?_⟩
    · rintro ⟨ch, ⟨r, hCh⟩, hStatus, hReward⟩
      exact ⟨r, ch, hCh, hStatus, hReward⟩
    · rintro ⟨r, ch, hCh, hStatus, hReward⟩
      exact ⟨ch, ⟨r, hCh⟩, hStatus, hReward⟩

theorem tryReward_of_mem (h : w ∈ getChallengerRewardsAtHeight env c vtx) :
    ∃ r a, tryReward env c r a = some w := by
  obtain ⟨_, ⟨_, ch, _, _, hReward⟩ | ⟨tx, _, _, hReward⟩⟩ := mem_getChallengerRewardsAtHeight.mp h
  · exact ⟨_, _, hReward⟩
  · exact ⟨_, _, hReward⟩

theorem sum_rewards_eq (ws : List OPoIChallengerReward)
    (hWs : ∀ w ∈ ws, ∃ r a, tryReward env c r a = some w) :
    ((ws.filter fun w => (rewardStake c w.requestId).any (·.identity == g)).map
        fun w => w.rewardAmount + w.treasuryAmount).sum =
      ((ws.filterMap fun w => (rewardStake c w.requestId).map identity).count g : Int) *
        payout env.params g := by
  induction ws with
  | nil => simp
  | cons w ws ih =>
    have hRest := ih fun w' hMem => hWs w' (mem_cons_of_mem _ hMem)
    obtain ⟨r, a, hReward⟩ := hWs w mem_cons_self
    obtain ⟨rfl, _, s, hStake, hw⟩ := tryReward_eq_some hReward
    have hAmount : w.rewardAmount + w.treasuryAmount = payout env.params s.identity := by
      rw [hw]
      rfl
    rw [filter_cons, filterMap_cons, hStake]
    simp only [Option.any_some, Option.map_some, count_cons]
    by_cases hId : s.identity = g
    · simp only [hId, beq_self_eq_true, if_true, map_cons, sum_cons, hRest, hAmount]
      rw [Int.natCast_add, Int.natCast_one, Int.add_mul, Int.one_mul, Int.add_comm]
    · simp [hId, hRest]

/-! ## The marks -/

theorem processChallengerRewardPayments_eq (env : Env) (c : OPoICache) (vtx : List CTransaction) :
    ∃ paid : StrSet,
    processChallengerRewardPayments env vtx c = { c with setPaidChallengerRewards := paid } ∧
      ∀ r, paid.contains r = true ↔ c.isChallengerRewardPaid r = true ∨
        ∃ w ∈ getChallengerRewardsAtHeight env c vtx, w.requestId = r := by
  have hMarks : ∀ (ws : List OPoIChallengerReward) (c : OPoICache),
      ws.foldl (fun c w => c.markChallengerRewardPaid w.requestId) c =
        { c with
          setPaidChallengerRewards := ws.foldl (fun paid w => paid.insert w.requestId)
            c.setPaidChallengerRewards } := by
    intro ws
    induction ws with
    | nil => exact fun c => rfl
    | cons w ws ih => exact fun c => ih (c.markChallengerRewardPaid w.requestId)
  exact ⟨_, hMarks _ c, fun r => TreeMap.contains_foldl_insert _ _⟩

end Rewards

end CloudService
