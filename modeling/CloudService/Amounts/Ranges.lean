/-
  The amounts that the checks and passes of a block compute stay in the range of `int64_t`
  when the declared prices, fees, stakes and weights do.
-/

import CloudService.Governance.Windows
import CloudService.Shards.Graph
import CloudService.Shards.Price

namespace CloudService

open Ranges TreeMap OPoIStake List

variable {d : ShardDescriptor} {least : Int} {w : ShardMajority}

/-! ## What is computed -/

/-- A base amount plus the fee for a number of tokens, which is computed when both are positive. -/
def FeeInRange (req : OPoIRequest) (base : CAmount) (tokens : Nat) : Prop :=
  0 < req.feePerToken → 0 < tokens →
    InInt64 (tokens * req.feePerToken) ∧ InInt64 (base + tokens * req.feePerToken)
deriving Decidable

/-- The payments for the responses and the shards of a cache and a block. -/
structure PaymentsInRange (env : Env) (c : OPoICache) (vtx : List CTransaction) : Prop where
  responses : ∀ resp ∈ vals c.mapResponses, c.isResponsePaid resp.requestId = false →
    ∀ req, c.mapRequests[resp.requestId]? = some req → FeeInRange req req.payment resp.tokenCount
  weights : ∀ k ∈ touchedShards vtx, ∀ req, c.mapRequests[k.1]? = some req →
    ∀ m, c.activeManifest req.model = some m →
      ∀ d ∈ c.executionGraph env.params m, InInt64 (req.payment * shardWeight d)
  shards : ∀ k ∈ touchedShards vtx, ∀ req, c.mapRequests[k.1]? = some req →
    ∀ majority share, computeShardMajority (mergeShardResults vtx k.1 k.2
        (c.listShardResults k.1 k.2)) (c.getEffectiveShardMinSubmissions env.params req k.2) =
        some majority → majority.agreeing ≠ [] → shardShare env c req k.2 = some share →
      FeeInRange req share majority.majorityTokenCount

/-- The stake that the reward for a request is taken from, until it is paid. -/
def unpaidStake (c : OPoICache) (r : String) : Option OPoIStake :=
  if c.isChallengerRewardPaid r then none else rewardStake c r

def rewardStakes (c : OPoICache) (vtx : List CTransaction) : List OPoIStake :=
  ((vals c.mapChallenges).filterMap fun ch =>
    if ch.challengeStatus = .slashed then unpaidStake c ch.requestId else none) ++
  (blockTxs vtx .challenge).filterMap fun tx =>
    if tx.opoiChallengePhase = 1 then unpaidStake c tx.opoiRequestId else none

def RewardsInRange (env : Env) (c : OPoICache) (vtx : List CTransaction) : Prop :=
  ∀ s ∈ rewardStakes c vtx, InInt64 (s.amount * env.params.nOPoIChallengerRewardPct) ∧
    InInt64 (s.amount * env.params.nOPoITreasuryRewardPct)

/-- `TotalActiveStake` and `TallyModelVotes`, after each addition. -/
structure TallyInRange (c : OPoICache) : Prop where
  stakes : ∀ before, before <+: (vals c.mapStakes).filter isActive →
    InInt64 (before.map amount).sum
  yes : ∀ id before, before <+: (vals (c.mapModelVotes.getD id ∅)).filter (·.approve) →
    InInt64 (before.map (·.weight)).sum
  no : ∀ id before, before <+: (vals (c.mapModelVotes.getD id ∅)).filter (!·.approve) →
    InInt64 (before.map (·.weight)).sum

/-- The caches in which the payments of a block are marked, one after the other. -/
def markCaches (env : Env) (node : NodeState) (block : CBlock) : List OPoICache :=
  let c := atPayments env node block
  let c' := processShardPayments env block.vtx c
  [c, c', processVerifiableResponsePayments env block.vtx c']

/-- Everything that the two checks of a coinbase compute. -/
structure ChecksInRange (env : Env) (c : OPoICache) (chainActive : List Uint256) (nHeight : Nat)
    (vtx : List CTransaction) : Prop where
  payments : PaymentsInRange env c vtx
  immediate : ∀ tx ∈ blockTxs vtx .response, ∀ req, c.mapRequests[tx.opoiRequestId]? = some req →
    (immediatePayment env c chainActive nHeight tx).isSome = true →
    FeeInRange req req.payment tx.opoiTokenCount
  aggregates : ∀ before, before <+: getShardPaymentsForBlock env c vtx →
    ∀ entry ∈ aggregateShardPayments before, InInt64 entry.2
  totals : ∀ coinbase before o after st,
    obligations env c vtx chainActive nHeight = before ++ o :: after →
    before.foldlM (checkObligation env (env.opoiBudget nHeight)) ⟨coinbase, 0⟩ = .ok st →
    InInt64 (st.totalPaymentsChecked + o.amount)
  rewards : RewardsInRange env c vtx
  treasury : ∀ before, before <+: getChallengerRewardsAtHeight env c vtx →
    InInt64 (before.map (·.treasuryAmount)).sum

/-- Everything that the node computes when it checks and connects a block. -/
structure ArithmeticInRange (env : Env) (node : NodeState) (block : CBlock) : Prop extends
    ChecksInRange env node.cache node.chainActive node.nextHeight block.vtx where
  rewardMarks : RewardsInRange env (afterTxs env node block.vtx) block.vtx
  tally : TallyInRange (atTally env (node, block))
  paymentMarks : ∀ c ∈ markCaches env node block, PaymentsInRange env c block.vtx

/-! ## What has to fit -/

def tokenFee (req : OPoIRequest) (tokens : Nat) : CAmount := tokens * max req.feePerToken 0

/-- The token counts that are announced for a shard, on record and in the block. -/
def shardTokens (c : OPoICache) (vtx : List CTransaction) (k : String × Nat) : List Nat :=
  (c.listShardResults k.1 k.2).map (·.tokenCount) ++
    ((blockTxs vtx .shardResult).filter fun tx =>
      tx.opoiRequestId == k.1 && tx.opoiShardIndex == k.2).map (·.opoiTokenCount)

/-- The price of the request of a shard with the fee for the largest announced count. -/
def shardCost (c : OPoICache) (vtx : List CTransaction) (k : String × Nat) : CAmount :=
  match c.mapRequests[k.1]? with
  | none => 0
  | some req => req.payment + tokenFee req ((shardTokens c vtx k).max?.getD 0)

/-- The prices with their fees fit on top of a budget, also multiplied by the layers of a model. -/
@[mk_iff]
structure PaymentsFit (c : OPoICache) (vtx : List CTransaction) (budget : CAmount) : Prop where
  responses : ∀ resp ∈ vals c.mapResponses, c.isResponsePaid resp.requestId = false →
    ∀ req ∈ c.mapRequests[resp.requestId]?,
      req.payment + tokenFee req resp.tokenCount + budget ≤ maxInt64
  reveals : ∀ tx ∈ blockTxs vtx .response, tx.opoiResponsePhase = 1 →
    ∀ req ∈ c.mapRequests[tx.opoiRequestId]?,
      req.payment + tokenFee req tx.opoiTokenCount + budget ≤ maxInt64
  shards : ((touchedShards vtx).map (shardCost c vtx)).sum + budget ≤ maxInt64
  layers : ∀ k ∈ touchedShards vtx, ∀ req ∈ c.mapRequests[k.1]?,
    ∀ m ∈ c.mapModelManifests[req.model]?, req.payment * (m.numLayers : CAmount) ≤ maxInt64

/-- The stakes that rewards are taken from fit in percents, and together. -/
@[mk_iff]
structure RewardsFit (c : OPoICache) (vtx : List CTransaction) : Prop where
  each : ∀ s ∈ rewardStakes c vtx, s.amount * 100 ≤ maxInt64
  total : ((rewardStakes c vtx).map (·.amount)).sum ≤ maxInt64

/-- All stakes fit together, and so do the votes on a model. -/
@[mk_iff]
structure TallyFit (c : OPoICache) : Prop where
  stakes : ((vals c.mapStakes).map amount).sum ≤ maxInt64
  votes : ∀ votes ∈ vals c.mapModelVotes,
    ((vals votes).map (·.weight)).sum ≤ maxInt64

/-- The amounts on record fit, before the block and after its transactions. -/
@[mk_iff]
structure AmountsFit (env : Env) (node : NodeState) (block : CBlock) : Prop where
  payments : PaymentsFit node.cache block.vtx (env.opoiBudget node.nextHeight)
  rewards : RewardsFit node.cache block.vtx
  paymentsAfter : PaymentsFit (afterTxs env node block.vtx) block.vtx 0
  rewardsAfter : RewardsFit (afterTxs env node block.vtx) block.vtx
  tally : TallyFit (afterTxs env node block.vtx)

/-- The fee parameters fit for every 32-bit number of tokens, and the rewards are percentages. -/
structure ParamsFit (p : Params) : Prop where
  feeBase : 0 ≤ p.nOPoIFeeBase
  feePerToken : 0 ≤ p.nOPoIFeePerToken
  fee : p.nOPoIFeeBase + 4294967295 * p.nOPoIFeePerToken ≤ maxInt64
  challengerPct : 0 ≤ p.nOPoIChallengerRewardPct ∧ p.nOPoIChallengerRewardPct ≤ 100
  treasuryPct : 0 ≤ p.nOPoITreasuryRewardPct ∧ p.nOPoITreasuryRewardPct ≤ 100

instance {c : OPoICache} {vtx : List CTransaction} {budget : CAmount} :
    Decidable (PaymentsFit c vtx budget) :=
  decidable_of_iff' _ (paymentsFit_iff ..)

instance {c : OPoICache} {vtx : List CTransaction} : Decidable (RewardsFit c vtx) :=
  decidable_of_iff' _ (rewardsFit_iff ..)

instance {c : OPoICache} : Decidable (TallyFit c) :=
  decidable_of_iff' _ (tallyFit_iff ..)

instance {env : Env} {node : NodeState} {block : CBlock} : Decidable (AmountsFit env node block) :=
  decidable_of_iff' _ (amountsFit_iff ..)

section Payments

variable {env : Env} {c c' : OPoICache} {vtx : List CTransaction} {req : OPoIRequest}
  {r : String} {i tokens : Nat} {base share budget : CAmount} {m : ModelManifest}

/-! ## Fees -/

theorem tokenFee_nonneg (req : OPoIRequest) (tokens : Nat) : 0 ≤ tokenFee req tokens :=
  Int.mul_nonneg (Int.natCast_nonneg _) (le_max_right _ _)

theorem tokenFee_mono (req : OPoIRequest) {tokens tokens' : Nat} (h : tokens ≤ tokens') :
    tokenFee req tokens ≤ tokenFee req tokens' :=
  Int.mul_le_mul_of_nonneg_right (Int.ofNat_le.mpr h) (le_max_right _ _)

theorem add_tokenFee (req : OPoIRequest) (base : CAmount) (tokens : Nat) :
    (if 0 < req.feePerToken ∧ 0 < tokens then base + tokens * req.feePerToken else base) =
      base + tokenFee req tokens := by
  unfold tokenFee
  by_cases hFee : 0 < req.feePerToken
  · rw [max_eq_left hFee.le]
    cases tokens with
    | zero => simp
    | succ n => rw [if_pos ⟨hFee, n.succ_pos⟩]
  · rw [if_neg fun h => hFee h.1, max_eq_right (Int.not_lt.mp hFee), Int.mul_zero, Int.add_zero]

theorem totalPayment_eq (req : OPoIRequest) (tokens : Nat) :
    totalPayment req tokens = req.payment + tokenFee req tokens :=
  add_tokenFee req req.payment tokens

/-- What the miners of a shard share is at most the exact amount. -/
theorem perMinerAmount_mul_le {majority : ShardMajority} (hShare : 0 ≤ share)
    (hPos : 0 < perMinerAmount req share majority) :
    majority.agreeing.length * perMinerAmount req share majority ≤
      share + tokenFee req majority.majorityTokenCount := by
  have hTotal : (if 0 < req.feePerToken ∧ 0 < majority.majorityTokenCount then
      addInt64 share (mulInt64 majority.majorityTokenCount req.feePerToken) else share) ≤
      share + tokenFee req majority.majorityTokenCount := by
    rw [← add_tokenFee]
    split
    · rename_i hFee
      rw [addInt64, mulInt64, Int.add_bmod_bmod]
      exact bmod_le_self (Int.add_nonneg hShare (Int.mul_nonneg (Int.natCast_nonneg _) hFee.1.le))
    · exact Int.le_refl _
  refine Int.le_trans ?_ hTotal
  unfold perMinerAmount at hPos ⊢
  dsimp only at hPos ⊢
  generalize (if 0 < req.feePerToken ∧ 0 < majority.majorityTokenCount then
    addInt64 share (mulInt64 majority.majorityTokenCount req.feePerToken) else share) =
      total at hPos ⊢
  refine Int.mul_tdiv_self_le (Int.not_lt.mp fun hNeg => ?_)
  have hNonpos := Int.tdiv_nonneg (a := -total) (by omega)
    (Int.natCast_nonneg majority.agreeing.length)
  rw [Int.neg_tdiv] at hNonpos
  exact Int.not_lt.mpr (Int.neg_nonneg.mp hNonpos) hPos

theorem FeeInRange.of_le (hBase : 0 ≤ base) (h : base + tokenFee req tokens ≤ maxInt64) :
    FeeInRange req base tokens := by
  intro hFee _
  have hNonneg := tokenFee_nonneg req tokens
  rw [tokenFee, max_eq_left hFee.le] at h hNonneg
  exact ⟨.of_nonneg hNonneg ((Int.le_add_of_nonneg_left hBase).trans h),
    .of_nonneg (Int.add_nonneg hBase hNonneg) h⟩

/-! ## Shards -/

theorem subU32_le {a b : Nat} (h : b ≤ a) : subU32 a b ≤ a - b := by
  unfold subU32
  omega

theorem splitLayerRanges_le {layers shards : Nat} {range : Nat × Nat}
    (h : range ∈ splitLayerRanges layers shards) :
    range.1 ≤ range.2 ∧ range.2 - range.1 ≤ layers := by
  rw [splitLayerRanges_eq, mem_map] at h
  obtain ⟨k, hk, rfl⟩ := h
  have hPos : 0 < shards := Nat.zero_lt_of_lt (mem_range.mp hk)
  have hDiv := Nat.div_add_mod layers shards
  have hMul : layers / shards ≤ shards * (layers / shards) := Nat.le_mul_of_pos_left _ hPos
  rw [layerCut_succ]
  generalize layers / shards = base at hDiv hMul
  split <;> omega

theorem shardWeight_dense {layers : Nat} (hType : d.shardType = .dense)
    (h : d.layerStart ≤ d.layerEnd ∧ d.layerEnd - d.layerStart ≤ layers) :
    shardWeight d ≤ layers := by
  rw [shardWeight, if_pos hType]
  exact (subU32_le h.1).trans h.2

theorem shardWeight_numberShards {nodes : List ShardDescriptor}
    (h : d ∈ numberShards nodes) : ∃ d' ∈ nodes, shardWeight d = shardWeight d' := by
  rw [numberShards, mem_mapIdx] at h
  obtain ⟨j, hj, rfl⟩ := h
  exact ⟨nodes[j], getElem_mem hj, by simp only [shardWeight]⟩

theorem shardWeight_le {collapse : Bool}
    (hd : d ∈ buildModelExecutionGraph m collapse) : shardWeight d ≤ m.numLayers := by
  unfold buildModelExecutionGraph at hd
  split at hd
  · cases hd
  · rename_i hLayers
    split at hd
    · rw [mem_singleton.mp hd]
      exact shardWeight_dense rfl ⟨Nat.zero_le _, Nat.sub_le _ _⟩
    · dsimp only at hd
      split at hd
      · obtain ⟨d', hd', hWeight⟩ := shardWeight_numberShards hd
        rw [hWeight]
        rcases mem_append.mp hd' with hMap | hExpert
        · obtain ⟨range, hRange, rfl⟩ := mem_map.mp hMap
          exact shardWeight_dense rfl (splitLayerRanges_le hRange)
        · obtain ⟨_, _, hMem⟩ := mem_flatMap.mp hExpert
          obtain ⟨_, _, rfl⟩ := mem_map.mp hMem
          exact Nat.one_le_iff_ne_zero.mpr hLayers
      · obtain ⟨d', hd', hWeight⟩ := shardWeight_numberShards hd
        rw [hWeight]
        obtain ⟨range, hRange, rfl⟩ := mem_map.mp hd'
        exact shardWeight_dense rfl (splitLayerRanges_le hRange)

theorem shardShare_le (hPayment : 0 ≤ req.payment) (h : shardShare env c req i = some share) :
    share ≤ req.payment := by
  cases hManifest : c.activeManifest req.model with
  | none =>
    unfold shardShare at h
    rw [hManifest] at h
    cases h
    exact Int.le_refl _
  | some m =>
    obtain ⟨d, hd, _, hTotal, rfl⟩ := shardShare_of_active hManifest h
    have hLe : (shardWeight d : Int) ≤
        (((c.executionGraph env.params m).map shardWeight).sum : Nat) :=
      Int.ofNat_le.mpr (single_le_sum (fun _ _ => Nat.zero_le _) _ (mem_map_of_mem hd))
    have hPos : (0 : Int) < (((c.executionGraph env.params m).map shardWeight).sum : Nat) :=
      Int.natCast_pos.mpr (Nat.pos_of_ne_zero hTotal)
    refine Int.le_trans (Int.tdiv_le_tdiv hPos (bmod_le_self ?_))
      (Shares.share_le hPayment (Int.natCast_nonneg _) hPos hLe)
    exact Int.mul_nonneg hPayment (Int.natCast_nonneg _)

theorem shardShare_nonneg (hPayment : 0 ≤ req.payment)
    (hFits : ∀ m, c.activeManifest req.model = some m → ∀ d ∈ c.executionGraph env.params m,
      InInt64 (req.payment * shardWeight d)) (h : shardShare env c req i = some share) :
    0 ≤ share := by
  cases hManifest : c.activeManifest req.model with
  | none =>
    unfold shardShare at h
    rw [hManifest] at h
    cases h
    exact hPayment
  | some m =>
    obtain ⟨d, hd, _, _, rfl⟩ := shardShare_of_active hManifest h
    rw [mulInt64, bmod_eq (hFits m hManifest d hd)]
    exact Int.tdiv_nonneg (Int.mul_nonneg hPayment (Int.natCast_nonneg _)) (Int.natCast_nonneg _)

theorem tokens_of_majority {subs : List ShardResultSubmission}
    (h : computeShardMajority subs least = some w) (hSome : w.agreeing ≠ []) :
    ∃ s ∈ subs, s.tokenCount = w.majorityTokenCount := by
  obtain ⟨addr, hAddr⟩ := exists_mem_of_ne_nil _ hSome
  rw [(computeShardMajority_eq_some.mp h).2.agreeing] at hAddr
  obtain ⟨s, hs, _⟩ := mem_map.mp hAddr
  obtain ⟨hMem, hKey⟩ := mem_filter.mp hs
  exact ⟨s, hMem, congrArg Prod.snd (beq_iff_eq.mp hKey)⟩

theorem majorityTokens_le
    (h : computeShardMajority (mergeShardResults vtx r i (c.listShardResults r i)) least = some w)
    (hSome : w.agreeing ≠ []) :
    w.majorityTokenCount ≤ (shardTokens c vtx (r, i)).max?.getD 0 := by
  obtain ⟨s, hs, hTokens⟩ := tokens_of_majority h hSome
  rw [← hTokens]
  refine le_max?_getD_of_mem (mem_append.mpr ?_)
  rcases mem_mergeShardResults hs with hCached | ⟨tx, hTx, rfl⟩
  · exact .inl (mem_map_of_mem hCached)
  · exact .inr (mem_map.mpr ⟨tx, hTx, rfl⟩)

theorem share_add_fee_le (hReq : c.mapRequests[r]? = some req) (hPayment : 0 ≤ req.payment)
    (h : computeShardMajority (mergeShardResults vtx r i (c.listShardResults r i)) least = some w)
    (hSome : w.agreeing ≠ []) (hShare : shardShare env c req i = some share) :
    share + tokenFee req w.majorityTokenCount ≤ shardCost c vtx (r, i) := by
  simp only [shardCost, hReq]
  exact Int.add_le_add (shardShare_le hPayment hShare) (tokenFee_mono req
    (majorityTokens_le h hSome))

theorem shardCost_nonneg (hSound : SoundAmounts c) (k : String × Nat) : 0 ≤ shardCost c vtx k := by
  unfold shardCost
  split
  · exact Int.le_refl 0
  · rename_i req hReq
    exact Int.add_nonneg (hSound.requests _ _ hReq).le (tokenFee_nonneg _ _)

theorem sum_shardPaymentsFor_le (hSound : SoundAmounts c) (r : String) (i : Nat) :
    ((shardPaymentsFor env c vtx r i).map (·.amount)).sum ≤ shardCost c vtx (r, i) := by
  rcases shardPaymentsFor_cases r i with
    hNil | ⟨req, majority, share, hReq, hPayment, hMajority, hShare, hSome, hPos, hMiner, hEq⟩
  · rw [hNil]
    exact shardCost_nonneg hSound (r, i)
  · have hCost := share_add_fee_le hReq hPayment.le hMajority hSome hShare
    rw [hEq, map_map, Function.comp_def, map_const', sum_replicate, nsmul_eq_mul]
    exact (perMinerAmount_mul_le hPos.le hMiner).trans hCost

theorem sum_getShardPaymentsForBlock_le (hSound : SoundAmounts c) :
    ((getShardPaymentsForBlock env c vtx).map (·.amount)).sum ≤
      ((touchedShards vtx).map (shardCost c vtx)).sum := by
  unfold getShardPaymentsForBlock
  induction touchedShards vtx with
  | nil => exact Int.le_refl 0
  | cons k ks ih =>
    rw [flatMap_cons, map_append, sum_append, map_cons, sum_cons]
    exact Int.add_le_add (sum_shardPaymentsFor_le hSound k.1 k.2) ih

theorem aggregate_le {payments : List OPoIShardPayment} {entry : String × CAmount}
    (h : entry ∈ aggregateShardPayments payments) (hPos : ∀ p ∈ payments, 0 < p.amount) :
    entry.2 ≤ (payments.map (·.amount)).sum := by
  -- By induction over the loop, from any intermediate map.
  have hFold : ∀ (payments : List OPoIShardPayment) (aggregated : StrMap CAmount),
      (∀ p ∈ payments, 0 < p.amount) → ∀ miner,
      (payments.foldl (fun (aggregated : StrMap CAmount) p => aggregated.insert p.minerAddress
        (aggregated.getD p.minerAddress 0 + p.amount)) aggregated).getD miner 0 ≤
      aggregated.getD miner 0 + (payments.map (·.amount)).sum := by
    intro payments
    induction payments with
    | nil => intro aggregated _ miner; simp
    | cons p ps ih =>
      intro aggregated hPos miner
      rw [foldl_cons, map_cons, sum_cons, ← Int.add_assoc]
      refine (ih _ (fun q hq => hPos q (mem_cons_of_mem _ hq)) miner).trans ?_
      refine Int.add_le_add_right ?_ _
      rw [getD_insert_eq]
      split
      · rename_i hMiner
        rw [hMiner]
      · exact Int.le_add_of_nonneg_right (hPos p mem_cons_self).le
  have hGet := Std.ExtTreeMap.mem_toList_iff_getElem?_eq_some.mp h
  have hLe := hFold payments ∅ hPos entry.1
  rw [getD_of_get hGet] at hLe
  simpa using hLe

/-! ## The check of the payments -/

theorem PaymentsFit.inRange (h : PaymentsFit c vtx budget) (hBudget : 0 ≤ budget)
    (hSound : SoundAmounts c) : PaymentsInRange env c vtx := by
  have hWeights : ∀ k ∈ touchedShards vtx, ∀ req, c.mapRequests[k.1]? = some req →
      ∀ m, c.activeManifest req.model = some m →
        ∀ d ∈ c.executionGraph env.params m, InInt64 (req.payment * shardWeight d) := by
    intro k hk req hReq m hActive d hd
    have hPayment : 0 ≤ req.payment := (hSound.requests _ _ hReq).le
    refine .of_nonneg (Int.mul_nonneg hPayment (Int.natCast_nonneg _)) ?_
    refine Int.le_trans ?_ (h.layers k hk req hReq m (manifest_of_active hActive))
    exact Int.mul_le_mul_of_nonneg_left (Int.ofNat_le.mpr (shardWeight_le hd)) hPayment
  refine ⟨fun resp hResp hUnpaid req hReq => ?_, hWeights,
    fun k hk req hReq majority share hMajority hSome hShare => ?_⟩
  · exact .of_le (hSound.requests _ _ hReq).le
      ((Int.le_add_of_nonneg_right hBudget).trans (h.responses resp hResp hUnpaid req hReq))
  · have hPayment : 0 ≤ req.payment := (hSound.requests _ _ hReq).le
    refine .of_le (shardShare_nonneg hPayment (hWeights k hk req hReq) hShare) ?_
    have hCost := share_add_fee_le hReq hPayment hMajority hSome hShare
    have hSum : shardCost c vtx k ≤ ((touchedShards vtx).map (shardCost c vtx)).sum := by
      refine single_le_sum (fun x hx => ?_) _ (mem_map_of_mem hk)
      obtain ⟨k', _, rfl⟩ := mem_map.mp hx
      exact shardCost_nonneg hSound k'
    exact hCost.trans (hSum.trans ((Int.le_add_of_nonneg_right hBudget).trans h.shards))

theorem PaymentsFit.obligation (h : PaymentsFit c vtx budget) (hSound : SoundAmounts c)
    {chainActive : List Uint256} {nHeight : Nat} {o : Obligation}
    (ho : o ∈ obligations env c vtx chainActive nHeight) :
    0 ≤ o.amount ∧ o.amount + budget ≤ maxInt64 := by
  have hTotal : ∀ {r : String} {req : OPoIRequest} {tokens : Nat}, c.mapRequests[r]? = some req →
      req.payment + tokenFee req tokens + budget ≤ maxInt64 →
      0 ≤ totalPayment req tokens ∧ totalPayment req tokens + budget ≤ maxInt64 := by
    intro r req tokens hReq hFits
    exact ⟨(totalPayment_pos (hSound.requests r req hReq) tokens).le,
      totalPayment_eq req tokens ▸ hFits⟩
  rw [obligations_eq, mem_map] at ho
  obtain ⟨w, hw, rfl⟩ := ho
  rcases mem_owed.mp hw with ⟨p, hp, rfl⟩ | ⟨entry, hEntry, rfl⟩ | ⟨resp, req, hDue, rfl⟩
  · obtain ⟨tx, hTx, req, hPhase, hReq, _, _, _, rfl⟩ := mem_immediatePayments.mp hp
    exact hTotal hReq (h.reveals tx hTx hPhase req hReq)
  · have hPos : ∀ p ∈ getShardPaymentsForBlock env c vtx, 0 < p.amount :=
      fun p hp => (shardPayment_of_mem hp).1
    refine ⟨(aggregate_of_mem hEntry hPos).1.le, Int.le_trans ?_ h.shards⟩
    exact Int.add_le_add_right
      ((aggregate_le hEntry hPos).trans (sum_getShardPaymentsForBlock_le hSound)) _
  · change 0 ≤ (Owed.recorded req resp).amount ∧ (Owed.recorded req resp).amount + budget ≤ maxInt64
    rw [(Owed.obligation_recorded req resp).2]
    exact hTotal hDue.request
      (h.responses resp (mem_vals.mpr hDue.recorded) hDue.unpaid req hDue.request)

theorem totalPaymentsChecked_le {os : List Obligation} {st st' : PaymentCheck}
    (hAmounts : ∀ o ∈ os, 0 ≤ o.amount)
    (hStart : 0 ≤ st.totalPaymentsChecked ∧ st.totalPaymentsChecked ≤ budget)
    (h : os.foldlM (checkObligation env budget) st = .ok st') :
    0 ≤ st'.totalPaymentsChecked ∧ st'.totalPaymentsChecked ≤ budget := by
  induction os generalizing st with
  | nil =>
    cases h
    exact hStart
  | cons o os ih =>
    rw [foldlM_cons] at h
    cases hStep : checkObligation env budget st o with
    | error e =>
      rw [hStep] at h
      cases h
    | ok next =>
      rw [hStep] at h
      refine ih (fun o' ho' => hAmounts o' (mem_cons_of_mem _ ho')) ?_ h
      unfold checkObligation at hStep
      split at hStep
      · cases hStep
        exact hStart
      · rename_i hWithin
        split at hStep
        · cases hStep
        · split at hStep
          · cases hStep
          · cases hStep
            exact ⟨Int.add_nonneg hStart.1 (hAmounts o mem_cons_self), Int.not_lt.mp hWithin⟩

/-! ## Rewards and votes -/

theorem unpaidStake_pos (hSound : SoundAmounts c) {s : OPoIStake} (h : unpaidStake c r = some s) :
    0 < s.amount := by
  unfold unpaidStake at h
  split at h
  · cases h
  · exact hSound.rewardStake_pos h

theorem rewardStakes_pos (hSound : SoundAmounts c) {s : OPoIStake} (hs : s ∈ rewardStakes c vtx) :
    0 < s.amount := by
  simp only [rewardStakes, mem_append, mem_filterMap, Option.ite_none_right_eq_some] at hs
  rcases hs with ⟨_, _, _, hStake⟩ | ⟨_, _, _, hStake⟩
  · exact unpaidStake_pos hSound hStake
  · exact unpaidStake_pos hSound hStake

theorem inInt64_mul_pct {amount pct : Int} (hAmount : 0 ≤ amount) (hFits : amount * 100 ≤ maxInt64)
    (hPct : 0 ≤ pct ∧ pct ≤ 100) : InInt64 (amount * pct) :=
  .of_nonneg (Int.mul_nonneg hAmount hPct.1)
    ((Int.mul_le_mul_of_nonneg_left hPct.2 hAmount).trans hFits)

theorem RewardsFit.inRange (h : RewardsFit c vtx) (hParams : ParamsFit env.params)
    (hSound : SoundAmounts c) : RewardsInRange env c vtx := fun s hs =>
  have hAmount := (rewardStakes_pos hSound hs).le
  ⟨inInt64_mul_pct hAmount (h.each s hs) hParams.challengerPct,
    inInt64_mul_pct hAmount (h.each s hs) hParams.treasuryPct⟩

theorem tryReward_le (hParams : ParamsFit env.params) (hSound : SoundAmounts c)
    {challenger : String}
    {w : OPoIChallengerReward} (h : tryReward env c r challenger = some w) :
    ∃ s, unpaidStake c r = some s ∧ (0 ≤ w.treasuryAmount ∧ w.treasuryAmount ≤ s.amount) ∧
      0 ≤ w.rewardAmount ∧ w.rewardAmount ≤ s.amount := by
  obtain ⟨_, hUnpaid, s, hStake, rfl⟩ := tryReward_eq_some h
  have hFound : unpaidStake c r = some s := by
    rw [unpaidStake, if_neg (Bool.not_eq_true _ ▸ hUnpaid), hStake]
  have hAmount : 0 ≤ s.amount := (unpaidStake_pos hSound hFound).le
  have hPart : ∀ pct : Int, 0 ≤ pct ∧ pct ≤ 100 →
      0 ≤ (s.amount * pct).tdiv 100 ∧ (s.amount * pct).tdiv 100 ≤ s.amount := fun pct hPct =>
    ⟨Shares.share_nonneg hAmount hPct.1 (by decide),
      Shares.share_le hAmount hPct.1 (by decide) hPct.2⟩
  exact ⟨s, hFound, hPart _ hParams.treasuryPct, hPart _ hParams.challengerPct⟩

/-- A part of each reward, against the stakes that the rewards are taken from. -/
theorem sum_rewards_le (hSound : SoundAmounts c) {part : OPoIChallengerReward → CAmount}
    (hPart : ∀ r challenger w, tryReward env c r challenger = some w →
      ∃ s, unpaidStake c r = some s ∧ part w ≤ s.amount) :
    ((getChallengerRewardsAtHeight env c vtx).map part).sum ≤
      ((rewardStakes c vtx).map (·.amount)).sum := by
  unfold getChallengerRewardsAtHeight
  split
  · refine sum_nonneg fun x hx => ?_
    obtain ⟨s, hs, rfl⟩ := mem_map.mp hx
    exact (rewardStakes_pos hSound hs).le
  · rw [rewardStakes, map_append, sum_append, map_append, sum_append]
    refine Int.add_le_add (sum_filterMap_le (fun ch s hs => ?_) fun ch w hw => ?_)
      (sum_filterMap_le (fun tx s hs => ?_) fun tx w hw => ?_)
    · exact (unpaidStake_pos hSound (Option.ite_none_right_eq_some.mp hs).2).le
    · obtain ⟨hProven, hSome⟩ := Option.ite_none_right_eq_some.mp hw
      rw [if_pos hProven]
      exact hPart _ _ _ hSome
    · exact (unpaidStake_pos hSound (Option.ite_none_right_eq_some.mp hs).2).le
    · rw [revealReward_eq, Option.ite_none_right_eq_some] at hw
      obtain ⟨hAnnounced, hSome⟩ := hw
      simp only [announced, Bool.and_eq_true, beq_iff_eq] at hAnnounced
      rw [if_pos hAnnounced.1.1.1]
      exact hPart _ _ _ hSome

theorem sum_treasury_le (hParams : ParamsFit env.params) (hSound : SoundAmounts c) :
    ((getChallengerRewardsAtHeight env c vtx).map (·.treasuryAmount)).sum ≤
      ((rewardStakes c vtx).map (·.amount)).sum :=
  sum_rewards_le hSound fun _ _ _ h =>
    have ⟨s, hStake, hTreasury, _⟩ := tryReward_le hParams hSound h
    ⟨s, hStake, hTreasury.2⟩

theorem reward_nonneg (hParams : ParamsFit env.params) (hSound : SoundAmounts c)
    {w : OPoIChallengerReward} (hw : w ∈ getChallengerRewardsAtHeight env c vtx) :
    0 ≤ w.treasuryAmount ∧ 0 ≤ w.rewardAmount := by
  obtain ⟨_, _, hSome⟩ := tryReward_of_mem hw
  obtain ⟨_, _, hTreasury, hReward⟩ := tryReward_le hParams hSound hSome
  exact ⟨hTreasury.1, hReward.1⟩

theorem reward_le (hParams : ParamsFit env.params) (hSound : SoundAmounts c)
    {w : OPoIChallengerReward} (hw : w ∈ getChallengerRewardsAtHeight env c vtx) :
    w.rewardAmount ≤ ((rewardStakes c vtx).map (·.amount)).sum := by
  have hSum : ((getChallengerRewardsAtHeight env c vtx).map (·.rewardAmount)).sum ≤
      ((rewardStakes c vtx).map (·.amount)).sum :=
    sum_rewards_le hSound fun _ _ _ h =>
      have ⟨s, hStake, _, hReward⟩ := tryReward_le hParams hSound h
      ⟨s, hStake, hReward.2⟩
  refine Int.le_trans (single_le_sum (fun x hx => ?_) _ (mem_map_of_mem hw)) hSum
  obtain ⟨v, hv, rfl⟩ := mem_map.mp hx
  exact (reward_nonneg hParams hSound hv).2

theorem TallyFit.inRange (h : TallyFit c) (hSound : SoundAmounts c) : TallyInRange c := by
  have hStakes : ∀ s ∈ vals c.mapStakes, 0 ≤ s.amount := by
    intro s hs
    obtain ⟨key, hGet⟩ := mem_vals.mp hs
    exact (hSound.stakes key s hGet).le
  have hVotes : ∀ id, ∀ v ∈ vals (c.mapModelVotes.getD id ∅), 0 ≤ v.weight := by
    intro id v hv
    obtain ⟨voter, hGet⟩ := mem_vals.mp hv
    exact hSound.votes id voter v hGet
  have hSum : ∀ id, ((vals (c.mapModelVotes.getD id ∅)).map (·.weight)).sum ≤ maxInt64 := by
    intro id
    rw [Std.ExtTreeMap.getD_eq_getD_getElem?]
    cases hGet : c.mapModelVotes[id]? with
    | none => decide
    | some votes => exact h.votes votes (mem_vals.mpr ⟨id, hGet⟩)
  refine ⟨fun before hBefore => ?_, fun id before hBefore => ?_, fun id before hBefore => ?_⟩
  · exact inInt64_sum_of_filter hStakes h.stakes hBefore
  · exact inInt64_sum_of_filter (hVotes id) (hSum id) hBefore
  · exact inInt64_sum_of_filter (hVotes id) (hSum id) hBefore

/-! ## The passes -/

theorem tokenFee_of_terms {req₀ : OPoIRequest} (h : req.terms = req₀.terms) (tokens : Nat) :
    tokenFee req tokens = tokenFee req₀ tokens := by
  rw [tokenFee, tokenFee, (eq_of_terms h).2.1]

theorem shardCost_of_same (hSame : SameAmounts c c') (k : String × Nat) :
    shardCost c' vtx k = shardCost c vtx k := by
  have hTokens : shardTokens c' vtx k = shardTokens c vtx k := by
    simp only [shardTokens, OPoICache.listShardResults, hSame.submissions]
  unfold shardCost
  cases hReq : c'.mapRequests[k.1]? with
  | none =>
    have hTerms := hSame.requests k.1
    rw [hReq, Option.map_none] at hTerms
    rw [Option.map_eq_none_iff.mp hTerms.symm]
  | some req =>
    obtain ⟨req₀, hReq₀, hTerms⟩ := hSame.request_before hReq
    simp only [hReq₀, hTokens, tokenFee_of_terms hTerms, (eq_of_terms hTerms).1]

theorem PaymentsFit.of_same (h : PaymentsFit c vtx budget) (hSame : SameAmounts c c') :
    PaymentsFit c' vtx budget where
  responses resp hResp hUnpaid req hReq := by
    obtain ⟨req₀, hReq₀, hTerms⟩ := hSame.request_before hReq
    rw [hSame.responses] at hResp
    have hBefore : c.isResponsePaid resp.requestId = false :=
      Bool.eq_false_iff.mpr fun hPaid => by rw [hSame.paid _ hPaid] at hUnpaid; cases hUnpaid
    rw [tokenFee_of_terms hTerms, (eq_of_terms hTerms).1]
    exact h.responses resp hResp hBefore req₀ hReq₀
  reveals tx hTx hPhase req hReq := by
    obtain ⟨req₀, hReq₀, hTerms⟩ := hSame.request_before hReq
    rw [tokenFee_of_terms hTerms, (eq_of_terms hTerms).1]
    exact h.reveals tx hTx hPhase req₀ hReq₀
  shards := by
    rw [map_congr_left fun k _ => shardCost_of_same hSame k]
    exact h.shards
  layers k hk req hReq m hm := by
    obtain ⟨req₀, hReq₀, hTerms⟩ := hSame.request_before hReq
    obtain ⟨hPayment, _, hModel, _⟩ := eq_of_terms hTerms
    obtain ⟨m₀, hm₀, hSpec⟩ := hSame.manifests _ m hm
    have hLayers : m.spec.numLayers = m₀.spec.numLayers := congrArg ModelManifest.numLayers hSpec
    change m.numLayers = m₀.numLayers at hLayers
    rw [hPayment, hLayers]
    exact h.layers k hk req₀ hReq₀ m₀ (hModel ▸ hm₀)

theorem sum_stakes_le (hSame : StakesEvolve c c') (hSound : SoundAmounts c) :
    ((vals c'.mapStakes).map amount).sum ≤ ((vals c.mapStakes).map amount).sum := by
  unfold vals
  rw [map_map, map_map]
  refine Matching.sum_le_of_keys Prod.fst Prod.fst ?_ (fun entry hEntry => ?_) fun entry
    hEntry => ?_
  · refine pairwise_map.mpr (Std.ExtTreeMap.distinct_keys_toList.imp fun {a b} hNe hEq => hNe ?_)
    rw [hEq]
    exact Std.ReflCmp.compare_self
  · have hGet := Std.ExtTreeMap.mem_toList_iff_getElem?_eq_some.mp hEntry
    obtain ⟨s₀, hOld, hEvolves⟩ := hSame.get_before hGet
    refine .inr ⟨(entry.1, s₀), Std.ExtTreeMap.mem_toList_iff_getElem?_eq_some.mpr hOld, rfl, ?_⟩
    exact (congrArg StakeIdentity.amount hEvolves.identity).le
  · have hGet := Std.ExtTreeMap.mem_toList_iff_getElem?_eq_some.mp hEntry
    exact (hSound.stakes _ _ hGet).le

theorem TallyFit.of_same (h : TallyFit c) (hSound : SoundAmounts c) (hSame : SameAmounts c c') :
    TallyFit c' where
  stakes := (sum_stakes_le hSame.stakes hSound).trans h.stakes
  votes := by
    rw [hSame.votes]
    exact h.votes

theorem sameAmounts_of_mem_markCaches {node : NodeState} {block : CBlock}
    (h : c ∈ markCaches env node block) : SameAmounts (afterTxs env node block.vtx) c := by
  have hPass := passPreserved_sameAmounts env node.nextHeight (afterTxs env node block.vtx)
  have hBefore : SameAmounts (afterTxs env node block.vtx)
      (atPayments env node block) :=
    hPass.earlyPasses (foldlRecOn _ _ (hPass.processChallengerRewardPayments (.refl _) block.vtx)
      fun d hd key _ => hPass.expireChallenge d key hd)
  have hShards : SameAmounts (afterTxs env node block.vtx) (processShardPayments env block.vtx
      (atPayments env node block)) :=
    foldlRecOn _ _ hBefore fun d hd p _ => hPass.shardPaid d p.requestId p.shardIndex hd
  simp only [markCaches, mem_cons, not_mem_nil, or_false] at h
  rcases h with rfl | rfl | rfl
  · exact hBefore
  · exact hShards
  · exact foldlRecOn _ _ hShards fun d hd p _ => hPass.responsePaid d p.requestId hd

/-! ## A block -/

theorem PaymentsFit.checks {chainActive : List Uint256} {nHeight : Nat}
    (h : PaymentsFit c vtx budget) (hBudget : env.opoiBudget nHeight ≤ budget)
    (hRewards : RewardsFit c vtx) (hParams : ParamsFit env.params) (hSound : SoundAmounts c) :
    ChecksInRange env c chainActive nHeight vtx := by
  have hNonneg : 0 ≤ budget := (env.opoiBudget_nonneg _).trans hBudget
  refine ⟨h.inRange hNonneg hSound, fun tx hTx req hReq hSome => ?_,
    fun before hBefore entry hEntry => ?_, fun coinbase before o after st hSplit hFold => ?_,
    hRewards.inRange hParams hSound, fun before hBefore => ?_⟩
  · have hPhase : tx.opoiResponsePhase = 1 := by
      by_contra hOther
      rw [immediatePayment, if_pos hOther] at hSome
      cases hSome
    exact .of_le (hSound.requests _ _ hReq).le
      ((Int.le_add_of_nonneg_right hNonneg).trans (h.reveals tx hTx hPhase req hReq))
  · have hPos : ∀ p ∈ getShardPaymentsForBlock env c vtx, 0 < p.amount :=
      fun p hp => (shardPayment_of_mem hp).1
    have hPosBefore : ∀ p ∈ before, 0 < p.amount := fun p hp => hPos p (hBefore.subset hp)
    refine .of_nonneg (aggregate_of_mem hEntry hPosBefore).1.le ?_
    have hAll : (before.map (·.amount)).sum ≤
        ((getShardPaymentsForBlock env c vtx).map (·.amount)).sum := by
      refine (hBefore.sublist.map _).sum_le_sum fun x hx => ?_
      obtain ⟨p, hp, rfl⟩ := mem_map.mp hx
      exact (hPos p hp).le
    exact (aggregate_le hEntry hPosBefore).trans (hAll.trans
      ((sum_getShardPaymentsForBlock_le hSound).trans
        ((Int.le_add_of_nonneg_right hNonneg).trans h.shards)))
  · have hAmounts : ∀ o' ∈ before ++ o :: after, 0 ≤ o'.amount ∧ o'.amount + budget ≤ maxInt64 :=
      fun o' ho' => h.obligation hSound (hSplit ▸ ho')
    obtain ⟨hTotal, hLe⟩ := totalPaymentsChecked_le
      (fun o' ho' => (hAmounts o' (mem_append_left _ ho')).1)
      ⟨Int.le_refl 0, env.opoiBudget_nonneg _⟩ hFold
    obtain ⟨hAmount, hFits⟩ := hAmounts o (mem_append_right _ mem_cons_self)
    refine .of_nonneg (Int.add_nonneg hTotal hAmount) ?_
    rw [Int.add_comm]
    exact (Int.add_le_add_left (hLe.trans hBudget) _).trans hFits
  · refine inInt64_sum_of_sublist (fun x hx => ?_)
      ((sum_treasury_le hParams hSound).trans hRewards.total) (hBefore.sublist.map _)
    obtain ⟨w, hw, rfl⟩ := mem_map.mp hx
    exact (reward_nonneg hParams hSound hw).1

theorem AmountsFit.inRange {node : NodeState} {block : CBlock} (h : AmountsFit env node block)
    (hParams : ParamsFit env.params) (hSound : SoundAmounts node.cache)
    (hAfter : SoundAmounts (afterTxs env node block.vtx)) : ArithmeticInRange env node block where
  toChecksInRange := h.payments.checks (Int.le_refl _) h.rewards hParams hSound
  rewardMarks := h.rewardsAfter.inRange hParams hAfter
  tally :=
    have hSame : SameAmounts (afterTxs env node block.vtx) (atTally env (node, block)) :=
      (passPreserved_sameAmounts env node.nextHeight _).beforeTally (.refl _)
    (h.tally.of_same hAfter hSame).inRange (hAfter.of_same hSame)
  paymentMarks _ hc :=
    have hSame := sameAmounts_of_mem_markCaches hc
    (h.paymentsAfter.of_same hSame).inRange (Int.le_refl 0) (hAfter.of_same hSame)

theorem ParamsFit.minPayment (h : ParamsFit env.params) {tokens : Nat}
    (hTokens : tokens < 4294967296) :
    InInt64 (tokens * env.params.nOPoIFeePerToken) ∧
      InInt64 (env.params.nOPoIFeeBase + tokens * env.params.nOPoIFeePerToken) := by
  have hNonneg : 0 ≤ (tokens : Int) * env.params.nOPoIFeePerToken :=
    Int.mul_nonneg (Int.natCast_nonneg _) h.feePerToken
  have hLe : env.params.nOPoIFeeBase + (tokens : Int) * env.params.nOPoIFeePerToken ≤ maxInt64 := by
    refine Int.le_trans (Int.add_le_add_left ?_ _) h.fee
    exact Int.mul_le_mul_of_nonneg_right (Int.ofNat_le.mpr (Nat.le_of_lt_succ hTokens))
      h.feePerToken
  exact ⟨.of_nonneg hNonneg ((Int.le_add_of_nonneg_left h.feeBase).trans hLe),
    .of_nonneg (Int.add_nonneg h.feeBase hNonneg) hLe⟩

end Payments

/-- In every node that can be reached, no REQUEST with a 32-bit token count makes the minimum
    price overflow, and no accepted block makes the amounts of its checks and passes overflow,
    when the parameters and the amounts on record fit. -/
theorem arithmeticInRange_of_amountsFit (env : Env) (hParams : ParamsFit env.params)
    (node : NodeState) (hNode : Reachable env node) :
    (∀ tx : CTransaction, tx.opoiPromptTokenCount < 4294967296 →
      InInt64 (tx.opoiPromptTokenCount * env.params.nOPoIFeePerToken) ∧
      InInt64 (env.params.nOPoIFeeBase + tx.opoiPromptTokenCount * env.params.nOPoIFeePerToken)) ∧
    ∀ block, AcceptedBlock env node block → AmountsFit env node block →
      ArithmeticInRange env node block := by
  refine ⟨fun tx hTokens => hParams.minPayment hTokens, fun block hBlock hFits => ?_⟩
  have hSound := soundAmounts_of_reachable hNode
  exact hFits.inRange hParams hSound (hSound.afterTxs hBlock)

/-- Two shards of an active model are paid. -/
theorem arithmeticInRange_of_weighted :
    ∃ node, Reachable (sampleEnv (shardParams 1)) node ∧
      AcceptedBlock (sampleEnv (shardParams 1)) node (sampleTwoResults 4) ∧
      ArithmeticInRange (sampleEnv (shardParams 1)) node (sampleTwoResults 4) := by
  obtain ⟨node, hRun, node', hTip, hFits⟩ : ∃ node,
      PlainRun (sampleEnv (shardParams 1))
        (sampleShardRun 2 [sampleModelVote "model" sampleMiner 4 1] []) node ∧
      ∃ node', connectTip (sampleEnv (shardParams 1)) node (sampleTwoResults 4) = .ok node' ∧
        AmountsFit (sampleEnv (shardParams 1)) node (sampleTwoResults 4) :=
    Run.exists_steps .other (by decide +kernel)
  have hNode := reachable_of_forwardRun hRun
  have hBlock := (connectTip_cache hTip).1
  have hParams : ParamsFit (sampleEnv (shardParams 1)).params :=
    ⟨by decide, by decide, by decide, by decide, by decide⟩
  exact ⟨node, hNode, hBlock,
    (arithmeticInRange_of_amountsFit _ hParams node hNode).2 _ hBlock hFits⟩

/-- A request with a fee of `2^62` for each token, and a commit to a response. -/
def sampleDear : List CBlock := sampleStaked
  [sampleBlock 4 [{ sampleRequest "r" "alice" 2 0 with opoiFeePerToken := 4611686018427387904 }],
   sampleBlock 5 [sampleResponseCommit "r" sampleMiner 3]]

def sampleDearReveal : CTransaction :=
  { sampleResponseReveal "r" sampleMiner 4 with opoiTokenCount := 4 }

/-- The response with four tokens. The coinbase pays 5, what an `int64_t` makes of the price. -/
def sampleDearBlock : CBlock := ⟨6, [sampleCoinbase [(sampleMiner, 5)] 6, sampleDearReveal]⟩

def sampleProposal : List CBlock := sampleStaked
  [sampleBlock 4 [sampleModelRegister "model" sampleMiner 2]]

/-- Two stakes of `2^62` in the block that decides over the model. -/
def sampleRich : CBlock :=
  sampleBlock 5 [{ sampleStake "alice" ⟨4002, 1⟩ 3 with opoiPayment := 4611686018427387904 },
    { sampleStake "bob" ⟨4002, 2⟩ 4 with opoiPayment := 4611686018427387904 }]

/-- The payment for a response leaves the range, and so does the sum of the stakes at a tally. -/
theorem not_arithmeticInRange_of_dear :
    (∃ node node', Reachable sampleNet node ∧ connectTip sampleNet node sampleDearBlock =
      .ok node' ∧ ¬ArithmeticInRange sampleNet node sampleDearBlock) ∧
    ∃ node node', Reachable votingNet node ∧ connectTip votingNet node sampleRich = .ok node' ∧
      ((atTally votingNet (node, sampleRich)).listManifestsDueForTally node.nextHeight).length = 1 ∧
      ¬ArithmeticInRange votingNet node sampleRich := by
  constructor
  · refine ⟨_, _, reachable_of_forwardRun (Run.steps_value .other (by decide +kernel) :
      PlainRun sampleNet sampleDear _), Run.eq_value (by decide +kernel), fun h => ?_⟩
    exact absurd (h.immediate sampleDearReveal (by decide) _ (Run.eq_valueOf (by decide +kernel))
      (by decide +kernel)) (by decide +kernel)
  · refine ⟨_, _, reachable_of_forwardRun (Run.steps_value .other (by decide +kernel) :
      PlainRun votingNet sampleProposal _), Run.eq_value (by decide +kernel),
      by decide +kernel, fun h => ?_⟩
    exact absurd (h.tally.stakes _ prefix_rfl) (by decide +kernel)

end CloudService
