/-
  Shards that are resolved but never paid. The payments of a block look at the shards with a
  SHARD_RESULT in the block only.
-/

import CloudService.Shards.Price

namespace CloudService

open OPoICache List

/-- The submissions are enough and the share is positive, on the records of a cache. -/
def enoughFor (env : Env) (terms : OPoICache) (req : OPoIRequest) (i count : Nat) : Bool :=
  decide (terms.getEffectiveShardMinSubmissions env.params req i ≤ count) &&
    (shardShare env terms req i).any (0 < ·)

def shardResolved (env : Env) (c : OPoICache) (r : String) (i : Nat) : Bool :=
  (c.mapRequests[r]?).any fun req => decide (0 < req.payment) &&
    (computeShardMajority (c.listShardResults r i)
      (c.getEffectiveShardMinSubmissions env.params req i)).isSome &&
    (shardShare env c req i).any (0 < ·)

/-- Every shard with a majority and a positive share is marked as paid. -/
def ResolvedShardsPaid (env : Env) (c : OPoICache) : Prop :=
  ∀ r i, shardResolved env c r i = true → c.isShardPaid r i = true

/-- What the ACTIVE stakes are to the shards: their tiers and the experts that they host. -/
def OPoICache.hosting (c : OPoICache) : List (Nat × List Nat) :=
  c.activeStakes.map fun s => (s.tier, s.hostedExpertIds)

/-- No stake starts or ends to be ACTIVE, by a STAKE, RENEW, UNSTAKE, suspension or slash, and the
    manifest of the model is active with the same shape, or not active in both caches. -/
def sameTerms (c c' : OPoICache) (model : String) : Bool :=
  c'.hosting == c.hosting && c'.activeManifest model == c.activeManifest model

section Condition

variable (env : Env) (node : NodeState) (block : CBlock)

/-- An unpaid shard of a request that pays, whose submissions on record and in the block agree by
    a majority, keeps its stakes and its manifest: through the whole block when the block has no
    SHARD_RESULT for it. Otherwise they are kept from the payments of the block on, and what it owes
    for the shard is at least one unit for each miner. -/
def settledInTime (k : String × Nat) : Bool :=
  node.cache.isShardPaid k.1 k.2 || (node.cache.mapRequests[k.1]?).all fun req =>
    decide (req.payment ≤ 0) ||
      (computeShardMajority (submissionsWith node block k) 0).all fun majority =>
        if (touchedShards block.vtx).contains k then
          sameTerms (atPayments env node block) (afterPasses env node block) req.model &&
            (shardShare env (atPayments env node block) req k.2).all
              (0 < perMinerAmount req · majority)
        else sameTerms node.cache (afterPasses env node block) req.model

/-- No stake and no manifest that an open shard depends on changes in the block. -/
def ShardsSettledInTime : Prop :=
  env.params.opoiActive node.nextHeight = true → ∀ k, settledInTime env node block k = true

end Condition

section Block

variable {env : Env} {c c' : OPoICache} {vtx : List CTransaction} {node node' : NodeState}
  {block : CBlock} {r : String} {i : Nat} {req req' : OPoIRequest} {majority : ShardMajority}
  {k : String × Nat}

theorem computeShardMajority_eq_some_iff {subs : List ShardResultSubmission} {least : Int} :
    computeShardMajority subs least = some majority ↔
      least ≤ subs.length ∧ computeShardMajority subs 0 = some majority := by
  rw [computeShardMajority_eq_some, computeShardMajority_eq_some]
  constructor
  · rintro ⟨h, hSplits⟩
    exact ⟨h.enough, ⟨by omega, h.most⟩, hSplits⟩
  · rintro ⟨hEnough, h, hSplits⟩
    exact ⟨⟨hEnough, h.most⟩, hSplits⟩

theorem enoughFor_congr (h : req'.terms = req.terms) (count : Nat) :
    enoughFor env c req' i count = enoughFor env c req i count := by
  obtain ⟨hPayment, _, hModel, _⟩ := eq_of_terms h
  unfold enoughFor getEffectiveShardMinSubmissions shardShare
  rw [hPayment, hModel]

theorem shardResolved_iff (hReq : c.mapRequests[r]? = some req) :
    shardResolved env c r i = true ↔ 0 < req.payment ∧ ∃ majority,
      computeShardMajority (c.listShardResults r i) 0 = some majority ∧
      enoughFor env c req i (c.listShardResults r i).length = true := by
  simp only [shardResolved, enoughFor, hReq, Option.any_some, Bool.and_eq_true, decide_eq_true_eq,
    Option.isSome_iff_exists]
  constructor
  · rintro ⟨⟨hPays, m, hm⟩, hShare⟩
    obtain ⟨hNeed, hm⟩ := computeShardMajority_eq_some_iff.mp hm
    exact ⟨hPays, m, hm, hNeed, hShare⟩
  · rintro ⟨hPays, m, hm, hNeed, hShare⟩
    exact ⟨⟨hPays, m, computeShardMajority_eq_some_iff.mpr ⟨hNeed, hm⟩⟩, hShare⟩

theorem shardResolved_of_nil (h : c.listShardResults r i = []) : shardResolved env c r i =
    false := by
  cases hReq : c.mapRequests[r]? with
  | none => simp [shardResolved, hReq]
  | some req =>
    rw [Bool.eq_false_iff, Ne, shardResolved_iff hReq, h]
    rintro ⟨_, _, hNone, _⟩
    cases hNone

theorem shardDue_iff (hReq : c.mapRequests[k.1]? = some req) (hPays : 0 < req.payment)
    (hMajority : computeShardMajority (mergeShardResults vtx k.1 k.2
      (c.listShardResults k.1 k.2)) 0 = some majority) (terms : OPoICache) :
    shardDue env c vtx terms k.1 k.2 = true ↔
      (enoughFor env terms req k.2
          (mergeShardResults vtx k.1 k.2 (c.listShardResults k.1 k.2)).length &&
        (shardShare env terms req k.2).any (0 < perMinerAmount req · majority)) = true := by
  generalize hSubs : mergeShardResults vtx k.1 k.2 (c.listShardResults k.1 k.2) = subs at hMajority
  simp only [shardDue, hReq, hSubs, enoughFor, decide_eq_true hPays, Bool.true_and]
  by_cases hEnough : terms.getEffectiveShardMinSubmissions env.params req k.2 ≤ subs.length
  · rw [computeShardMajority_eq_some_iff.mpr ⟨hEnough, hMajority⟩]
    cases hShare : shardShare env terms req k.2 with
    | none => simp
    | some share =>
      -- nobody agrees: the amount is a division by zero
      have hSome : 0 < perMinerAmount req share majority → majority.agreeing ≠ [] := by
        intro hPos hNil
        simp [perMinerAmount, hNil] at hPos
      simp only [hEnough, decide_true, Option.any_some, Bool.true_and, Bool.not_eq_true',
        Bool.or_eq_false_iff, decide_eq_false_iff_not, Int.not_le, Bool.and_eq_true,
        decide_eq_true_eq, isEmpty_eq_false_iff]
      exact ⟨fun h => ⟨h.1.2, h.2⟩, fun h => ⟨⟨hSome h.2, h.1⟩, h.2⟩⟩
  · have hNone : computeShardMajority subs
        (terms.getEffectiveShardMinSubmissions env.params req k.2) = none :=
      Option.eq_none_iff_forall_ne_some.mpr fun m hm =>
        hEnough (computeShardMajority_eq_some_iff.mp hm).1
    simp [hNone, hEnough]

theorem submissionsWith_of_untouched (hk : k ∉ touchedShards block.vtx) :
    submissionsWith node block k = node.cache.listShardResults k.1 k.2 := by
  have hNone : (blockTxs block.vtx .shardResult).filter (fun tx =>
      tx.opoiRequestId == k.1 && tx.opoiShardIndex == k.2) = [] := by
    rw [filter_eq_nil_iff]
    intro tx hTx hFor
    rw [Bool.and_eq_true, beq_iff_eq, beq_iff_eq] at hFor
    exact hk (mem_touchedShards.mpr ⟨tx, hTx, Prod.ext hFor.1 hFor.2⟩)
  rw [submissionsWith, mergeShardResults, hNone]
  rfl

theorem listShardResults_afterPasses (hBlock : AcceptedBlock env node block) (k : String × Nat) :
    ((afterPasses env node block).listShardResults
        k.1 k.2).length = (submissionsWith node block k).length ∧
      computeShardMajority ((afterPasses env node block).listShardResults k.1 k.2) 0 =
        computeShardMajority (submissionsWith node block k) 0 := by
  have hSame := (passPreserved_sameAmounts env node.nextHeight
    (afterTxs env node block.vtx)).connectPasses (.refl _) block.vtx
  have hView := listShardResults_view (r := k.1) (i := k.2) hBlock
  have hLength := congrArg List.length hView
  rw [length_map, length_map] at hLength
  unfold listShardResults at hView hLength ⊢
  rw [hSame.submissions]
  exact ⟨hLength, by
    rw [← computeShardMajority_view, hView, computeShardMajority_view]; rfl⟩

theorem shardResolved_after_iff (hBlock : AcceptedBlock env node block)
    (hReq : node.cache.mapRequests[k.1]? = some req) :
    shardResolved env (afterPasses env node block) k.1 k.2 = true ↔
      0 < req.payment ∧ ∃ majority,
        computeShardMajority (submissionsWith node block k) 0 = some majority ∧
        enoughFor env (afterPasses env node block)
          req k.2 (submissionsWith node block k).length = true := by
  obtain ⟨req', hReq', hEvolves⟩ := ((Persists.passPreserved env node.nextHeight
    node.cache).connectPasses hBlock.persists block.vtx).requests k.1 req hReq
  obtain ⟨hLength, hMajority⟩ := listShardResults_afterPasses hBlock k
  rw [shardResolved_iff hReq', hLength, hMajority, enoughFor_congr hEvolves.terms,
    (eq_of_terms hEvolves.terms).1]

theorem minSubmissions_of_sameTerms (env : Env) (i : Nat) (h : sameTerms c c' req.model = true) :
    c'.getEffectiveShardMinSubmissions env.params req i =
        c.getEffectiveShardMinSubmissions env.params req i ∧
      shardShare env c' req i = shardShare env c req i := by
  simp only [sameTerms, Bool.and_eq_true, beq_iff_eq] at h
  obtain ⟨hHosting, hManifest⟩ := h
  have hStakers : c'.countActiveStakers = c.countActiveStakers := by
    have hLength := congrArg List.length hHosting
    simpa [hosting, activeStakes, countActiveStakers, countP_eq_length_filter] using hLength
  have hExperts : ∀ e, c'.countActiveExpertHosts e = c.countActiveExpertHosts e := by
    intro e
    have hCount := congrArg (List.countP fun h : Nat × List Nat => h.2.contains e) hHosting
    simpa [hosting, activeStakes, countActiveExpertHosts,
      countP_map, countP_filter, OPoIStake.hostsExpert, Function.comp_def,
      Bool.and_comm] using hCount
  have hTitan : c'.hasActiveTitanStaker = c.hasActiveTitanStaker := by
    have hAny := congrArg (List.any · fun h : Nat × List Nat => h.1 == OPOI_TIER_TITAN) hHosting
    simpa [hosting, activeStakes, hasActiveTitanStaker,
      any_map, any_filter, Function.comp_def] using hAny
  have hGraph : ∀ m, c'.executionGraph env.params m = c.executionGraph env.params m := by
    intro m
    simp only [executionGraph, shouldCollapseToTitanSingleNode, hTitan]
  unfold getEffectiveShardMinSubmissions shardShare
  simp only [hManifest, hGraph, hStakers, hExperts, and_self]

theorem enoughFor_of_sameTerms (h : sameTerms c c' req.model = true) (count : Nat) :
    enoughFor env c' req i count = enoughFor env c req i count := by
  obtain ⟨hMin, hShare⟩ := minSubmissions_of_sameTerms env i h
  rw [enoughFor, hMin, hShare, enoughFor]

/-- A shard that the block settles is paid at its end when it is resolved there. -/
theorem paid_of_settledInTime (hBlock : AcceptedBlock env node block)
    (hPaid : shardResolved env node.cache k.1 k.2 = true → node.cache.isShardPaid k.1 k.2 = true)
    (hReq : node.cache.mapRequests[k.1]? = some req) (h : settledInTime env node block k = true)
    (hResolved : shardResolved env (afterPasses env node block) k.1 k.2 = true) :
    (afterPasses env node block).isShardPaid k.1 k.2 = true := by
  obtain ⟨hPays, majority, hMajority, hEnough⟩ := (shardResolved_after_iff hBlock hReq).mp hResolved
  cases hUnpaid : node.cache.isShardPaid k.1 k.2 with
  | true =>
    exact ((Persists.passPreserved env node.nextHeight
      node.cache).connectPasses hBlock.persists block.vtx).paidShards _ hUnpaid
  | false =>
    simp only [settledInTime, hUnpaid, hReq, hMajority, Bool.false_or, Option.all_some,
      decide_eq_false (Int.not_le.mpr hPays)] at h
    by_cases hk : k ∈ touchedShards block.vtx
    · -- the terms at the payments are those at the end, so the shard is due
      rw [if_pos (contains_iff_mem.mpr hk), Bool.and_eq_true] at h
      refine (shard_marked_iff hBlock hUnpaid).mpr ⟨k, hk, rfl, hUnpaid, ?_⟩
      refine (shardDue_iff hReq hPays hMajority _).mpr ?_
      rw [enoughFor_of_sameTerms h.1] at hEnough
      refine Bool.and_eq_true_iff.mpr ⟨hEnough, ?_⟩
      cases hShare : shardShare env (atPayments env node block) req k.2 with
      | none => simp [enoughFor, hShare] at hEnough
      | some share => simpa [hShare] using h.2
    · -- the shard was resolved before the block, so it would be paid
      rw [if_neg (mt contains_iff_mem.mp hk)] at h
      rw [enoughFor_of_sameTerms h, submissionsWith_of_untouched hk] at hEnough
      rw [submissionsWith_of_untouched hk] at hMajority
      have hOld := hPaid ((shardResolved_iff hReq).mpr ⟨hPays, majority, hMajority, hEnough⟩)
      rw [hUnpaid] at hOld
      cases hOld

/-! ## Runs -/

/-- What a run keeps: the resolved shards are paid, and results are for known requests only. -/
structure ShardsKept (env : Env) (c : OPoICache) : Prop where
  paid : ResolvedShardsPaid env c
  known : ∀ r i, c.listShardResults r i ≠ [] → ∃ req, c.mapRequests[r]? = some req

theorem ShardsKept.connectTip (h : ShardsKept env node.cache)
    (hTip : connectTip env node block = .ok node') (hSettled : ShardsSettledInTime env node block) :
    ShardsKept env node'.cache := by
  obtain ⟨hBlock, _, hCache⟩ := connectTip_cache hTip
  cases hActive : env.params.opoiActive node.nextHeight with
  | false =>
    rw [hCache, hActive, if_neg Bool.false_ne_true]
    exact h
  | true =>
    rw [hCache, hActive, if_pos rfl]
    have hPersists := (Persists.passPreserved env node.nextHeight
      node.cache).connectPasses hBlock.persists block.vtx
    -- a shard of an unknown request has no results, not even in the block
    have hUnknown : ∀ k : String × Nat, node.cache.mapRequests[k.1]? = none →
        (afterPasses env node block).listShardResults k.1 k.2 = [] := by
      intro k hNone
      have hk : k ∉ touchedShards block.vtx := fun hk => by
        obtain ⟨req, hReq⟩ := request_of_touched hBlock hk
        rw [hNone] at hReq
        cases hReq
      rw [← length_eq_zero_iff, (listShardResults_afterPasses hBlock k).1,
        submissionsWith_of_untouched hk, length_eq_zero_iff]
      by_contra hSome
      obtain ⟨req, hReq⟩ := h.known k.1 k.2 hSome
      rw [hNone] at hReq
      cases hReq
    refine ⟨fun r i hResolved => ?_, fun r i hSome => ?_⟩
    · cases hReq : node.cache.mapRequests[r]? with
      | none =>
        rw [shardResolved_of_nil (hUnknown (r, i) hReq)] at hResolved
        cases hResolved
      | some req =>
        exact paid_of_settledInTime (k := (r, i)) hBlock (h.paid r i) hReq
          (hSettled hActive (r, i)) hResolved
    · cases hReq : node.cache.mapRequests[r]? with
      | none => exact absurd (hUnknown (r, i) hReq) hSome
      | some req =>
        obtain ⟨req', hReq', _⟩ := hPersists.requests r req hReq
        exact ⟨req', hReq'⟩

end Block

end CloudService
