/-
  What the shards of a request are paid: the share of the price by layers, or the whole price
  without an active manifest.
-/

import CloudService.Amounts.Records
import CloudService.Coinbase.Marks
import CloudService.Library.Matching
import CloudService.Library.Ranges
import CloudService.Library.Shares
import Mathlib.Algebra.BigOperators.Ring.Finset

namespace CloudService

open Ranges List

section Terms

variable (env : Env)

def paidShards (r : String) (node : NodeState) (block : CBlock) : List Nat :=
  ((touchedShards block.vtx).filter fun k => k.1 == r &&
    !(shardPaymentsFor env node.cache block.vtx k.1 k.2).isEmpty).map Prod.snd

def shardPayouts (blocks : List CBlock) (r : String) : List (OPoICache × Nat) :=
  (blockTrace env blocks).flatMap fun e =>
    (paidShards env r e.1 e.2).map fun i => (e.1.cache, i)

def baseShare (r : String) (p : OPoICache × Nat) : CAmount :=
  ((p.1.mapRequests[r]?).bind fun req => shardShare env p.1 req p.2).getD 0

/-- The base shares of the paid shards of a request stay within its price. -/
def PriceRespected (blocks : List CBlock) (node : NodeState) (r : String) : Prop :=
  ∀ req, node.cache.mapRequests[r]? = some req →
    ((shardPayouts env blocks r).map (baseShare env r)).sum ≤ req.payment
deriving Decidable

/-- The model has no active manifest, or a titan host takes it as one node. -/
def paysWhole (r : String) (c : OPoICache) : Bool :=
  (c.mapRequests[r]?).any fun req =>
    match c.activeManifest req.model with
    | none => true
    | some m => c.shouldCollapseToTitanSingleNode env.params m

/-- The touched unmarked shards of a request with a majority, before the block. -/
def dueShards (r : String) (node : NodeState) (block : CBlock) : List Nat :=
  ((touchedShards block.vtx).filter fun k => k.1 == r && (!node.cache.isShardPaid k.1 k.2 &&
    shardDue env node.cache block.vtx node.cache k.1 k.2)).map Prod.snd

/-- The due shards of a whole run, each with the cache that it is due on. -/
def shardsDue (blocks : List CBlock) (r : String) : List (OPoICache × Nat) :=
  (blockTrace env blocks).flatMap fun e =>
    (dueShards env r e.1 e.2).map fun i => (e.1.cache, i)

/-- A shard that is due the whole price is the only one of its request that gets due. -/
def PaidAlone (blocks : List CBlock) (r : String) : Prop :=
  ∀ p ∈ shardsDue env blocks r, paysWhole env r p.1 = true → (shardsDue env blocks r).length = 1
deriving Decidable

/-- No product of the price and a weight, for a shard that gets due, leaves the range. -/
def ProductsFit (blocks : List CBlock) (r : String) : Prop :=
  ∀ p ∈ shardsDue env blocks r, ∀ req ∈ p.1.mapRequests[r]?, ∀ m ∈ p.1.activeManifest req.model,
    ∀ d ∈ p.1.executionGraph env.params m, InInt64 (req.payment * shardWeight d)
deriving Decidable

/-- A shard due by its weight before the block is due after its transactions. -/
def SharesStayDue (node : NodeState) (block : CBlock) : Prop :=
  ∀ k ∈ touchedShards block.vtx, node.cache.isShardPaid k.1 k.2 = false →
    paysWhole env k.1 node.cache = false →
    shardDue env node.cache block.vtx node.cache k.1 k.2 = true →
    shardDue env node.cache block.vtx
      (atPayments env node block) k.1 k.2 = true
deriving Decidable

end Terms

section Price

variable {env : Env} {node node' : NodeState} {block : CBlock} {c : OPoICache} {r : String}
  {i : Nat} {blocks : List CBlock} {vtx : List CTransaction} {req : OPoIRequest} {m : ModelManifest}
  {share : CAmount}

/-! ## One shard -/

theorem paidShards_eq_dueShards (env : Env) (r : String) (node : NodeState) (block : CBlock) :
    paidShards env r node block = dueShards env r node block := by
  refine congrArg (List.map Prod.snd) (filter_congr fun k _ => ?_)
  rw [Bool.eq_iff_iff]
  simp [shardPaymentsFor_ne_nil_iff]

theorem shardPayouts_eq_shardsDue (env : Env) (blocks : List CBlock) (r : String) :
    shardPayouts env blocks r = shardsDue env blocks r := by
  simp only [shardPayouts, paidShards_eq_dueShards]
  rfl

theorem mem_paidShards :
    i ∈ paidShards env r node block ↔ (r, i) ∈ touchedShards block.vtx ∧
      node.cache.isShardPaid r i = false ∧
      shardDue env node.cache block.vtx node.cache r i = true := by
  simp only [paidShards_eq_dueShards, dueShards, mem_map, mem_filter, Bool.and_eq_true,
    beq_iff_eq, Bool.not_eq_true']
  constructor
  · rintro ⟨k, ⟨hk, rfl, hPaid⟩, rfl⟩
    exact ⟨hk, hPaid⟩
  · rintro ⟨hk, hPaid⟩
    exact ⟨(r, i), ⟨hk, rfl, hPaid⟩, rfl⟩

theorem nodup_paidShards (env : Env) (r : String) (node : NodeState) (block : CBlock) :
    (paidShards env r node block).Nodup := by
  have hTouched : (touchedShards block.vtx).Nodup := by
    refine List.Pairwise.imp (fun {k k'} hNe hEq => hNe ?_) Std.ExtTreeSet.distinct_toList
    rw [hEq]
    exact Std.ReflCmp.compare_self
  refine List.Nodup.map_on (fun k hk k' hk' hEq => ?_) (hTouched.filter _)
  simp only [mem_filter, Bool.and_eq_true, beq_iff_eq] at hk hk'
  exact Prod.ext (hk.2.1.trans hk'.2.1.symm) hEq

theorem share_of_due (h : shardDue env c vtx c r i = true) :
    ∃ req share, c.mapRequests[r]? = some req ∧ 0 < req.payment ∧
      shardShare env c req i = some share ∧ 0 < share := by
  unfold shardDue at h
  split at h
  · cases h
  · rename_i req hReq
    rw [Bool.and_eq_true, decide_eq_true_eq] at h
    obtain ⟨hPayment, hShare⟩ := h
    split at hShare
    · rename_i majority share _ hSome
      simp only [Bool.not_eq_true', Bool.or_eq_false_iff, decide_eq_false_iff_not,
        Int.not_le] at hShare
      exact ⟨req, share, hReq, hPayment, hSome, hShare.1.2⟩
    · cases hShare

theorem shardShare_of_active (hManifest : c.activeManifest req.model = some m)
    (hShare : shardShare env c req i = some share) :
    ∃ d ∈ c.executionGraph env.params m,
      (c.executionGraph env.params m).reverse.find? (·.shardIndex == i) = some d ∧
      ((c.executionGraph env.params m).map shardWeight).sum ≠ 0 ∧
      share = (mulInt64 req.payment (shardWeight d)).tdiv
        ((c.executionGraph env.params m).map shardWeight).sum := by
  unfold shardShare at hShare
  rw [hManifest] at hShare
  dsimp only at hShare
  split at hShare
  · cases hShare
  · rename_i d hFind
    split at hShare
    · cases hShare
    · rename_i hTotal
      exact ⟨d, mem_reverse.mp (mem_of_find?_eq_some hFind), hFind, hTotal,
        (Option.some.inj hShare).symm⟩

theorem share_eq_payment (hReq : c.mapRequests[r]? = some req) (hWhole : paysWhole env r c = true)
    (hFits : ∀ m ∈ c.activeManifest req.model, ∀ d ∈ c.executionGraph env.params m,
      InInt64 (req.payment * shardWeight d))
    (hShare : shardShare env c req i = some share) : share = req.payment := by
  rw [paysWhole, hReq, Option.any_some] at hWhole
  cases hManifest : c.activeManifest req.model with
  | none =>
    unfold shardShare at hShare
    rw [hManifest] at hShare
    exact (Option.some.inj hShare).symm
  | some m =>
    obtain ⟨d, hd, _, hTotal, rfl⟩ := shardShare_of_active hManifest hShare
    rw [mulInt64, bmod_eq (hFits m hManifest d hd)]
    rw [hManifest] at hWhole
    simp only [OPoICache.executionGraph, hWhole, buildModelExecutionGraph, if_true] at hd hTotal ⊢
    split at hd
    · cases hd
    · rename_i hLayers
      cases mem_singleton.mp hd
      rw [if_neg hLayers] at hTotal ⊢
      rw [map_singleton, sum_singleton] at hTotal ⊢
      exact Int.mul_tdiv_cancel _ (Int.natCast_ne_zero.mpr hTotal)

theorem manifest_of_active {model : String} (h : c.activeManifest model = some m) :
    c.mapModelManifests[model]? = some m := by
  unfold OPoICache.activeManifest at h
  split at h
  · rename_i found hFound
    split at h
    · cases h
      exact hFound
    · cases h
  · cases h

theorem graph_of_weighted (hReq : c.mapRequests[r]? = some req)
    (hWeighted : paysWhole env r c = false) :
    ∃ m, c.mapModelManifests[req.model]? = some m ∧ c.activeManifest req.model = some m ∧
      c.executionGraph env.params m = buildModelExecutionGraph m.spec false := by
  rw [paysWhole, hReq, Option.any_some] at hWeighted
  cases hManifest : c.activeManifest req.model with
  | none =>
    rw [hManifest] at hWeighted
    cases hWeighted
  | some m =>
    rw [hManifest] at hWeighted
    refine ⟨m, manifest_of_active hManifest, rfl, ?_⟩
    simp only at hWeighted
    rw [OPoICache.executionGraph, hWeighted]
    rfl

/-! ## The run -/

theorem payout_cases {ok : NodeState → CBlock → Prop} (hRun : ForwardRun env ok blocks node)
    (hFits : ProductsFit env blocks r) (hReq : node.cache.mapRequests[r]? = some req)
      {p : OPoICache × Nat}
    (hp : p ∈ shardPayouts env blocks r) :
    0 < req.payment ∧ 0 < baseShare env r p ∧
      (paysWhole env r p.1 = true → baseShare env r p = req.payment) ∧
      (paysWhole env r p.1 = false → ∃ m, node.cache.mapModelManifests[req.model]? = some m ∧
        ∃ d ∈ buildModelExecutionGraph m.spec false,
          (buildModelExecutionGraph m.spec false).reverse.find? (·.shardIndex == p.2) = some d ∧
          ((buildModelExecutionGraph m.spec false).map shardWeight).sum ≠ 0 ∧
          baseShare env r p = Shares.share req.payment (shardWeight d)
            ((buildModelExecutionGraph m.spec false).map shardWeight).sum) := by
  have hFits' := hFits p (shardPayouts_eq_shardsDue env blocks r ▸ hp)
  obtain ⟨e, he, hMem⟩ := mem_flatMap.mp hp
  obtain ⟨i, hi, rfl⟩ := mem_map.mp hMem
  obtain ⟨_, _, hDue⟩ := mem_paidShards.mp hi
  obtain ⟨reqAt, share, hReqAt, hPayment, hShare, hPos⟩ := share_of_due hDue
  have hPersists : Persists e.1.cache node.cache :=
    hRun.linked_last (fun s t => Persists s.cache t.cache) Persists.trans
      (fun _ _ _ hTip => persists_of_connectTip hTip) e he
  obtain ⟨_, hSame, hEvolves⟩ := hPersists.requests r reqAt hReqAt
  cases hSame.symm.trans hReq
  obtain ⟨hPrice, _, hModel, _⟩ := eq_of_terms hEvolves.terms
  have hBase : baseShare env r (e.1.cache, i) = share := by
    rw [baseShare, hReqAt, Option.bind_some, hShare, Option.getD_some]
  rw [hBase, hPrice, hModel]
  refine ⟨hPayment, hPos, fun hWhole => share_eq_payment hReqAt hWhole (hFits' reqAt hReqAt) hShare,
    fun hWeighted => ?_⟩
  obtain ⟨m, hm, hActive, hGraph⟩ := graph_of_weighted hReqAt hWeighted
  obtain ⟨m', hm', hSpec⟩ := hPersists.manifests _ m hm
  obtain ⟨d, hd, hFind, hTotal, hEq⟩ := shardShare_of_active hActive hShare
  rw [mulInt64, bmod_eq (hFits' reqAt hReqAt m hActive d hd)] at hEq
  rw [hGraph, ← hSpec] at hd hFind hTotal hEq
  exact ⟨m', hm', d, hd, hFind, hTotal, hEq⟩

theorem request_of_payout {ok : NodeState → CBlock → Prop} (hRun : ForwardRun env ok blocks node)
    {p : OPoICache × Nat} (hp : p ∈ shardPayouts env blocks r) :
    ∃ req, node.cache.mapRequests[r]? = some req := by
  obtain ⟨e, he, hMem⟩ := mem_flatMap.mp hp
  obtain ⟨i, hi, rfl⟩ := mem_map.mp hMem
  obtain ⟨req, _, hReq, _⟩ := share_of_due (mem_paidShards.mp hi).2.2
  have hPersists : Persists e.1.cache node.cache :=
    hRun.linked_last (fun s t => Persists s.cache t.cache) Persists.trans
      (fun _ _ _ hTip => persists_of_connectTip hTip) e he
  obtain ⟨req', hReq', _⟩ := hPersists.requests r req hReq
  exact ⟨req', hReq'⟩

theorem isShardPaid_of_paid (hTip : connectTip env node block = .ok node')
    (hStay : SharesStayDue env node block) (hi : i ∈ paidShards env r node block)
    (hWeighted : paysWhole env r node.cache = false) : node'.cache.isShardPaid r i = true := by
  obtain ⟨hBlock, _, hCache⟩ := connectTip_cache hTip
  obtain ⟨hTouched, hUnpaid, hDue⟩ := mem_paidShards.mp hi
  have hActive : env.params.opoiActive node.nextHeight = true := by
    obtain ⟨tx, hTx, _⟩ := mem_touchedShards.mp hTouched
    rw [blockTxs_eq hBlock, mem_filter, mem_opoiTxs] at hTx
    exact (hBlock.txs tx hTx.1.1).active hTx.1.2
  rw [hCache, if_pos hActive]
  exact (shard_marked_iff hBlock hUnpaid).mpr ⟨(r, i), hTouched, rfl, hUnpaid,
    hStay (r, i) hTouched hUnpaid hWeighted hDue⟩

theorem nodup_payouts (hRun : ForwardRun env (SharesStayDue env) blocks node)
    (hWeighted : ∀ p ∈ shardPayouts env blocks r, paysWhole env r p.1 = false) :
    ((shardPayouts env blocks r).map Prod.snd).Nodup := by
  have hIndices : (shardPayouts env blocks r).map Prod.snd =
      (blockTrace env blocks).flatMap fun e =>
        paidShards env r e.1 e.2 := by
    rw [shardPayouts, map_flatMap]
    refine flatMap_congr fun e _ => ?_
    rw [map_map]
    exact map_id _
  have hSteps : ForwardRun env (fun node block => SharesStayDue env node block ∧
      ∀ i ∈ paidShards env r node block, paysWhole env r node.cache = false) blocks node := by
    refine .of_foldlM hRun.foldlM_eq fun e he => ⟨hRun.of_mem_trace e he, fun i hi => ?_⟩
    exact hWeighted (e.1.cache, i)
      (mem_flatMap.mpr ⟨e, he, mem_map.mpr ⟨i, hi, rfl⟩⟩)
  rw [hIndices, nodup_iff_count_le_one]
  intro i
  refine hSteps.countP_trace_le_one (fun _ => True) (fun node => node.cache.isShardPaid r i = true)
    (fun _ _ _ _ _ _ => trivial) (fun node block _ _ _ _ => ?_)
      (fun node block node' _ hOk hTip hSome => ?_)
    (fun node block node' _ _ hTip hPaid => ?_) (fun node block _ _ _ _ hPaid => ?_) trivial
  · have hOnce := nodup_iff_count_le_one.mp (nodup_paidShards env r node block) i
    rwa [count_eq_countP] at hOnce
  · obtain ⟨j, hj, hEq⟩ := countP_pos_iff.mp hSome
    cases beq_iff_eq.mp hEq
    exact isShardPaid_of_paid hTip hOk.1 hj (hOk.2 _ hj)
  · exact (persists_of_connectTip hTip).paidShards _ hPaid
  · rw [countP_eq_zero]
    intro j hj hEq
    cases beq_iff_eq.mp hEq
    rw [(mem_paidShards.mp hj).2.1] at hPaid
    cases hPaid

theorem weighted_le (hRun : ForwardRun env (SharesStayDue env) blocks node)
    (hFits : ProductsFit env blocks r) (hReq : node.cache.mapRequests[r]? = some req)
    (hWeighted : ∀ p ∈ shardPayouts env blocks r, paysWhole env r p.1 = false)
    {p : OPoICache × Nat} (hp : p ∈ shardPayouts env blocks r) :
    ((shardPayouts env blocks r).map (baseShare env r)).sum ≤ req.payment := by
  obtain ⟨hPayment, _, _, hFirst⟩ := payout_cases hRun hFits hReq hp
  obtain ⟨m, hm, _, _, _, hTotal, _⟩ := hFirst (hWeighted p hp)
  -- The weight of a shard in the graph, by its index.
  let weight : Nat → Int := fun i =>
    (((buildModelExecutionGraph m.spec false).reverse.find? (·.shardIndex == i)).map
      fun d => (shardWeight d : Int)).getD 0
  have hShares : (shardPayouts env blocks r).map (baseShare env r) =
      ((shardPayouts env blocks r).map Prod.snd).map fun i => Shares.share req.payment (weight i)
        ((buildModelExecutionGraph m.spec false).map shardWeight).sum := by
    rw [map_map]
    refine map_congr_left fun q hq => ?_
    obtain ⟨m', hm', d, _, hFind, _, hEq⟩ := (payout_cases hRun hFits hReq hq).2.2.2
      (hWeighted q hq)
    cases hm'.symm.trans hm
    rw [hEq, Function.comp_apply]
    simp [weight, hFind]
  rw [hShares]
  refine Shares.sum_share_le hPayment.le (by omega) (fun i _ => ?_) ?_
  · simp only [weight]
    cases (buildModelExecutionGraph m.spec false).reverse.find? (·.shardIndex == i) with
    | none => exact Int.le_refl 0
    | some d => exact Int.natCast_nonneg _
  · have hTotalSum : (((buildModelExecutionGraph m.spec false).map shardWeight).sum : Int) =
        ((buildModelExecutionGraph m.spec false).map fun d => (shardWeight d : Int)).sum := by
      rw [Nat.cast_list_sum, map_map]
      rfl
    rw [hTotalSum]
    refine Matching.sum_le_of_keys id (·.shardIndex)
      (by rw [map_id]; exact nodup_payouts hRun hWeighted) (fun i _ => ?_)
      fun d _ => Int.natCast_nonneg _
    simp only [weight, id_eq]
    cases hFind : (buildModelExecutionGraph m.spec false).reverse.find? (·.shardIndex == i) with
    | none => exact .inl (Int.le_refl 0)
    | some d =>
      have hKey := find?_some hFind
      exact .inr ⟨d, mem_reverse.mp (mem_of_find?_eq_some hFind), by simpa using hKey,
        Int.le_refl _⟩

end Price

/-- In every run whose blocks mark the shards that they pay by weight, the shards of a request
    whose products fit stay within its price exactly when a shard that is due the whole price is
    the only one. -/
theorem priceRespected_iff_paidAlone (env : Env) (blocks : List CBlock) (node : NodeState)
    (hRun : ForwardRun env (SharesStayDue env) blocks node) (r : String)
    (hFits : ProductsFit env blocks r) :
    PriceRespected env blocks node r ↔ PaidAlone env blocks r := by
  rw [PaidAlone, ← shardPayouts_eq_shardsDue]
  constructor
  · intro hPrice p hp hWhole
    obtain ⟨req, hReq⟩ := request_of_payout hRun hp
    have hBound := hPrice req hReq
    have hBase := (payout_cases hRun hFits hReq hp).2.2.1 hWhole
    have hPos : ∀ q ∈ shardPayouts env blocks r, 0 < baseShare env r q :=
      fun q hq => (payout_cases hRun hFits hReq hq).2.1
    obtain ⟨before, after, hSplit⟩ := append_of_mem hp
    rw [hSplit] at hBound hPos ⊢
    by_contra hLength
    -- Every further payout adds to the whole price.
    have hOthers : 0 < ((before ++ after).map (baseShare env r)).sum := by
      refine sum_pos _ (fun x hx => ?_) fun hNil => hLength ?_
      · obtain ⟨q, hq, rfl⟩ := mem_map.mp hx
        refine hPos q ?_
        simp only [mem_append, mem_cons] at hq ⊢
        tauto
      · have hBoth := map_eq_nil_iff.mp hNil
        rw [append_eq_nil_iff] at hBoth
        rw [hBoth.1, hBoth.2]
        rfl
    simp only [map_append, map_cons, sum_append, sum_cons, hBase] at hBound hOthers
    rw [Int.add_left_comm] at hBound
    exact Int.not_lt.mpr hBound (Int.lt_add_of_pos_right _ hOthers)
  · intro hAlone req hReq
    by_cases hAny : ∃ p ∈ shardPayouts env blocks r, paysWhole env r p.1 = true
    · obtain ⟨p, hp, hWhole⟩ := hAny
      have hBase := (payout_cases hRun hFits hReq hp).2.2.1 hWhole
      obtain ⟨q, hq⟩ := length_eq_one_iff.mp (hAlone p hp hWhole)
      rw [hq] at hp ⊢
      cases mem_singleton.mp hp
      rw [map_singleton, sum_singleton, hBase]
    · have hWeighted : ∀ p ∈ shardPayouts env blocks r, paysWhole env r p.1 = false :=
        fun p hp => Bool.eq_false_iff.mpr fun hWhole => hAny ⟨p, hp, hWhole⟩
      cases hPayouts : shardPayouts env blocks r with
      | nil =>
        have hSound := soundAmounts_of_reachable (reachable_of_forwardRun hRun)
        exact (hSound.requests r req hReq).le
      | cons p ps =>
        rw [← hPayouts]
        exact weighted_le hRun hFits hReq hWeighted (hPayouts ▸ mem_cons_self)

/-- A staker registers a model with some shards, which the votes activate or not, and alice asks
    for a run of it. The blocks after that are given. -/
def sampleShardRun (shards : Nat) (votes : List CTransaction) (blocks : List CBlock) :
    List CBlock := sampleStaked
  [sampleBlock 4 [
     { sampleModelRegister "model" sampleMiner 2 with opoiModelNumDenseShards := shards },
     sampleRequest "r" "alice" 3 0], sampleBlock 5 votes, sampleBlock 6 []] ++ blocks

def sampleTwoResults (paid : CAmount) : CBlock :=
  ⟨7, [sampleCoinbase [(sampleMiner, paid)] 7, sampleShardResult "r" sampleMiner 5 0,
    sampleShardResult "r" sampleMiner 6 1]⟩

def sampleWeighted : List CBlock :=
  sampleShardRun 2 [sampleModelVote "model" sampleMiner 4 1] [sampleTwoResults 4]

theorem priceRespected_of_weighted :
    ∃ node, ForwardRun (sampleEnv (shardParams 1)) (SharesStayDue (sampleEnv (shardParams 1)))
        sampleWeighted node ∧
      (shardPayouts (sampleEnv (shardParams 1)) sampleWeighted "r").map
        (baseShare (sampleEnv (shardParams 1)) "r") = [2, 2] ∧
      PriceRespected (sampleEnv (shardParams 1)) sampleWeighted node "r" := by
  exact Run.exists_steps_imp .other (fun _ => True) (by decide +kernel) fun node hRun _ =>
    ⟨by decide +kernel, (priceRespected_iff_paidAlone _ _ node hRun "r" (by decide +kernel)).mpr
      (by decide +kernel)⟩

def sampleFreeText : List CBlock := sampleShardRun 2 [] [sampleTwoResults 10]

/-- A STAKE in the block that pays the only shard asks for more submissions, so the block does
    not mark the shard, and a later block pays it again. -/
def sampleRaised : List CBlock :=
  sampleShardRun 1 [sampleModelVote "model" sampleMiner 4 1]
    [⟨7, [sampleCoinbase [(sampleMiner, 5)] 7, sampleShardResult "r" sampleMiner 5 0,
       sampleStake "alice" ⟨4002, 1⟩ 6]⟩, sampleBlock 8 [sampleUnstake "alice" 7],
     ⟨9, [sampleCoinbase [(sampleMiner, 5)] 9, sampleShardResult "r" sampleMiner 8 0]⟩]

/-- Two shards without an active manifest get the whole price each, and so does a shard that
    stays unmarked, each time. -/
theorem not_priceRespected_of_freeText :
    (∃ node, PlainRun (sampleEnv (shardParams 1)) sampleFreeText node ∧
      ¬PriceRespected (sampleEnv (shardParams 1)) sampleFreeText node "r") ∧
    ∃ node, PlainRun (sampleEnv (shardParams 2)) sampleRaised node ∧
      PaidAlone (sampleEnv (shardParams 2)) sampleRaised "r" ∧
      ¬PriceRespected (sampleEnv (shardParams 2)) sampleRaised node "r" := by
  exact ⟨Run.exists_steps .other (by decide +kernel), Run.exists_steps .other (by decide +kernel)⟩

end CloudService
