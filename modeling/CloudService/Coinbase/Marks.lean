/-
  Marked as paid means paid. The coinbase is checked against what is due before the block; the
  passes mark what is due after its transactions.
-/

import CloudService.Challenges.Proven
import CloudService.Coinbase.Addresses
import CloudService.Coinbase.Merge
import CloudService.Coinbase.Passes

namespace CloudService

open OPoICache List

/-- The cache that the payments of a block are marked on. -/
abbrev atPayments (env : Env) (node : NodeState) (block : CBlock) : OPoICache :=
  beforePayments env node.nextHeight block.vtx (afterTxs env node block.vtx)

/-- The cache at the end of a block. -/
abbrev afterPasses (env : Env) (node : NodeState) (block : CBlock) : OPoICache :=
  connectPasses env node.nextHeight block.vtx (afterTxs env node block.vtx)

section Due

variable (env : Env) (c : OPoICache) (vtx : List CTransaction) (nHeight : Nat)

/-- The votes approve the recorded response, or the deadline of its audit has passed. -/
def responseDue (r : String) : Bool :=
  match c.mapResponses[r]?, c.mapRequests[r]? with
  | some resp, some req =>
    decide (0 < req.payment) &&
      if req.isVerifiable then mergedMajority env c vtx r == some AUDITOR_VERIFY_PASS
      else resp.auditSelected && auditSampledPayNow env c vtx nHeight resp
  | _, _ => false

/-- The submissions on record and in the block have a majority, on the terms of a cache. -/
def shardDue (terms : OPoICache) (r : String) (i : Nat) : Bool :=
  match c.mapRequests[r]? with
  | none => false
  | some req =>
    decide (0 < req.payment) &&
      match computeShardMajority (mergeShardResults vtx r i (c.listShardResults r i))
          (terms.getEffectiveShardMinSubmissions env.params req i), shardShare env terms req i with
      | some majority, some share =>
        !(majority.agreeing.isEmpty || decide (share ≤ 0) ||
          decide (perMinerAmount req share majority ≤ 0))
      | _, _ => false

/-- The challenge is proven, or a REVEAL of the block announces it, and there is a stake to take
    from. -/
def rewardDue (r : String) : Bool :=
  (isProven c r || (blockTxs vtx .challenge).any fun tx =>
    tx.opoiRequestId == r && announced env c tx) && (chargeOf env c r).isSome

end Due

section Spec

variable {env : Env} {c c' : OPoICache} {vtx : List CTransaction} {nHeight : Nat} {r : String}
  {i : Nat}

theorem response_listed_iff (hKeyed : ResponsesKeyed c) :
    ((∃ p ∈ getVerifiablePaymentsForBlock env c vtx, p.requestId = r) ∨
        ∃ p ∈ getAuditSampledOpenPaymentsForBlock env c vtx nHeight, p.requestId = r) ↔
      c.isResponsePaid r = false ∧ responseDue env c vtx nHeight r = true := by
  have hListed : ∀ {resp req}, RecordDue env c vtx nHeight resp req → resp.requestId = r →
      c.isResponsePaid r = false ∧ responseDue env c vtx nHeight r = true := by
    rintro resp req h rfl
    refine ⟨h.unpaid, ?_⟩
    have hDue := h.due
    cases hKind : req.isVerifiable with
    | true => simpa [responseDue, h.response hKeyed, h.request, h.payment, hKind] using hDue
    | false => simpa [responseDue, h.response hKeyed, h.request, h.payment, hKind] using hDue
  constructor
  · rintro (⟨p, hp, hId⟩ | ⟨p, hp, hId⟩)
    · obtain ⟨resp, req, h, _, rfl⟩ := (mem_getVerifiablePaymentsForBlock nHeight).mp hp
      exact hListed h hId
    · obtain ⟨resp, req, h, _, rfl⟩ := mem_getAuditSampledOpenPaymentsForBlock.mp hp
      exact hListed h hId
  · rintro ⟨hUnpaid, hDue⟩
    unfold responseDue at hDue
    split at hDue
    · rename_i resp req hResp hReq
      obtain rfl := hKeyed r resp hResp
      simp only [Bool.and_eq_true, decide_eq_true_eq] at hDue
      obtain ⟨hPayment, hDue⟩ := hDue
      cases hKind : req.isVerifiable with
      | true =>
        refine .inl ⟨_, (mem_getVerifiablePaymentsForBlock nHeight).mpr
          ⟨resp, req, ⟨⟨_, hResp⟩, hUnpaid, hReq, hPayment, ?_⟩, hKind, rfl⟩, rfl⟩
        simpa [hKind] using hDue
      | false =>
        refine .inr ⟨_, mem_getAuditSampledOpenPaymentsForBlock.mpr
          ⟨resp, req, ⟨⟨_, hResp⟩, hUnpaid, hReq, hPayment, ?_⟩, hKind, rfl⟩, rfl⟩
        simpa [hKind] using hDue
    · cases hDue

theorem responseDue_congr (h : SameRecords c c') :
    responseDue env c' vtx nHeight r = responseDue env c vtx nHeight r := by
  have hMajority : ∀ q, mergedMajority env c' vtx q = mergedMajority env c vtx q := by
    intro q
    unfold mergedMajority getAuditorVerifications
    rw [h.votes]
  have hNow : ∀ resp, auditSampledPayNow env c' vtx nHeight resp =
      auditSampledPayNow env c vtx nHeight resp := by
    intro resp
    unfold auditSampledPayNow
    rw [hMajority]
  have hReq := h.requests r
  unfold responseDue
  rw [h.responses]
  cases c.mapResponses[r]? with
  | none => rfl
  | some resp =>
    cases hOld : c.mapRequests[r]? with
    | none =>
      rw [hOld, Option.map_none, Option.map_eq_none_iff] at hReq
      rw [hReq]
    | some req =>
      rw [hOld, Option.map_some] at hReq
      obtain ⟨req', hNew, hTerms⟩ := Option.map_eq_some_iff.mp hReq
      obtain ⟨hPayment, _, _, hVerifiable⟩ := eq_of_terms hTerms
      simp only [hNew, hPayment, hVerifiable, hMajority, hNow]

theorem shardPaymentsFor_ne_nil_iff :
    shardPaymentsFor env c vtx r i ≠ [] ↔
      c.isShardPaid r i = false ∧ shardDue env c vtx c r i = true := by
  unfold shardPaymentsFor shardDue
  cases c.isShardPaid r i with
  | true => simp
  | false =>
    cases c.mapRequests[r]? with
    | none => simp
    | some req =>
      dsimp only
      cases computeShardMajority (mergeShardResults vtx r i (c.listShardResults r i))
          (c.getEffectiveShardMinSubmissions env.params req i) with
      | none => simp
      | some majority =>
        cases shardShare env c req i with
        | none => simp
        | some share =>
          simp
          tauto

theorem reward_listed_iff (hKeyed : ChallengesKeyed c) :
    (∃ w ∈ getChallengerRewardsAtHeight env c vtx, w.requestId = r) ↔
      rewardDue env c vtx r = true := by
  unfold rewardDue
  simp only [mem_getChallengerRewardsAtHeight, Bool.and_eq_true, Bool.or_eq_true, any_eq_true,
    beq_iff_eq]
  constructor
  · rintro ⟨w, ⟨hOn, hListed⟩, rfl⟩
    have hCharge : ∀ {q a : String}, tryReward env c q a = some w →
        w.requestId = q ∧ (chargeOf env c q).isSome = true := by
      intro q a hReward
      refine ⟨(tryReward_eq_some hReward).1, ?_⟩
      rw [← tryReward_isSome (a := a) hOn, hReward]
      rfl
    rcases hListed with ⟨key, ch, hCh, hStatus, hReward⟩ | ⟨tx, hTx, hAnnounced, hReward⟩
    · obtain ⟨hId, hSome⟩ := hCharge hReward
      rw [hKeyed key ch hCh] at hId hSome
      rw [hId]
      exact ⟨.inl (by simp [isProven, hCh, hStatus]), hSome⟩
    · obtain ⟨hId, hSome⟩ := hCharge hReward
      rw [hId]
      exact ⟨.inr ⟨tx, hTx, rfl, hAnnounced⟩, hSome⟩
  · rintro ⟨hListed, hSome⟩
    have hOn : ¬(env.params.nOPoIChallengerRewardPct ≤ 0 ∧
        env.params.nOPoITreasuryRewardPct ≤ 0) := by
      intro hOff
      rw [chargeOf_of_off hOff] at hSome
      cases hSome
    have hReward : ∀ a, ∃ w, tryReward env c r a = some w ∧ w.requestId = r := by
      intro a
      rw [← tryReward_isSome (a := a) hOn] at hSome
      obtain ⟨w, hw⟩ := Option.isSome_iff_exists.mp hSome
      exact ⟨w, hw, (tryReward_eq_some hw).1⟩
    rcases hListed with hProven | ⟨tx, hTx, hId, hAnnounced⟩
    · rw [isProven, Option.any_eq_true] at hProven
      obtain ⟨ch, hCh, hStatus⟩ := hProven
      obtain ⟨w, hw, hId⟩ := hReward ch.challengerAddress
      refine ⟨w, ⟨hOn, .inl ⟨r, ch, hCh, by simpa using hStatus, ?_⟩⟩, hId⟩
      rwa [hKeyed r ch hCh]
    · obtain ⟨w, hw, hRequest⟩ := hReward tx.opoiRequester
      exact ⟨w, ⟨hOn, .inr ⟨tx, hTx, hAnnounced, by rwa [hId]⟩⟩, hRequest⟩

theorem mem_keys_of_rewardDue (h : rewardDue env c vtx r = true) : r ∈ c.mapChallenges.keys := by
  rw [Std.ExtTreeMap.mem_keys, ← Std.ExtTreeMap.contains_iff_mem,
    Std.ExtTreeMap.contains_eq_isSome_getElem?]
  simp only [rewardDue, isProven, announced, Bool.and_eq_true, Bool.or_eq_true,
    any_eq_true, beq_iff_eq, Option.any_eq_true] at h
  obtain ⟨⟨ch, hCh, _⟩ | ⟨tx, _, hId, ⟨⟨_, ch, hCh, _⟩, _⟩, _⟩, _⟩ := h
  · rw [hCh]
    rfl
  · rw [← hId, hCh]
    rfl

theorem unpaid_of_rewardDue (h : rewardDue env c vtx r = true) :
    c.isChallengerRewardPaid r = false := by
  unfold rewardDue at h
  rw [Bool.and_eq_true, Option.isSome_iff_exists] at h
  obtain ⟨_, g, hCharge⟩ := h
  exact (chargeOf_eq_some.mp hCharge).1

theorem reward_of_listed (hKeyed : ChallengesKeyed c)
    (hTxs : ∀ tx ∈ blockTxs vtx .challenge, tx.opoiChallengePhase = 1 →
      ∃ ch, c.mapChallenges[tx.opoiRequestId]? = some ch ∧ ch.challengerAddress = tx.opoiRequester)
    {w : OPoIChallengerReward} (h : w ∈ getChallengerRewardsAtHeight env c vtx) :
    ∃ ch, c.mapChallenges[w.requestId]? = some ch ∧
      tryReward env c w.requestId ch.challengerAddress = some w := by
  obtain ⟨_, ⟨key, ch, hCh, _, hReward⟩ | ⟨tx, hTx, hAnnounced, hReward⟩⟩ :=
    mem_getChallengerRewardsAtHeight.mp h
  · have hId : w.requestId = key := (tryReward_eq_some hReward).1.trans (hKeyed key ch hCh)
    rw [hKeyed key ch hCh] at hReward
    exact ⟨ch, by rw [hId]; exact hCh, by rw [hId]; exact hReward⟩
  · have hPhase : tx.opoiChallengePhase = 1 := by
      unfold announced at hAnnounced
      simp only [Bool.and_eq_true, beq_iff_eq] at hAnnounced
      exact hAnnounced.1.1.1
    obtain ⟨ch, hCh, hAddress⟩ := hTxs tx hTx hPhase
    rw [(tryReward_eq_some hReward).1]
    exact ⟨ch, hCh, by rw [hAddress]; exact hReward⟩

end Spec

/-! ## What an obligation stands for -/

theorem RecordsPayable.challengesKeyed {env : Env} {c : OPoICache} (h : RecordsPayable env c) :
    ChallengesKeyed c := fun r ch hCh => (h.challenges r ch hCh).1

namespace Owed

def shardPayee : Owed → Option String
  | .shards miner _ => some miner
  | .response _ | .verifiable _ | .auditSample _ => none

def answered : Owed → Option String
  | .verifiable p | .auditSample p => some p.requestId
  | .response _ | .shards _ _ => none

@[simp] theorem shardPayee_recorded (req : OPoIRequest) (resp : OPoIResponse) :
    (recorded req resp).shardPayee = none ∧ (recorded req resp).answered = some resp.requestId := by
  unfold recorded
  split <;> exact ⟨rfl, rfl⟩

end Owed

section Owed

variable {env : Env} {c : OPoICache} {vtx : List CTransaction} {chainActive : List Uint256}
  {nHeight : Nat} {r : String} {w w' : Owed}

theorem shardPayee_of_owed {miner : String} (hw : w ∈ owed env c vtx chainActive nHeight)
    (hPayee : w.shardPayee = some miner) :
    ∃ sum, w = .shards miner sum ∧
      (miner, sum) ∈ aggregateShardPayments (getShardPaymentsForBlock env c vtx) := by
  rcases mem_owed.mp hw with ⟨p, _, rfl⟩ | ⟨⟨m, sum⟩, hp, rfl⟩ | ⟨resp, req, _, rfl⟩
  · cases hPayee
  · cases hPayee
    exact ⟨sum, rfl, hp⟩
  · simp at hPayee

theorem mem_aggregateShardPayments {ps : List OPoIShardPayment} {miner : String} :
    (∃ p ∈ ps, p.minerAddress = miner) → ∃ sum, (miner, sum) ∈ aggregateShardPayments ps := by
  have hFold : ∀ aggregated : StrMap CAmount,
      (aggregated.contains miner = true ∨ ∃ p ∈ ps, p.minerAddress = miner) →
      (ps.foldl (fun (aggregated : StrMap CAmount) p => aggregated.insert p.minerAddress
        (aggregated.getD p.minerAddress 0 + p.amount)) aggregated).contains miner = true := by
    induction ps with
    | nil => simp
    | cons p ps ih =>
      intro aggregated h
      refine ih _ ?_
      simp only [exists_mem_cons_iff] at h
      simp only [Std.ExtTreeMap.contains_insert, Bool.or_eq_true, beq_iff_eq, Std.compare_eq_iff_eq]
      tauto
  intro h
  have hSome := hFold ∅ (.inr h)
  rw [Std.ExtTreeMap.contains_eq_isSome_getElem?, Option.isSome_iff_exists] at hSome
  obtain ⟨sum, hSum⟩ := hSome
  exact ⟨sum, Std.ExtTreeMap.mem_toList_iff_getElem?_eq_some.mpr hSum⟩

theorem shardPayee_unique {miner : String} (hw : w ∈ owed env c vtx chainActive nHeight)
    (hw' : w' ∈ owed env c vtx chainActive nHeight) (hPayee : w.shardPayee = some miner)
    (hPayee' : w'.shardPayee = some miner) : w = w' := by
  obtain ⟨sum, rfl, hSum⟩ := shardPayee_of_owed hw hPayee
  obtain ⟨sum', rfl, hSum'⟩ := shardPayee_of_owed hw' hPayee'
  have hEq := Std.ExtTreeMap.mem_toList_iff_getElem?_eq_some.mp hSum
  rw [Std.ExtTreeMap.mem_toList_iff_getElem?_eq_some.mp hSum'] at hEq
  rw [Option.some.inj hEq]

theorem answered_of_owed (hw : w ∈ owed env c vtx chainActive nHeight)
    (hAnswered : w.answered = some r) :
    ∃ resp req, RecordDue env c vtx nHeight resp req ∧ resp.requestId = r ∧
      w = .recorded req resp := by
  rcases mem_owed.mp hw with ⟨p, _, rfl⟩ | ⟨p, _, rfl⟩ | ⟨resp, req, h, rfl⟩
  · cases hAnswered
  · cases hAnswered
  · exact ⟨resp, req, h, by simpa using hAnswered, rfl⟩

theorem answered_unique (hKeyed : ResponsesKeyed c) (hw : w ∈ owed env c vtx chainActive nHeight)
    (hw' : w' ∈ owed env c vtx chainActive nHeight) (hAnswered : w.answered = some r)
    (hAnswered' : w'.answered = some r) : w = w' := by
  obtain ⟨resp, req, h, rfl, rfl⟩ := answered_of_owed hw hAnswered
  obtain ⟨resp', req', h', hId, rfl⟩ := answered_of_owed hw' hAnswered'
  have hResp := h'.response hKeyed
  have hReq := h'.request
  rw [hId, h.response hKeyed] at hResp
  rw [hId, h.request] at hReq
  cases hResp
  cases hReq
  rfl

theorem listed_of_owed (hw : w ∈ owed env c vtx chainActive nHeight)
    (hAnswered : w.answered = some r) :
    (∃ p ∈ getVerifiablePaymentsForBlock env c vtx, p.requestId = r) ∨
      ∃ p ∈ getAuditSampledOpenPaymentsForBlock env c vtx nHeight, p.requestId = r := by
  obtain ⟨resp, req, h, hId, _⟩ := answered_of_owed hw hAnswered
  cases hKind : req.isVerifiable with
  | true => exact .inl ⟨_, (mem_getVerifiablePaymentsForBlock _).mpr ⟨resp, req, h, hKind, rfl⟩,
      hId⟩
  | false => exact .inr ⟨_, mem_getAuditSampledOpenPaymentsForBlock.mpr ⟨resp, req, h, hKind, rfl⟩,
      hId⟩

theorem owed_of_listed (h : (∃ p ∈ getVerifiablePaymentsForBlock env c vtx, p.requestId = r) ∨
      ∃ p ∈ getAuditSampledOpenPaymentsForBlock env c vtx nHeight, p.requestId = r) :
    ∃ w ∈ owed env c vtx chainActive nHeight, w.answered = some r := by
  simp only [owed, mem_append, mem_map]
  rcases h with ⟨p, hp, hId⟩ | ⟨p, hp, hId⟩
  · exact ⟨.verifiable p, .inl (.inr ⟨p, hp, rfl⟩), by rw [Owed.answered, hId]⟩
  · exact ⟨.auditSample p, .inr ⟨p, hp, rfl⟩, by rw [Owed.answered, hId]⟩

end Owed

/-! ## The shards of a block -/

instance : Std.LawfulEqCmp touchedCmp where
  eq_of_compare {a b} h := by
    simp only [touchedCmp, compareLex, compareOn, Ordering.then_eq_eq, Std.compare_eq_iff_eq] at h
    exact Prod.ext h.1 h.2

section Shards

variable {env : Env} {c : OPoICache} {vtx : List CTransaction} {node : NodeState} {block : CBlock}

theorem mem_touchedShards {k : String × Nat} :
    k ∈ touchedShards vtx ↔
      ∃ tx ∈ blockTxs vtx .shardResult, (tx.opoiRequestId, tx.opoiShardIndex) = k := by
  unfold touchedShards
  rw [Std.ExtTreeSet.mem_toList, ← Std.ExtTreeSet.contains_iff_mem, TreeMap.contains_foldl_insert]
  simp

theorem id_of_shardPayment {r : String} {i : Nat} {p : OPoIShardPayment}
    (h : p ∈ shardPaymentsFor env c vtx r i) : p.requestId = r ∧ p.shardIndex = i := by
  rcases shardPaymentsFor_cases r i with hNil | ⟨_, _, _, _, _, _, _, _, _, _, hEq⟩
  · rw [hNil] at h
    cases h
  · rw [hEq] at h
    obtain ⟨_, _, rfl⟩ := mem_map.mp h
    exact ⟨rfl, rfl⟩

theorem shardPayments_of_key {k : String × Nat} (hk : k ∈ touchedShards vtx)
    {p : OPoIShardPayment} :
    p ∈ getShardPaymentsForBlock env c vtx ∧
        shardKey p.requestId p.shardIndex = shardKey k.1 k.2 ↔
      p ∈ shardPaymentsFor env c vtx k.1 k.2 := by
  constructor
  · rintro ⟨hp, hKey⟩
    obtain ⟨k', _, hFor⟩ := mem_flatMap.mp hp
    obtain ⟨hId, hIndex⟩ := shardKey_inj hKey
    rwa [← (id_of_shardPayment hFor).1, ← (id_of_shardPayment hFor).2, hId, hIndex] at hFor
  · intro hFor
    obtain ⟨hId, hIndex⟩ := id_of_shardPayment hFor
    exact ⟨mem_flatMap.mpr ⟨k, hk, hFor⟩, by rw [hId, hIndex]⟩

theorem shard_listed_iff {key : String} :
    (∃ p ∈ getShardPaymentsForBlock env c vtx, shardKey p.requestId p.shardIndex = key) ↔
      ∃ k ∈ touchedShards vtx, shardKey k.1 k.2 = key ∧
        c.isShardPaid k.1 k.2 = false ∧ shardDue env c vtx c k.1 k.2 = true := by
  constructor
  · rintro ⟨p, hp, rfl⟩
    obtain ⟨k, hk, hFor⟩ := mem_flatMap.mp hp
    obtain ⟨hId, hIndex⟩ := id_of_shardPayment hFor
    exact ⟨k, hk, by rw [hId, hIndex],
      shardPaymentsFor_ne_nil_iff.mp (ne_nil_of_mem hFor)⟩
  · rintro ⟨k, hk, rfl, hDue⟩
    obtain ⟨p, hFor⟩ := exists_mem_of_ne_nil _ (shardPaymentsFor_ne_nil_iff.mpr hDue)
    exact ⟨p, (shardPayments_of_key hk).mpr hFor⟩

theorem request_of_touched (hBlock : AcceptedBlock env node block) {k : String × Nat}
    (hk : k ∈ touchedShards block.vtx) : ∃ req, node.cache.mapRequests[k.1]? = some req := by
  obtain ⟨tx, hTx, rfl⟩ := mem_touchedShards.mp hk
  rw [blockTxs_eq hBlock, mem_filter, mem_opoiTxs, beq_iff_eq] at hTx
  obtain ⟨⟨hMem, hOPoI⟩, hType⟩ := hTx
  have hBranch := checkOPoITransaction_branch (hBlock.txs tx hMem).checked hOPoI
  simp only [hType, checkShardResult, check_bind_eq_ok, rejectIf_eq_ok, Bool.not_false,
    Bool.true_and] at hBranch
  obtain ⟨_, _, _, _, hKnown, _⟩ := hBranch
  exact Option.isSome_iff_exists.mp (by simpa [Option.isSome_iff_ne_none] using hKnown)

theorem shardDue_beforePayments (hBlock : AcceptedBlock env node block) (terms : OPoICache)
    {k : String × Nat} (hk : k ∈ touchedShards block.vtx) :
    shardDue env (atPayments env node block)
        block.vtx terms k.1 k.2 = shardDue env node.cache block.vtx terms k.1 k.2 := by
  have hSame := sameRecords_beforePayments env node.nextHeight block.vtx
    (afterTxs env node block.vtx)
  obtain ⟨req, hReq⟩ := request_of_touched hBlock hk
  obtain ⟨req₁, hReq₁, hEvolves⟩ := hBlock.persists.requests k.1 req hReq
  have hTerms₂ := hSame.requests k.1
  rw [hReq₁, Option.map_some] at hTerms₂
  obtain ⟨req₂, hReq₂, hTerms₂⟩ := Option.map_eq_some_iff.mp hTerms₂
  obtain ⟨hPayment, hFee, hModel, _⟩ := eq_of_terms (hTerms₂.trans hEvolves.terms)
  unfold shardDue shardShare getEffectiveShardMinSubmissions perMinerAmount
  simp only [hReq, hReq₂, hSame.listShardResults, hPayment, hFee, hModel,
    computeShardMajority_afterTxs hBlock]

end Shards

section PaidMeansPaid

variable (env : Env) (node : NodeState) (block : CBlock)

def CBlock.coinbaseOutputs (block : CBlock) : List CTxOut := (block.vtx.headD {}).vout

def demandedBy : List Owed :=
  demanded env node.cache block.vtx node.chainActive node.nextHeight

def rewardsDemandedBy : List OPoIChallengerReward :=
  demandedRewards env node.cache block.vtx (block.vtx.headD {}).getValueOut

/-- What a block marks as paid is demanded of its coinbase and found there. -/
structure PaidMeansPaid (node' : NodeState) : Prop where
  shards : ∀ key, node'.cache.setPaidShards.contains key = true →
    node.cache.setPaidShards.contains key = false →
    (∃ p ∈ getShardPaymentsForBlock env node.cache block.vtx,
      shardKey p.requestId p.shardIndex = key) ∧
    ∀ p ∈ getShardPaymentsForBlock env node.cache block.vtx,
      shardKey p.requestId p.shardIndex = key →
      ∃ w ∈ demandedBy env node block, w.shardPayee = some p.minerAddress ∧
        w.output env ∈ block.coinbaseOutputs
  responses : ∀ r, node'.cache.isResponsePaid r = true → node.cache.isResponsePaid r = false →
    ∃ w ∈ demandedBy env node block, w.answered = some r ∧ w.output env ∈ block.coinbaseOutputs
  rewards : ∀ r, node'.cache.isChallengerRewardPaid r = true →
    node.cache.isChallengerRewardPaid r = false →
    ∃ w ∈ rewardsDemandedBy env node block, w.requestId = r ∧
      w.output env ∈ block.coinbaseOutputs

/-- The budget has room for the debt, beside the demanded ones before it in the list. -/
abbrev WithinBudget (w : Owed) : Prop :=
  Greedy.Within Owed.amount (env.opoiBudget node.nextHeight) 0
    (owed env node.cache block.vtx node.chainActive node.nextHeight) w

/-- The value of the coinbase has room for the reward, beside the demanded ones before it. -/
abbrev WithinValue (w : OPoIChallengerReward) : Prop :=
  Greedy.Within (·.rewardAmount) (block.vtx.headD {}).getValueOut 0
    (getChallengerRewardsAtHeight env node.cache block.vtx) w

/-- Shards due after the transactions are due before, and within the budget. -/
def ShardsDueBefore : Prop :=
  ∀ k ∈ touchedShards block.vtx, node.cache.isShardPaid k.1 k.2 = false →
    shardDue env node.cache block.vtx
      (atPayments env node block) k.1 k.2 = true →
    shardDue env node.cache block.vtx node.cache k.1 k.2 = true ∧
    ∀ p ∈ shardPaymentsFor env node.cache block.vtx k.1 k.2,
      ∀ w ∈ owed env node.cache block.vtx node.chainActive node.nextHeight,
        w.shardPayee = some p.minerAddress → WithinBudget env node block w

/-- Responses due after the transactions are due before, and within the budget. -/
def ResponsesDueBefore : Prop :=
  ∀ r ∈ (afterTxs env node block.vtx).mapResponses.keys, node.cache.isResponsePaid r = false →
    responseDue env (afterTxs env node block.vtx) block.vtx node.nextHeight r = true →
    responseDue env node.cache block.vtx node.nextHeight r = true ∧
    ∀ w ∈ owed env node.cache block.vtx node.chainActive node.nextHeight,
      w.answered = some r → WithinBudget env node block w

/-- Rewards due after the transactions are due before, and within the value of the coinbase. -/
def RewardsDueBefore : Prop :=
  ∀ r ∈ (afterTxs env node block.vtx).mapChallenges.keys,
    rewardDue env (afterTxs env node block.vtx) block.vtx r = true →
    rewardDue env node.cache block.vtx r = true ∧
    ∀ w ∈ getChallengerRewardsAtHeight env node.cache block.vtx, w.requestId = r →
      WithinValue env node block w

/-- Nothing becomes due inside the block, and nothing that is due is skipped. -/
@[mk_iff]
structure DueBefore : Prop where
  shards : ShardsDueBefore env node block
  responses : ResponsesDueBefore env node block
  rewards : RewardsDueBefore env node block

instance : Decidable (ShardsDueBefore env node block) :=
  @List.decidableBAll _ _ (fun _ => forall_prop_decidable _) _
instance : Decidable (ResponsesDueBefore env node block) := by
  unfold ResponsesDueBefore
  infer_instance
instance : Decidable (RewardsDueBefore env node block) := by unfold RewardsDueBefore; infer_instance

instance : Decidable (DueBefore env node block) :=
  decidable_of_iff' _ (dueBefore_iff ..)

end PaidMeansPaid

section Marks

variable {env : Env} {node node' : NodeState} {block : CBlock}

theorem afterTxs_marks (env : Env) (node : NodeState) (vtx : List CTransaction) :
    (afterTxs env node vtx).setPaidShards = node.cache.setPaidShards ∧
      (afterTxs env node vtx).setPaidResponses = node.cache.setPaidResponses ∧
      (afterTxs env node vtx).setPaidChallengerRewards = node.cache.setPaidChallengerRewards :=
  foldlRecOn (motive := fun c : OPoICache => c.setPaidShards = node.cache.setPaidShards ∧
      c.setPaidResponses = node.cache.setPaidResponses ∧
      c.setPaidChallengerRewards = node.cache.setPaidChallengerRewards) _ _ ⟨rfl, rfl, rfl⟩
    fun c h tx _ => by
      obtain ⟨hShards, hResponses, hRewards⟩ :=
        (applyOPoITransaction_txFrame env node.nextHeight c tx node.chainActive).paid
      rw [hShards, hResponses, hRewards]
      exact h

theorem recordsPayable_afterTxs (hBlock : AcceptedBlock env node block)
    (h : RecordsPayable env node.cache) : RecordsPayable env (afterTxs env node block.vtx) :=
  hBlock.induction h fun _ _ hMem hTx hc =>
    hc.apply (signed_of_accepted hTx.checked (mem_opoiTxs.mp hMem).2)

theorem shard_marked_iff (hBlock : AcceptedBlock env node block) {key : String}
    (hUnpaid : node.cache.setPaidShards.contains key = false) :
    (afterPasses env node block).setPaidShards.contains key = true ↔
      ∃ k ∈ touchedShards block.vtx, shardKey k.1 k.2 = key ∧
        node.cache.isShardPaid k.1 k.2 = false ∧
        shardDue env node.cache block.vtx (atPayments env node block) k.1 k.2 = true := by
  have hPaid : ∀ k : String × Nat, (atPayments env node block).isShardPaid k.1 k.2 =
    node.cache.isShardPaid k.1 k.2 := by
    intro k
    unfold isShardPaid
    rw [(sameRecords_beforePayments env node.nextHeight block.vtx _).paidShards,
      (afterTxs_marks env node block.vtx).1]
  rw [connectPasses_shards, (afterTxs_marks env node block.vtx).1, hUnpaid, shard_listed_iff]
  simp only [Bool.false_eq_true, false_or, hPaid]
  refine exists_congr fun k => and_congr_right fun hk => ?_
  rw [shardDue_beforePayments hBlock _ hk]

theorem response_marked_iff (hRecords : RecordsPayable env (afterTxs env node block.vtx))
    {r : String} (hUnpaid : node.cache.isResponsePaid r = false) :
    (afterPasses env node block).isResponsePaid r = true ↔
      responseDue env (afterTxs env node block.vtx) block.vtx node.nextHeight r = true := by
  have hSame := sameRecords_beforePayments env node.nextHeight block.vtx
    (afterTxs env node block.vtx)
  have hAfter : (afterTxs env node block.vtx).isResponsePaid r = false := by
    rw [← hUnpaid, isResponsePaid, (afterTxs_marks env node block.vtx).2.1]
    rfl
  have hBefore : (atPayments env node block).isResponsePaid r = false := by
    rw [← hAfter, isResponsePaid, hSame.paidResponses]
    rfl
  rw [connectPasses_responses, hAfter, response_listed_iff, responseDue_congr hSame, hBefore]
  · simp
  · rw [ResponsesKeyed, hSame.responses]
    exact hRecords.responsesKeyed

theorem reward_marked_iff (hRecords : RecordsPayable env (afterTxs env node block.vtx))
    {r : String} (hUnpaid : node.cache.isChallengerRewardPaid r = false) :
    (afterPasses env node block).isChallengerRewardPaid r = true ↔
      rewardDue env (afterTxs env node block.vtx) block.vtx r = true := by
  have hAfter : (afterTxs env node block.vtx).isChallengerRewardPaid r = false := by
    rw [← hUnpaid, isChallengerRewardPaid, (afterTxs_marks env node block.vtx).2.2]
    rfl
  rw [connectPasses_rewards, hAfter, reward_listed_iff]
  · simp
  · exact hRecords.challengesKeyed

theorem demandedBy_found (hBlock : AcceptedBlock env node block)
    (hActive : env.params.opoiActive node.nextHeight = true) :
    (∀ w ∈ demandedBy env node block, w.output env ∈ block.coinbaseOutputs) ∧
      ∀ w ∈ rewardsDemandedBy env node block, w.output env ∈ block.coinbaseOutputs := by
  have hPayments := hBlock.payments hActive
  have hRewards := hBlock.rewards hActive
  unfold demandedBy rewardsDemandedBy CBlock.coinbaseOutputs
  obtain ⟨coinbase, rest, hVtx, _⟩ := hBlock.shape
  rw [hVtx] at hPayments hRewards ⊢
  exact ⟨fun w hw => (checkOPoIPayments_eq_ok.mp hPayments).2.subset (mem_map_of_mem hw),
    fun w hw => ((checkOPoIChallengerRewards_eq_ok.mp hRewards).1 w hw).2⟩

theorem reward_unique (hBlock : AcceptedBlock env node block)
    (hRecords : RecordsPayable env node.cache) {w w' : OPoIChallengerReward}
    (hw : w ∈ getChallengerRewardsAtHeight env node.cache block.vtx)
    (hw' : w' ∈ getChallengerRewardsAtHeight env node.cache block.vtx)
    (hEq : w.requestId = w'.requestId) : w = w' := by
  have hKeyed := hRecords.challengesKeyed
  have hTxs : ∀ tx ∈ blockTxs block.vtx .challenge, tx.opoiChallengePhase = 1 →
      ∃ ch, node.cache.mapChallenges[tx.opoiRequestId]? = some ch ∧
        ch.challengerAddress = tx.opoiRequester := by
    intro tx hTx hPhase
    rw [blockTxs_eq hBlock, mem_filter, mem_opoiTxs, beq_iff_eq] at hTx
    obtain ⟨⟨hMem, hOPoI⟩, hType⟩ := hTx
    have hBranch := checkOPoITransaction_branch (hBlock.txs tx hMem).checked hOPoI
    simp only [hType] at hBranch
    obtain ⟨_, _, hReveal⟩ := checkChallenge_eq_ok hBranch
    rw [if_neg (by rw [hPhase]; decide)] at hReveal
    obtain ⟨ch, hCh, _, hAddress⟩ := checkChallengeReveal_eq_ok hReveal
    exact ⟨ch, hCh, hAddress⟩
  obtain ⟨ch, hCh, hReward⟩ := reward_of_listed hKeyed hTxs hw
  obtain ⟨ch', hCh', hReward'⟩ := reward_of_listed hKeyed hTxs hw'
  rw [← hEq, hCh] at hCh'
  cases hCh'
  rw [← hEq, hReward] at hReward'
  exact Option.some.inj hReward'

theorem DueBefore.paidMeansPaid (hDue : DueBefore env node block)
    (hBlock : AcceptedBlock env node block) (hRecords : RecordsPayable env node.cache)
    (hActive : env.params.opoiActive node.nextHeight = true)
    (hCache : node'.cache = afterPasses env node block) : PaidMeansPaid env node block node' := by
  obtain ⟨hFound, hFoundRewards⟩ := demandedBy_found hBlock hActive
  have hAfter := recordsPayable_afterTxs hBlock hRecords
  refine ⟨fun key hPaid hUnpaid => ?_, fun r hPaid hUnpaid => ?_, fun r hPaid hUnpaid => ?_⟩
  · rw [hCache, shard_marked_iff hBlock hUnpaid] at hPaid
    obtain ⟨k, hk, rfl, hOpen, hTerms⟩ := hPaid
    obtain ⟨hBefore, hWithin⟩ := hDue.shards k hk hOpen hTerms
    refine ⟨shard_listed_iff.mpr ⟨k, hk, rfl, hOpen, hBefore⟩, fun p hp hKey => ?_⟩
    obtain ⟨sum, hSum⟩ := mem_aggregateShardPayments ⟨p, hp, rfl⟩
    have hOwed : Owed.shards p.minerAddress sum ∈
        owed env node.cache block.vtx node.chainActive node.nextHeight := by
      simp only [owed, mem_append, mem_map]
      exact .inl (.inl (.inr ⟨_, hSum, rfl⟩))
    have hMem := Greedy.within_iff.mp
      (hWithin p ((shardPayments_of_key hk).mp ⟨hp, hKey⟩) _ hOwed rfl)
    exact ⟨_, hMem, rfl, hFound _ hMem⟩
  · rw [hCache, response_marked_iff hAfter hUnpaid] at hPaid
    have hKey : r ∈ (afterTxs env node block.vtx).mapResponses.keys := by
      rw [Std.ExtTreeMap.mem_keys, ← Std.ExtTreeMap.contains_iff_mem,
        Std.ExtTreeMap.contains_eq_isSome_getElem?]
      unfold responseDue at hPaid
      split at hPaid
      · rename_i hResp _
        rw [hResp]
        rfl
      · cases hPaid
    obtain ⟨hBefore, hWithin⟩ := hDue.responses r hKey hUnpaid hPaid
    obtain ⟨w, hw, hAnswered⟩ := owed_of_listed
      ((response_listed_iff hRecords.responsesKeyed).mpr ⟨hUnpaid, hBefore⟩)
    have hMem := Greedy.within_iff.mp (hWithin w hw hAnswered)
    exact ⟨w, hMem, hAnswered, hFound w hMem⟩
  · rw [hCache, reward_marked_iff hAfter hUnpaid] at hPaid
    obtain ⟨hBefore, hWithin⟩ := hDue.rewards r (mem_keys_of_rewardDue hPaid) hPaid
    obtain ⟨w, hw, hId⟩ := (reward_listed_iff hRecords.challengesKeyed).mpr hBefore
    have hMem := Greedy.within_iff.mp (hWithin w hw hId)
    exact ⟨w, hMem, hId, hFoundRewards w hMem⟩

theorem PaidMeansPaid.dueBefore (hPaid : PaidMeansPaid env node block node')
    (hBlock : AcceptedBlock env node block) (hRecords : RecordsPayable env node.cache)
    (hCache : node'.cache = afterPasses env node block) : DueBefore env node block := by
  have hAfter := recordsPayable_afterTxs hBlock hRecords
  refine ⟨fun k hk hOpen hTerms => ?_, fun r _ hUnpaid hDue => ?_, fun r _ hDue => ?_⟩
  · have hMarked := (shard_marked_iff hBlock hOpen).mpr ⟨k, hk, rfl, hOpen, hTerms⟩
    rw [← hCache] at hMarked
    obtain ⟨hListed, hDemanded⟩ := hPaid.shards _ hMarked hOpen
    obtain ⟨k', _, hKey, _, hBefore⟩ := shard_listed_iff.mp hListed
    obtain ⟨hId, hIndex⟩ := shardKey_inj hKey
    rw [hId, hIndex] at hBefore
    refine ⟨hBefore, fun p hp w hw hPayee => ?_⟩
    obtain ⟨hMem, hSame⟩ := (shardPayments_of_key hk).mpr hp
    obtain ⟨w', hw', hPayee', _⟩ := hDemanded p hMem hSame
    rw [shardPayee_unique hw (Greedy.taken_sublist.subset hw') hPayee hPayee']
    exact Greedy.within_iff.mpr hw'
  · have hMarked := (response_marked_iff hAfter hUnpaid).mpr hDue
    rw [← hCache] at hMarked
    obtain ⟨w', hw', hAnswered', _⟩ := hPaid.responses r hMarked hUnpaid
    have hKeyed := hRecords.responsesKeyed
    have hOwed' := Greedy.taken_sublist.subset hw'
    refine ⟨((response_listed_iff hKeyed).mp (listed_of_owed hOwed' hAnswered')).2,
      fun w hw hAnswered => ?_⟩
    rw [answered_unique hKeyed hw hOwed' hAnswered hAnswered']
    exact Greedy.within_iff.mpr hw'
  · have hUnpaid : node.cache.isChallengerRewardPaid r = false := by
      have hOpen := unpaid_of_rewardDue hDue
      rwa [isChallengerRewardPaid, (afterTxs_marks env node block.vtx).2.2] at hOpen
    have hMarked := (reward_marked_iff hAfter hUnpaid).mpr hDue
    rw [← hCache] at hMarked
    obtain ⟨w', hw', hId', _⟩ := hPaid.rewards r hMarked hUnpaid
    have hListed' := Greedy.taken_sublist.subset hw'
    refine ⟨(reward_listed_iff hRecords.challengesKeyed).mp ⟨w', hListed', hId'⟩,
      fun w hw hId => ?_⟩
    rw [reward_unique hBlock hRecords hw hListed' (hId.trans hId'.symm)]
    exact Greedy.within_iff.mpr hw'

/-- A connected block marks as paid what its coinbase pays, and nothing else, exactly when
    nothing becomes due inside the block and nothing that is due is skipped. -/
theorem paidMeansPaid_iff_dueBefore (env : Env) (node node' : NodeState) (block : CBlock)
    (hNode : Reachable env node) (hTip : connectTip env node block = .ok node') :
    PaidMeansPaid env node block node' ↔
      (env.params.opoiActive node.nextHeight = true → DueBefore env node block) := by
  have hRecords := recordsPayable_of_reachable hNode
  obtain ⟨hBlock, _, hCache⟩ := connectTip_cache hTip
  by_cases hActive : env.params.opoiActive node.nextHeight = true
  · rw [if_pos hActive] at hCache
    exact ⟨fun hPaid _ => hPaid.dueBefore hBlock hRecords hCache,
      fun hDue => (hDue hActive).paidMeansPaid hBlock hRecords hActive hCache⟩
  · rw [if_neg hActive] at hCache
    refine ⟨fun _ h => absurd h hActive, fun _ => ⟨?_, ?_, ?_⟩⟩ <;>
    · intro x hPaid hUnpaid
      rw [hCache, hUnpaid] at hPaid
      cases hPaid

end Marks

def sampleAnsweredBlocks (payment : CAmount) : List CBlock := sampleStaked
  [sampleBlock 4 [{ sampleRequest "r" "alice" 2 1 with opoiPayment := payment }],
   sampleBlock 5 [sampleResponseCommit "r" sampleMiner 3],
   sampleBlock 6 [sampleResponseReveal "r" sampleMiner 4]]

def sampleApproval (outputs : List (String × CAmount)) : CBlock :=
  ⟨7, [sampleCoinbase outputs 7, sampleVote "r" "carol" ⟨4002, 3⟩ 6 AUDITOR_VERIFY_PASS]⟩

/-- An approved response with a payment of 5 is paid and marked. -/
theorem paidMeansPaid_of_approval :
    ∃ node node', PlainRun sampleNet (sampleAnsweredBlocks 5)
        node ∧
      connectTip sampleNet node (sampleApproval [(sampleMiner, 5)]) = .ok node' ∧
      node.cache.isResponsePaid "r" = false ∧ node'.cache.isResponsePaid "r" = true ∧
      DueBefore sampleNet node (sampleApproval [(sampleMiner, 5)]) ∧
      PaidMeansPaid sampleNet node (sampleApproval [(sampleMiner, 5)]) node' := by
  refine ⟨_, _, Run.steps_value .other (by decide +kernel), Run.eq_value (by decide +kernel),
    by decide +kernel, by decide +kernel, ?due, (paidMeansPaid_iff_dueBefore _ _ _ _
      (reachable_of_forwardRun (Run.steps_value .other _)) (Run.eq_value _)).mpr fun _ => ?due⟩
  decide +kernel

/-- A payment of 2000 exceeds the budget of 1000. The check demands nothing for the approved
    response, and it is marked as paid all the same. -/
theorem markedPaid_without_payment :
    ∃ node node', PlainRun sampleNet
        (sampleAnsweredBlocks 2000) node ∧
      connectTip sampleNet node (sampleApproval [("miner", 5)]) = .ok node' ∧
      demandedBy sampleNet node (sampleApproval [("miner", 5)]) = [] ∧
      node.cache.isResponsePaid "r" = false ∧ node'.cache.isResponsePaid "r" = true ∧
      ¬PaidMeansPaid sampleNet node (sampleApproval [("miner", 5)]) node' := by
  refine ⟨_, _, Run.steps_value .other (by decide +kernel), Run.eq_value (by decide +kernel),
    by decide +kernel, by decide +kernel, by decide +kernel, fun hPaid => ?_⟩
  obtain ⟨w, hw, _⟩ := hPaid.responses "r" (by decide +kernel) (by decide +kernel)
  rw [show demandedBy _ _ _ = [] by decide +kernel] at hw
  cases hw

/-! ## The two lists of submissions -/

/-- The submissions that `CheckOPoIPayments` counts before the transactions of a block are those
    that `ProcessShardPayments` counts after them: the miners in order, each with hash and token
    count. -/
theorem submissions_same_after_block {env : Env} {node node' : NodeState} {block : CBlock}
    (hTip : connectTip env node block = .ok node') (k : String × Nat) :
    let atPayments := beforePayments env node.nextHeight block.vtx (afterTxs env node block.vtx)
    let after := mergeShardResults block.vtx k.1 k.2 (atPayments.listShardResults k.1 k.2)
    (env.params.opoiActive node.nextHeight = true → node'.cache =
        processAuditorVerifications env (markPayments env node.nextHeight atPayments block.vtx)) ∧
      after.map ShardResultSubmission.view =
        (submissionsWith node block k).map ShardResultSubmission.view ∧
      ∀ least, computeShardMajority after least =
        computeShardMajority (submissionsWith node block k) least := by
  obtain ⟨hBlock, _, hCache⟩ := connectTip_cache hTip
  have hSubs := (sameRecords_beforePayments env node.nextHeight block.vtx
    (afterTxs env node block.vtx)).listShardResults k.1 k.2
  refine ⟨fun hActive => by rw [hCache, if_pos hActive, connectPasses_eq], ?_, fun least => ?_⟩
  · rw [hSubs, mergeShardResults_afterTxs hBlock, listShardResults_view hBlock]
    rfl
  · rw [hSubs, computeShardMajority_afterTxs hBlock]
    rfl

/-- A miner sends two results for a shard in one block. The first one counts. -/
def sampleResults : CBlock :=
  sampleBlock 5 [sampleShardResult "r" sampleMiner 3 0,
    { sampleShardResult "r" sampleMiner 4 0 with opoiTokenCount := 9 }]

theorem submissions_same_after_result :
    let env := sampleEnv (shardParams 3)
    let vtx := sampleResults.vtx
    ∃ node node', PlainRun env (sampleStaked [sampleBlock 4 [sampleRequest "r" "bob" 2 0]]) node ∧
      connectTip env node sampleResults = .ok node' ∧
      (node'.cache.listShardResults "r" 0).map (·.tokenCount) = [0] ∧
      (mergeShardResults vtx "r" 0 ((beforePayments env node.nextHeight vtx
          (afterTxs env node vtx)).listShardResults "r" 0)).map ShardResultSubmission.view =
        (submissionsWith node sampleResults ("r", 0)).map ShardResultSubmission.view := by
  refine ⟨_, _, Run.steps_value .other (by decide +kernel), Run.eq_value ?ok, ?_,
    (submissions_same_after_block (Run.eq_value ?ok) ("r", 0)).2.1⟩
  · decide +kernel
  · decide +kernel

end CloudService
