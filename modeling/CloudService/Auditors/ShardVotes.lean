/-
  An AUDITOR_VERIFY on one shard is kept apart, but the lists of payments for responses
  compare the request of a vote only.
-/

import CloudService.Coinbase.Marks

namespace CloudService

open OPoICache List

def isShardVote (tx : CTransaction) : Bool :=
  tx.isOPoI .auditorVerify && tx.opoiShardIndex != OPOI_AUDITOR_VERIFY_NO_SHARD

/-- The second list has the transactions of the first one and further accepted votes on shards. -/
inductive AddsShardVotes (env : Env) (node : NodeState) :
    List CTransaction → List CTransaction → Prop where
  | nil : AddsShardVotes env node [] []
  | keep (tx : CTransaction) {txs txs' : List CTransaction}
      (hRest : AddsShardVotes env node txs txs') :
      AddsShardVotes env node (tx :: txs) (tx :: txs')
  | add {tx : CTransaction} {txs txs' : List CTransaction} (hVote : isShardVote tx = true)
      (hAccepted : checkOPoITransaction env false node.chainActive node.cache tx = .ok ())
      (hRest : AddsShardVotes env node txs txs') : AddsShardVotes env node txs (tx :: txs')

/-- With either list of transactions the same payments for responses and rewards are due. -/
def SameDebts (env : Env) (c : OPoICache) (height : Nat) (vtx vtx' : List CTransaction) : Prop :=
  getVerifiablePaymentsForBlock env c vtx' = getVerifiablePaymentsForBlock env c vtx ∧
    getAuditSampledOpenPaymentsForBlock env c vtx' height =
      getAuditSampledOpenPaymentsForBlock env c vtx height ∧
    getChallengerRewardsAtHeight env c vtx' = getChallengerRewardsAtHeight env c vtx

/-- The votes decide for every unpaid response alike, with and without the further ones. -/
def VerdictsUnmoved (env : Env) (c : OPoICache) (height : Nat) (vtx vtx' : List CTransaction) :
    Prop :=
  ∀ r, c.isResponsePaid r = false →
    responseDue env c vtx' height r = responseDue env c vtx height r

section ShardVotes

variable {env : Env} {node node₁ node₂ : NodeState} {c c' : OPoICache} {height : Nat}
  {coinbase tx : CTransaction} {txs txs' vtx vtx' : List CTransaction}

/-! ## The two blocks -/

theorem isShardVote_iff : isShardVote tx = true ↔ tx.isOPoITx = true ∧
    tx.opoiType = .auditorVerify ∧ tx.opoiShardIndex ≠ OPOI_AUDITOR_VERIFY_NO_SHARD := by
  simp [isShardVote, CTransaction.isOPoI, and_assoc]

section

variable (h : AddsShardVotes env node txs txs')

include h

theorem AddsShardVotes.blockTxs (coinbase : CTransaction) (t : OPoITxType)
    (ht : t ≠ .auditorVerify) : blockTxs (coinbase :: txs') t = blockTxs (coinbase :: txs) t := by
  unfold CloudService.blockTxs
  rw [tail_cons, tail_cons]
  induction h with
  | nil => rfl
  | keep tx _ ih => rw [filter_cons, filter_cons, ih]
  | add hVote _ _ ih =>
    rw [isShardVote_iff] at hVote
    have hOther : ¬OPoITxType.auditorVerify = t := fun hEq => ht hEq.symm
    rw [filter_cons_of_neg (by simp [CTransaction.isOPoI, hVote.2.1, hOther]), ih]

theorem AddsShardVotes.wholePart_foldl {chainActive : List Uint256}
    (hSame : c.wholePart = c'.wholePart) :
    ((opoiTxs txs').foldl (applyOPoITransaction env chainActive height) c').wholePart =
      ((opoiTxs txs).foldl (applyOPoITransaction env chainActive height) c).wholePart := by
  have hReads : ∀ tx, ReadsPart .whole fun c => applyOPoITransaction env chainActive height c tx :=
    fun tx c => part_apply .whole env chainActive height c tx
  unfold opoiTxs
  induction h generalizing c c' with
  | nil => exact hSame.symm
  | keep tx _ ih =>
    rw [filter_cons, filter_cons]
    split
    · exact ih ((hReads tx).congr hSame)
    · exact ih hSame
  | @add tx _ _ hVote _ _ ih =>
    obtain ⟨hOPoI, hType, hShard⟩ := isShardVote_iff.mp hVote
    rw [filter_cons_of_pos (by simpa using hOPoI), foldl_cons]
    refine ih (hSame.trans ?_)
    simp only [applyOPoITransaction, hType, applyAuditorVerify, if_neg hShard,
      addShardAuditorVerification]
    obtain ⟨_, _, hEq⟩ := lockVote_eq _ _ (newVote env height tx)
    rw [hEq]
    rfl

theorem AddsShardVotes.wholePart_afterTxs :
    (afterTxs env node (coinbase :: txs')).wholePart =
      (afterTxs env node (coinbase :: txs)).wholePart :=
  (AddsShardVotes.keep coinbase h).wholePart_foldl rfl

theorem AddsShardVotes.eq_of_inactive (hNone : opoiTxs txs' = []) : txs' = txs := by
  induction h with
  | nil => rfl
  | keep tx _ ih =>
    rw [ih]
    rw [opoiTxs, filter_cons] at hNone
    split at hNone
    · cases hNone
    · exact hNone
  | add hVote _ _ _ =>
    rw [opoiTxs, filter_cons_of_pos (by simpa using (isShardVote_iff.mp hVote).1)] at hNone
    cases hNone

end

/-! ## What the blocks owe -/

theorem responseDue_of_get {r : String} {resp : OPoIResponse} {req : OPoIRequest}
    (hResp : c.mapResponses[r]? = some resp) (hReq : c.mapRequests[r]? = some req) :
    responseDue env c vtx height r = (decide (0 < req.payment) &&
      if req.isVerifiable then mergedMajority env c vtx r == some AUDITOR_VERIFY_PASS
      else resp.auditSelected && auditSampledPayNow env c vtx height resp) := by
  simp only [responseDue, hResp, hReq]

/-- The lists agree when the decisions do. -/
theorem VerdictsUnmoved.sameLists (h : VerdictsUnmoved env c height vtx vtx')
    (hKeyed : ResponsesKeyed c) :
    getVerifiablePaymentsForBlock env c vtx' = getVerifiablePaymentsForBlock env c vtx ∧
      getAuditSampledOpenPaymentsForBlock env c vtx' height =
        getAuditSampledOpenPaymentsForBlock env c vtx height := by
  have hVals : ∀ resp ∈ TreeMap.vals c.mapResponses, c.mapResponses[resp.requestId]? =
    some resp := by
    intro resp hMem
    obtain ⟨key, hGet⟩ := TreeMap.mem_vals.mp hMem
    rw [hKeyed key resp hGet]
    exact hGet
  constructor
  · refine filterMap_congr fun resp hMem => ?_
    have hResp := hVals resp hMem
    split
    · rfl
    · rename_i hUnpaid
      split
      · rfl
      · rename_i req hReq
        have hDue := h resp.requestId (by simpa using hUnpaid)
        rw [responseDue_of_get hResp hReq, responseDue_of_get hResp hReq] at hDue
        split
        · rfl
        · rename_i hPayable
          rw [not_or, Bool.not_eq_false, not_le] at hPayable
          simp only [hPayable.1, hPayable.2, decide_true, Bool.true_and, if_true] at hDue
          have hIff : mergedMajority env c vtx' resp.requestId = some AUDITOR_VERIFY_PASS ↔
              mergedMajority env c vtx resp.requestId = some AUDITOR_VERIFY_PASS := by
            rw [← beq_iff_eq, hDue, beq_iff_eq]
          exact if_congr hIff rfl rfl
  · refine filterMap_congr fun resp hMem => ?_
    have hResp := hVals resp hMem
    split
    · rfl
    · rename_i hUnpaid
      rw [not_or, Bool.not_eq_false] at hUnpaid
      split
      · rfl
      · rename_i req hReq
        have hDue := h resp.requestId (by simpa using hUnpaid.2)
        rw [responseDue_of_get hResp hReq, responseDue_of_get hResp hReq] at hDue
        split
        · rfl
        · rename_i hPayable
          rw [not_or, Bool.not_eq_true, not_le] at hPayable
          simp only [hPayable.1, hPayable.2, hUnpaid.1, decide_true, Bool.true_and,
            Bool.false_eq_true, if_false] at hDue
          rw [hDue]

theorem AddsShardVotes.rewards (h : AddsShardVotes env node txs txs') (c : OPoICache) :
    getChallengerRewardsAtHeight env c (coinbase :: txs') =
      getChallengerRewardsAtHeight env c (coinbase :: txs) := by
  unfold getChallengerRewardsAtHeight
  rw [h.blockTxs coinbase .challenge (by decide)]

theorem AddsShardVotes.sameDebts_iff (h : AddsShardVotes env node txs txs')
    (hKeyed : ResponsesKeyed c) :
    SameDebts env c height (coinbase :: txs) (coinbase :: txs') ↔
      VerdictsUnmoved env c height (coinbase :: txs) (coinbase :: txs') := by
  constructor
  · rintro ⟨hVerifiable, hSampled, _⟩ r hUnpaid
    have hListed := @response_listed_iff env c (coinbase :: txs) height r hKeyed
    have hListed' := @response_listed_iff env c (coinbase :: txs') height r hKeyed
    rw [hVerifiable, hSampled, hListed] at hListed'
    simp only [hUnpaid, true_and] at hListed'
    exact Bool.eq_iff_iff.mpr hListed'.symm
  · intro hUnmoved
    obtain ⟨hVerifiable, hSampled⟩ := hUnmoved.sameLists hKeyed
    exact ⟨hVerifiable, hSampled, h.rewards c⟩

/-! ## The passes -/

theorem VerdictsUnmoved.mono (h : VerdictsUnmoved env c height vtx vtx')
    (hDue : ∀ vtx r, responseDue env c' vtx height r = responseDue env c vtx height r)
    (hPaid : ∀ r, c.isResponsePaid r = true → c'.isResponsePaid r = true) :
    VerdictsUnmoved env c' height vtx vtx' := by
  intro r hUnpaid
  rw [hDue, hDue]
  refine h r ?_
  cases hOld : c.isResponsePaid r with
  | false => rfl
  | true =>
    rw [hPaid r hOld] at hUnpaid
    cases hUnpaid

section

variable (h : VerdictsUnmoved env c height (coinbase :: txs) (coinbase :: txs'))
  (hAdds : AddsShardVotes env node txs txs')
  (hKeyed : ResponsesKeyed c)

include h hAdds hKeyed

theorem VerdictsUnmoved.markPayments :
    markPayments env height c (coinbase :: txs') = markPayments env height c (coinbase :: txs) := by
  have hShards : getShardPaymentsForBlock env c (coinbase :: txs') =
      getShardPaymentsForBlock env c (coinbase :: txs) := by
    simp only [getShardPaymentsForBlock, touchedShards, shardPaymentsFor, mergeShardResults,
      hAdds.blockTxs coinbase .shardResult (by decide)]
  have hFirst : processShardPayments env (coinbase :: txs') c =
      processShardPayments env (coinbase :: txs) c := by
    unfold processShardPayments
    rw [hShards]
  obtain ⟨paidShards, hc₁⟩ : ∃ paidShards, processShardPayments env (coinbase :: txs) c =
      { c with setPaidShards := paidShards } := ⟨_, markShards_eq _ c⟩
  have hUnmoved₁ : VerdictsUnmoved env { c with setPaidShards := paidShards } height
      (coinbase :: txs) (coinbase :: txs') := h.mono (fun _ _ => rfl) fun _ hPaid => hPaid
  have hSecond : processVerifiableResponsePayments env (coinbase :: txs')
        { c with setPaidShards := paidShards } =
      processVerifiableResponsePayments env (coinbase :: txs)
        { c with setPaidShards := paidShards } := by
    unfold processVerifiableResponsePayments
    rw [(hUnmoved₁.sameLists hKeyed).1]
  obtain ⟨paidResponses, hc₂, hGrows⟩ : ∃ paidResponses : StrSet,
      processVerifiableResponsePayments env (coinbase :: txs)
          { c with setPaidShards := paidShards } =
        { c with setPaidShards := paidShards, setPaidResponses := paidResponses } ∧
      ∀ r, c.isResponsePaid r = true → paidResponses.contains r = true :=
    ⟨_, markResponses_eq _ _, fun r hPaid => (TreeMap.contains_foldl_insert _ _).mpr (.inl hPaid)⟩
  have hUnmoved₂ : VerdictsUnmoved env
      { c with setPaidShards := paidShards, setPaidResponses := paidResponses } height
      (coinbase :: txs) (coinbase :: txs') := h.mono (fun _ _ => rfl) hGrows
  unfold CloudService.markPayments
  dsimp only
  rw [hFirst, hc₁, hSecond, hc₂]
  unfold processAuditSampledOpenResponsePayments
  rw [(hUnmoved₂.sameLists hKeyed).2]

theorem VerdictsUnmoved.connectPasses :
    connectPasses env height (coinbase :: txs') c = connectPasses env height
      (coinbase :: txs) c := by
  have hBefore : beforePayments env height (coinbase :: txs') c =
      beforePayments env height (coinbase :: txs) c := by
    unfold beforePayments processChallengerRewardPayments
    rw [hAdds.rewards c]
  have hSame := sameRecords_beforePayments env height (coinbase :: txs) c
  rw [connectPasses_eq, connectPasses_eq, hBefore]
  refine congrArg (processAuditorVerifications env) (VerdictsUnmoved.markPayments ?_ hAdds ?_)
  · refine h.mono (fun _ _ => responseDue_congr hSame) fun r hPaid => ?_
    rw [isResponsePaid, hSame.paidResponses]
    exact hPaid
  · intro key resp hResp
    rw [hSame.responses] at hResp
    exact hKeyed key resp hResp

end

/-! ## The two caches -/

theorem fields_of_wholePart (h : c'.wholePart = c.wholePart) :
    SameRecords c c' ∧ c'.setPaidResponses = c.setPaidResponses := by
  simp only [wholePart, OPoICache.mk.injEq] at h
  obtain ⟨hRequests, hResponses, _, _, _, _, _, _, _, hVotes, _, _, _, _, hSubmissions,
    hShards, _, _, hPaid, _⟩ := h
  exact ⟨⟨hResponses, hSubmissions, hVotes, hShards, hPaid, fun r => by rw [hRequests]⟩, hPaid⟩

theorem verdictsUnmoved_of_wholePart (hAdds : AddsShardVotes env node txs txs')
    (hRecords : RecordsPayable env node.cache) {hash hash' : Uint256}
    (hBlock : AcceptedBlock env node ⟨hash, coinbase :: txs⟩)
    (hBlock' : AcceptedBlock env node ⟨hash', coinbase :: txs'⟩)
    (hSame : (connectPasses env node.nextHeight (coinbase :: txs')
        (afterTxs env node (coinbase :: txs'))).wholePart =
      (connectPasses env node.nextHeight (coinbase :: txs)
        (afterTxs env node (coinbase :: txs))).wholePart) :
    VerdictsUnmoved env (afterTxs env node (coinbase :: txs)) node.nextHeight (coinbase :: txs)
      (coinbase :: txs') := by
  intro r hUnpaid
  have hUnpaid₀ : node.cache.isResponsePaid r = false := by
    rw [← hUnpaid, isResponsePaid, isResponsePaid, (afterTxs_marks env node (coinbase :: txs)).2.1]
  have hMarked := response_marked_iff (recordsPayable_afterTxs hBlock hRecords) hUnpaid₀
  have hMarked' := response_marked_iff (recordsPayable_afterTxs hBlock' hRecords) hUnpaid₀
  rw [responseDue_congr (fields_of_wholePart hAdds.wholePart_afterTxs).1,
    isResponsePaid, (fields_of_wholePart hSame).2] at hMarked'
  exact Bool.eq_iff_iff.mpr (hMarked'.symm.trans hMarked)

theorem verdictsUnmoved_iff :
    VerdictsUnmoved env c height vtx vtx' ↔
      ∀ r ∈ c.mapResponses.keys, c.isResponsePaid r = false →
        responseDue env c vtx' height r = responseDue env c vtx height r := by
  refine ⟨fun h r _ => h r, fun h r hUnpaid => ?_⟩
  by_cases hMem : r ∈ c.mapResponses.keys
  · exact h r hMem hUnpaid
  · have hNone : c.mapResponses[r]? = none := by
      rw [Std.ExtTreeMap.mem_keys] at hMem
      exact Std.ExtTreeMap.getElem?_eq_none hMem
    simp only [responseDue, hNone]

instance : Decidable (VerdictsUnmoved env c height vtx vtx') :=
  decidable_of_iff' _ verdictsUnmoved_iff

end ShardVotes

/-- Two blocks that differ by votes on shards owe the same for responses and challenges exactly
    when the further votes decide no unpaid response on record otherwise, if they are counted as
    votes on the response. If both are connected, the whole-response parts of the two caches
    agree exactly when the same holds on the cache after the transactions. -/
theorem wholeResponses_iff_verdictsUnmoved (env : Env) (node node₁ node₂ : NodeState)
    (coinbase : CTransaction) (txs txs' : List CTransaction) (hash hash' : Uint256)
    (hReach : Reachable env node) (hAdds : AddsShardVotes env node txs txs') :
    (SameDebts env node.cache node.nextHeight (coinbase :: txs) (coinbase :: txs') ↔
      VerdictsUnmoved env node.cache node.nextHeight (coinbase :: txs) (coinbase :: txs')) ∧
    (connectTip env node ⟨hash, coinbase :: txs⟩ = .ok node₁ →
      connectTip env node ⟨hash', coinbase :: txs'⟩ = .ok node₂ →
      (node₂.cache.wholePart = node₁.cache.wholePart ↔
        VerdictsUnmoved env (afterTxs env node (coinbase :: txs)) node.nextHeight
          (coinbase :: txs) (coinbase :: txs'))) := by
  have hRecords := recordsPayable_of_reachable hReach
  refine ⟨hAdds.sameDebts_iff fun key resp hResp => (hRecords.responses key resp hResp).1,
    fun hTip hTip' => ?_⟩
  obtain ⟨hBlock, _, hCache⟩ := connectTip_cache hTip
  obtain ⟨hBlock', _, hCache'⟩ := connectTip_cache hTip'
  cases hActive : env.params.opoiActive node.nextHeight with
  | false =>
    have hNone := opoiTxs_of_inactive hBlock' hActive
    rw [hActive, if_neg Bool.false_ne_true] at hCache hCache'
    rw [(AddsShardVotes.keep coinbase hAdds).eq_of_inactive hNone, hCache, hCache']
    exact ⟨fun _ _ _ => rfl, fun _ => rfl⟩
  | true =>
    rw [hActive, if_pos rfl] at hCache hCache'
    rw [hCache, hCache']
    refine ⟨verdictsUnmoved_of_wholePart hAdds hRecords hBlock hBlock', fun hUnmoved => ?_⟩
    rw [← hUnmoved.connectPasses hAdds (recordsPayable_afterTxs hBlock hRecords).responsesKeyed]
    exact wholePart_connectPasses env node.nextHeight (coinbase :: txs') hAdds.wholePart_afterTxs

/-! ## A vote on a shard -/

/-- A model is registered, approved and active, and the answer to a VERIFIABLE request for it
    waits for the auditors. -/
def sampleGoverned : List CBlock := sampleStaked
  [sampleBlock 4 [sampleModelRegister "model" sampleMiner 2],
   sampleBlock 5 [sampleModelVote "model" sampleMiner 3 1, sampleRequest "r" "alice" 4 1],
   sampleBlock 6 [sampleResponseCommit "r" sampleMiner 5],
   sampleBlock 7 [sampleResponseReveal "r" sampleMiner 6]]

def sampleShardVote (result : Nat) : CTransaction :=
  { sampleVote "r" "carol" ⟨4002, 3⟩ 7 result with opoiShardIndex := 0 }

/-- The block with a coinbase that pays 5 to the miner, and the one with a vote on a shard. -/
def sampleUnvoted : CBlock := ⟨8, [sampleCoinbase [(sampleMiner, 5)] 8]⟩
def sampleShardVoted (result : Nat) : CBlock :=
  ⟨9, [sampleCoinbase [(sampleMiner, 5)] 8, sampleShardVote result]⟩

/-- A FAIL vote on a shard decides nothing for the response. -/
theorem wholeResponses_of_failed_shard :
    ∃ node node₁ node₂, PlainRun votingNet sampleGoverned node ∧
      connectTip votingNet node sampleUnvoted = .ok node₁ ∧
      connectTip votingNet node (sampleShardVoted AUDITOR_VERIFY_FAIL) = .ok node₂ ∧
      SameDebts votingNet node.cache node.nextHeight sampleUnvoted.vtx
        (sampleShardVoted AUDITOR_VERIFY_FAIL).vtx ∧
      node₂.cache.wholePart = node₁.cache.wholePart := by
  have hSame := fun node node₁ node₂ (hRun : PlainRun votingNet sampleGoverned node)
      hAccepted => wholeResponses_iff_verdictsUnmoved votingNet node node₁ node₂
    (sampleCoinbase [(sampleMiner, 5)] 8) [] [sampleShardVote AUDITOR_VERIFY_FAIL] 8 9
    (reachable_of_forwardRun hRun) (.add rfl hAccepted .nil)
  refine ⟨_, _, _, Run.steps_value .other (by decide +kernel), Run.eq_value (by decide +kernel),
    Run.eq_value (by decide +kernel), ?_, ?_⟩
  · exact (hSame _ (.init votingNet) (.init votingNet) (Run.steps_value .other _)
      (by decide +kernel)).1.mpr (by decide +kernel)
  · exact ((hSame _ _ _ (Run.steps_value .other _) (by decide +kernel)).2 (Run.eq_value _)
      (Run.eq_value _)).mpr (by decide +kernel)

/-- A PASS vote on a shard makes the majority for the whole response: the block that holds it
    owes the payment and marks it. -/
theorem wholeResponses_ne_of_passed_shard :
    ∃ node node₁ node₂, PlainRun votingNet sampleGoverned node ∧
      AddsShardVotes votingNet node [] [sampleShardVote AUDITOR_VERIFY_PASS] ∧
      connectTip votingNet node sampleUnvoted = .ok node₁ ∧
      connectTip votingNet node (sampleShardVoted AUDITOR_VERIFY_PASS) = .ok node₂ ∧
      getVerifiablePaymentsForBlock votingNet node.cache sampleUnvoted.vtx = [] ∧
      getVerifiablePaymentsForBlock votingNet node.cache
        (sampleShardVoted AUDITOR_VERIFY_PASS).vtx = [⟨"r", sampleMiner, 5⟩] ∧
      node₁.cache.isResponsePaid "r" = false ∧ node₂.cache.isResponsePaid "r" = true := by
  refine ⟨_, _, _, Run.steps_value .other (by decide +kernel), .add rfl ?_ .nil,
    Run.eq_value (by decide +kernel), Run.eq_value (by decide +kernel), ?_⟩ <;> decide +kernel

end CloudService
