/-
  A response is paid once: a REVEAL in its own block, or its record later. The first route has
  no mark.
-/

import CloudService.Coinbase.Marks
import CloudService.Responses.Reveals

namespace CloudService

open List

/-- The request and the miner that a debt pays a response for. -/
def Owed.responseTo : Owed → Option (String × String)
  | .response p | .verifiable p | .auditSample p => some (p.requestId, p.minerAddress)
  | .shards _ _ => none

@[simp] theorem Owed.responseTo_recorded (req : OPoIRequest) (resp : OPoIResponse) :
    (recorded req resp).responseTo = some (resp.requestId, resp.minerAddress) := by
  unfold recorded
  split <;> rfl

def blockPayments (env : Env) (node : NodeState) (block : CBlock) : List Owed :=
  if env.params.opoiActive node.nextHeight then demandedBy env node block else []

/-- The debts that the coinbases of a run have to pay. -/
def paymentsOfRun (env : Env) (blocks : List CBlock) : List Owed :=
  (blockTrace env blocks).flatMap fun e => blockPayments env e.1 e.2

/-- Phase 1, an OPEN request that pays, and not selected by the audit sortition. -/
def paidAtOnce (env : Env) (node : NodeState) (tx : CTransaction) : Bool :=
  tx.opoiResponsePhase == 1 &&
    (node.cache.mapRequests[tx.opoiRequestId]?).any (fun req =>
      decide (0 < req.payment) && !req.isVerifiable) &&
    !(evaluateOPoIAuditSample env node.chainActive node.cache tx.opoiRequestId tx.opoiMinerAddress
      node.nextHeight).1

def isAnswerOf (r m : String) (tx : CTransaction) : Bool :=
  tx.opoiResponsePhase == 1 && (tx.opoiRequestId == r && tx.opoiMinerAddress == m)

def paysFor (r m : String) (p : OPoIResponsePayment) : Bool :=
  p.requestId == r && p.minerAddress == m

/-- A REVEAL paid at once is the only one of its miner and leaves no selected record; a recorded
    response that is due stays due unless it is replaced. -/
@[mk_iff]
structure PaysOnce (env : Env) (node : NodeState) (block : CBlock) : Prop where
  single : ∀ tx ∈ blockTxs block.vtx .response, paidAtOnce env node tx = true →
    (blockTxs block.vtx .response).countP (isAnswerOf tx.opoiRequestId tx.opoiMinerAddress) ≤ 1
  unsampled : ∀ tx ∈ blockTxs block.vtx .response, paidAtOnce env node tx = true →
    ((afterTxs env node block.vtx).mapResponses[tx.opoiRequestId]?).all (fun resp =>
      resp.minerAddress != tx.opoiMinerAddress || !resp.auditSelected) = true
  due : ∀ r ∈ node.cache.mapResponses.keys, node.cache.isResponsePaid r = false →
    responseDue env node.cache block.vtx node.nextHeight r = true →
    ((afterTxs env node block.vtx).mapResponses[r]?).map (·.minerAddress) =
      (node.cache.mapResponses[r]?).map (·.minerAddress) →
    responseDue env (afterTxs env node block.vtx) block.vtx node.nextHeight r = true

instance {env : Env} {node : NodeState} {block : CBlock} : Decidable (PaysOnce env node block) :=
  decidable_of_iff' _ (paysOnce_iff env node block)

/-- Nothing more will be paid to a miner for a request. -/
structure Spent (c : OPoICache) (r m : String) : Prop where
  revealed : hasRevealed c r m = true
  settled : c.isResponsePaid r = true ∨
    ∀ (resp : OPoIResponse) (req : OPoIRequest), c.mapResponses[r]? = some resp →
      c.mapRequests[r]? = some req → resp.minerAddress = m →
      req.isVerifiable = false ∧ resp.auditSelected = false

section PaidOnce

variable {env : Env} {node node' : NodeState} {block : CBlock} {r m : String} {w : Owed}

/-! ## The payments of a block -/

theorem responseTo_cases (hRecords : RecordsPayable env node.cache)
    (hw : w ∈ owed env node.cache block.vtx node.chainActive node.nextHeight)
    (hTo : w.responseTo = some (r, m)) :
    (∃ tx ∈ blockTxs block.vtx .response, paidAtOnce env node tx = true ∧
      tx.opoiRequestId = r ∧ tx.opoiMinerAddress = m) ∨
    ∃ resp req, node.cache.mapResponses[r]? = some resp ∧ node.cache.mapRequests[r]? = some req ∧
      resp.minerAddress = m ∧ node.cache.isResponsePaid r = false ∧
      (req.isVerifiable || resp.auditSelected) = true ∧
      responseDue env node.cache block.vtx node.nextHeight r = true := by
  rcases mem_owed.mp hw with ⟨p, hp, rfl⟩ | ⟨p, _, rfl⟩ | ⟨resp, req, h, rfl⟩
  · obtain ⟨tx, hTx, req, hPhase, hReq, hPayment, hOpen, hMissed, rfl⟩ :=
      mem_immediatePayments.mp hp
    simp only [Owed.responseTo, Option.some.injEq, Prod.mk.injEq] at hTo
    refine .inl ⟨tx, hTx, ?_, hTo.1, hTo.2⟩
    simp [paidAtOnce, hPhase, hReq, hPayment, hOpen, hMissed]
  · cases hTo
  · simp only [Owed.responseTo_recorded, Option.some.injEq, Prod.mk.injEq] at hTo
    obtain ⟨rfl, rfl⟩ := hTo
    have hKeyed := hRecords.responsesKeyed
    have hListed := (response_listed_iff hKeyed).mp (listed_of_owed (r := resp.requestId) hw
      (by simp))
    refine .inr ⟨resp, req, h.response hKeyed, h.request, rfl, h.unpaid, ?_, hListed.2⟩
    have hDue := h.due
    split at hDue
    · simp_all
    · simp [hDue.1]

theorem answer_of_block (hBlock : AcceptedBlock env node block) {tx : CTransaction}
    (hTx : tx ∈ blockTxs block.vtx .response) (hPhase : tx.opoiResponsePhase = 1) :
    tx ∈ opoiTxs block.vtx ∧ isReveal tx = true ∧
      hasRevealed node.cache tx.opoiRequestId tx.opoiMinerAddress = false := by
  rw [blockTxs_eq hBlock, mem_filter, beq_iff_eq] at hTx
  obtain ⟨hMem, hType⟩ := hTx
  have hReveal : isReveal tx = true := by simp [isReveal, hType, hPhase]
  obtain ⟨hIn, hOPoI⟩ := mem_opoiTxs.mp hMem
  exact ⟨hMem, hReveal, (reveal_of_accepted (hBlock.txs tx hIn).checked hOPoI hReveal).2.1⟩

theorem countP_owed_eq :
    (owed env node.cache block.vtx node.chainActive node.nextHeight).countP
        (fun w => w.responseTo == some (r, m)) =
      (immediatePayments env node.cache block.vtx node.chainActive node.nextHeight).countP
        (paysFor r m) +
      (getVerifiablePaymentsForBlock env node.cache block.vtx).countP (paysFor r m) +
      (getAuditSampledOpenPaymentsForBlock env node.cache block.vtx node.nextHeight).countP
        (paysFor r m) := by
  have hShards : ∀ ps : List (String × CAmount), (ps.map fun p => Owed.shards p.1 p.2).countP
      (fun w => w.responseTo == some (r, m)) = 0 := by
    intro ps
    rw [countP_eq_zero]
    intro w hw
    obtain ⟨p, _, rfl⟩ := mem_map.mp hw
    simp [Owed.responseTo]
  simp only [owed, countP_append, hShards, countP_map, Nat.add_zero]
  rfl

theorem countP_immediate_le :
    (immediatePayments env node.cache block.vtx node.chainActive node.nextHeight).countP
      (paysFor r m) ≤ (blockTxs block.vtx .response).countP (isAnswerOf r m) := by
  unfold immediatePayments
  rw [countP_filterMap]
  refine countP_mono_left fun tx _ h => ?_
  grind [immediatePayment, isAnswerOf, paysFor]

theorem countP_recorded_le_one (hKeyed : ResponsesKeyed node.cache)
    {f : OPoIResponse → Option OPoIResponsePayment}
    (hf : ∀ resp p, f resp = some p → p.requestId = resp.requestId) :
    ((TreeMap.vals node.cache.mapResponses).filterMap f).countP (paysFor r m) ≤ 1 := by
  refine TreeMap.countP_filterMap_vals_le_one fun key key' resp resp' p p' hResp hResp' hp hp' hId
    hId' => ?_
  simp only [paysFor, Bool.and_eq_true, beq_iff_eq] at hId hId'
  rw [← hKeyed key resp hResp, ← hKeyed key' resp' hResp', ← hf resp p hp, ← hf resp' p' hp', hId.1,
    hId'.1]

/-- A miner is paid for one record of a request, and only after a REVEAL. -/
theorem countP_records_le (hKeyed : ResponsesKeyed node.cache)
    (hReveals : RevealsRecorded node.cache) :
    (getVerifiablePaymentsForBlock env node.cache block.vtx).countP (paysFor r m) +
      (getAuditSampledOpenPaymentsForBlock env node.cache block.vtx node.nextHeight).countP
        (paysFor r m) ≤ if hasRevealed node.cache r m then 1 else 0 := by
  have hVerifiable : (getVerifiablePaymentsForBlock env node.cache block.vtx).countP
      (paysFor r m) ≤ 1 := countP_recorded_le_one hKeyed (by grind [responsePayment])
  have hSampled : (getAuditSampledOpenPaymentsForBlock env node.cache block.vtx
      node.nextHeight).countP (paysFor r m) ≤ 1 :=
    countP_recorded_le_one hKeyed (by grind [responsePayment])
  have hAnswered : ∀ {resp req}, RecordDue env node.cache block.vtx node.nextHeight resp req →
      paysFor r m (responsePayment req resp) = true → hasRevealed node.cache r m = true ∧
        (node.cache.mapRequests[r]?).any (·.isVerifiable) = req.isVerifiable := by
    intro resp req h hId
    simp only [paysFor, responsePayment, Bool.and_eq_true, beq_iff_eq] at hId
    obtain ⟨rfl, rfl⟩ := hId
    exact ⟨hReveals _ resp (h.response hKeyed), by simp [h.request]⟩
  rcases Nat.eq_zero_or_pos ((getVerifiablePaymentsForBlock env node.cache block.vtx).countP
    (paysFor r m)) with hZero | hPos
  · rw [hZero, Nat.zero_add]
    split
    · exact hSampled
    · rename_i hNew
      rw [Nat.le_zero, countP_eq_zero]
      rintro p hp hId
      obtain ⟨resp, req, h, _, rfl⟩ := mem_getAuditSampledOpenPaymentsForBlock.mp hp
      exact hNew (hAnswered h hId).1
  · obtain ⟨p, hp, hId⟩ := countP_pos_iff.mp hPos
    obtain ⟨resp, req, h, hKind, rfl⟩ := (mem_getVerifiablePaymentsForBlock node.nextHeight).mp hp
    obtain ⟨hRevealed, hAny⟩ := hAnswered h hId
    have hNone : (getAuditSampledOpenPaymentsForBlock env node.cache block.vtx
        node.nextHeight).countP (paysFor r m) = 0 := by
      rw [countP_eq_zero]
      rintro p' hp' hId'
      obtain ⟨resp', req', h', hOpen, rfl⟩ := mem_getAuditSampledOpenPaymentsForBlock.mp hp'
      rw [hKind, (hAnswered h' hId').2, hOpen] at hAny
      cases hAny
    simpa [hNone, hRevealed] using hVerifiable

theorem unanswered_of_immediate (hBlock : AcceptedBlock env node block)
    (hPos : 0 < (immediatePayments env node.cache block.vtx node.chainActive
      node.nextHeight).countP (paysFor r m)) :
    hasRevealed node.cache r m = false ∧ ∃ tx ∈ blockTxs block.vtx .response,
      paidAtOnce env node tx = true ∧ tx.opoiRequestId = r ∧ tx.opoiMinerAddress = m := by
  obtain ⟨p, hp, hId⟩ := countP_pos_iff.mp hPos
  obtain ⟨tx, hTx, req, hPhase, hReq, hPayment, hOpen, hMissed, rfl⟩ :=
    mem_immediatePayments.mp hp
  simp only [paysFor, Bool.and_eq_true, beq_iff_eq] at hId
  obtain ⟨rfl, rfl⟩ := hId
  refine ⟨(answer_of_block hBlock hTx hPhase).2.2, tx, hTx, ?_, rfl, rfl⟩
  simp [paidAtOnce, hPhase, hReq, hPayment, hOpen, hMissed]

theorem countP_owed_le_one (hRecords : RecordsPayable env node.cache)
    (hReveals : RevealsRecorded node.cache) (hBlock : AcceptedBlock env node block)
    (hOnce : PaysOnce env node block) :
    (owed env node.cache block.vtx node.chainActive node.nextHeight).countP
      (fun w => w.responseTo == some (r, m)) ≤ 1 := by
  have hImmediate := @countP_immediate_le env node block r m
  have hNow := @unanswered_of_immediate env node block r m hBlock
  have hRecorded := @countP_records_le env node block r m hRecords.responsesKeyed hReveals
  rw [countP_owed_eq]
  rcases Nat.eq_zero_or_pos ((immediatePayments env node.cache block.vtx node.chainActive
    node.nextHeight).countP (paysFor r m)) with hZero | hPos
  · split at hRecorded <;> omega
  · obtain ⟨hNew, tx, hTx, hPaid, rfl, rfl⟩ := hNow hPos
    have hOne := hOnce.single tx hTx hPaid
    rw [hNew, if_neg Bool.false_ne_true] at hRecorded
    omega

theorem owed_of_blockPayments (hw : w ∈ blockPayments env node block) :
    env.params.opoiActive node.nextHeight = true ∧
      w ∈ owed env node.cache block.vtx node.chainActive node.nextHeight := by
  unfold blockPayments at hw
  split at hw
  · rename_i hActive
    exact ⟨hActive, Greedy.taken_sublist.subset hw⟩
  · cases hw

/-! ## The trace of a payment -/

theorem spent_of_payment (hRecords : RecordsPayable env node.cache)
    (hReveals : RevealsRecorded node.cache) (hOnce : PaysOnce env node block)
    (hTip : connectTip env node block = .ok node') (hw : w ∈ blockPayments env node block)
    (hTo : w.responseTo = some (r, m)) : Spent node'.cache r m := by
  obtain ⟨hActive, hOwed⟩ := owed_of_blockPayments hw
  obtain ⟨hBlock, _, hCache⟩ := connectTip_cache hTip
  have hKept := persists_of_connectTip hTip
  have hLate := persists_of_afterTxs hTip hActive
  have hResponses := mapResponses_of_connectTip hTip
  rcases responseTo_cases hRecords hOwed hTo with ⟨tx, hTx, hPaid, rfl, rfl⟩ |
    ⟨resp, req, hResp, hReq, rfl, hUnpaid, _, hDue⟩
  · have hTerms := hPaid
    simp only [paidAtOnce, Bool.and_eq_true, beq_iff_eq, Option.any_eq_true, Bool.not_eq_true',
      decide_eq_true_eq] at hTerms
    obtain ⟨⟨hPhase, req, hReq, _, hOpen⟩, _⟩ := hTerms
    obtain ⟨hMem, hReveal, _⟩ := answer_of_block hBlock hTx hPhase
    refine ⟨hLate.hasRevealed (hasRevealed_afterTxs hBlock hMem hReveal),
      .inr fun resp req' hResp hReq' hMiner => ?_⟩
    obtain ⟨req'', hReq'', hEvolves⟩ := hKept.requests _ req hReq
    rw [hReq'] at hReq''
    cases hReq''
    have hUnsampled := hOnce.unsampled tx hTx hPaid
    rw [← hResponses, hResp] at hUnsampled
    refine ⟨by rw [(eq_of_terms hEvolves.terms).2.2.2, hOpen], ?_⟩
    simpa [hMiner] using hUnsampled
  · refine ⟨hKept.hasRevealed (hReveals r resp hResp), ?_⟩
    by_cases hSame : ((afterTxs env node block.vtx).mapResponses[r]?).map (·.minerAddress) =
        some resp.minerAddress
    · left
      have hKey : r ∈ node.cache.mapResponses.keys := by
        rw [Std.ExtTreeMap.mem_keys, ← Std.ExtTreeMap.contains_iff_mem,
          Std.ExtTreeMap.contains_eq_isSome_getElem?, hResp]
        rfl
      have hAfter := hOnce.due r hKey hUnpaid hDue (by rw [hSame, hResp]; rfl)
      rw [if_pos hActive] at hCache
      rw [hCache]
      exact (response_marked_iff (recordsPayable_afterTxs hBlock hRecords) hUnpaid).mpr hAfter
    -- The response of another miner has taken its place.
    · right
      intro resp' req' hResp' _ hMiner
      rw [hResponses] at hResp'
      rw [hResp', Option.map_some, hMiner] at hSame
      exact absurd rfl hSame

theorem Spent.step (h : Spent node.cache r m) (hTip : connectTip env node block = .ok node') :
    Spent node'.cache r m := by
  obtain ⟨hBlock, _, _⟩ := connectTip_cache hTip
  have hKept := persists_of_connectTip hTip
  refine ⟨hKept.hasRevealed h.revealed, h.settled.imp (hKept.paidResponses r) ?_⟩
  intro hRecord resp req' hResp hReq' hMiner
  rw [mapResponses_of_connectTip hTip] at hResp
  rcases response_of_afterTxs hResp with hOld | ⟨tx, hMem, hReveal, hId, _, rfl⟩
  · obtain ⟨req, hReq, _⟩ := (Option.any_eq_true _ _).mp h.revealed
    obtain ⟨req'', hReq'', hEvolves⟩ := hKept.requests r req hReq
    rw [hReq'] at hReq''
    cases hReq''
    rw [(eq_of_terms hEvolves.terms).2.2.2]
    exact hRecord resp req hOld hReq hMiner
  · obtain ⟨hIn, hOPoI⟩ := mem_opoiTxs.mp hMem
    have hNew := (reveal_of_accepted (hBlock.txs tx hIn).checked hOPoI hReveal).2.1
    have hMiner' : tx.opoiMinerAddress = m := hMiner
    rw [hId, hMiner', h.revealed] at hNew
    cases hNew

theorem Spent.unpaid (h : Spent node.cache r m) (hRecords : RecordsPayable env node.cache)
    (hBlock : AcceptedBlock env node block) (hw : w ∈ blockPayments env node block) :
    w.responseTo ≠ some (r, m) := by
  intro hTo
  rcases responseTo_cases hRecords (owed_of_blockPayments hw).2 hTo with
    ⟨tx, hTx, hPaid, rfl, rfl⟩ | ⟨resp, req, hResp, hReq, hMiner, hUnpaid, hRoute, _⟩
  · have hPhase : tx.opoiResponsePhase = 1 := by
      simp only [paidAtOnce, Bool.and_eq_true, beq_iff_eq] at hPaid
      exact hPaid.1.1
    have hNew := (answer_of_block hBlock hTx hPhase).2.2
    rw [h.revealed] at hNew
    cases hNew
  · rcases h.settled with hPaid | hRecord
    · rw [hUnpaid] at hPaid
      cases hPaid
    · obtain ⟨hOpen, hMissed⟩ := hRecord resp req hResp hReq hMiner
      rw [hOpen, hMissed] at hRoute
      cases hRoute

/-- Over a forward run whose blocks meet the condition, the checks demand at most one payment
    for the response of a miner to a request. -/
theorem paymentsOfRun_le_one (env : Env) (blocks : List CBlock) (node : NodeState) (r m : String)
    (hRun : ForwardRun env (PaysOnce env) blocks node) :
    (paymentsOfRun env blocks).countP (fun w => w.responseTo == some (r, m)) ≤ 1 := by
  refine hRun.countP_trace_le_one (fun node => Reachable env node ∧ RevealsRecorded node.cache)
    (fun node => Spent node.cache r m) ?_ ?_ ?_ (fun _ _ _ _ _ hTip h => h.step hTip) ?_
    ⟨.refl, fun r resp h => by simp [NodeState.init] at h⟩
  · rintro node block node' ⟨hReach, hReveals⟩ _ hTip
    exact ⟨hReach.tail (.connect hTip), revealsRecorded_of_connectTip hReveals hTip⟩
  · rintro node block node' ⟨hReach, hReveals⟩ hOnce hTip
    have hOwed := countP_owed_le_one (r := r) (m := m) (recordsPayable_of_reachable hReach) hReveals
      (connectTip_cache hTip).1 hOnce
    unfold blockPayments
    split
    · exact Nat.le_trans Greedy.taken_sublist.countP_le hOwed
    · simp
  · rintro node block node' ⟨hReach, hReveals⟩ hOnce hTip hPos
    obtain ⟨w, hw, hTo⟩ := countP_pos_iff.mp hPos
    exact spent_of_payment (recordsPayable_of_reachable hReach) hReveals hOnce hTip hw
      (by simpa using hTo)
  · rintro node block node' ⟨hReach, _⟩ _ hTip hSpent
    rw [countP_eq_zero]
    intro w hw
    simpa using hSpent.unpaid (recordsPayable_of_reachable hReach) (connectTip_cache hTip).1 hw

end PaidOnce

def sampleCommittedBlocks : List CBlock := sampleStaked
  [sampleBlock 4 [sampleRequest "r" "alice" 2 0],
   sampleBlock 5 [sampleResponseCommit "r" sampleMiner 3]]

/-- An answer that is revealed once is paid once. -/
theorem paymentsOfRun_le_one_of_reveal :
    (∃ node, ForwardRun sampleNet (PaysOnce sampleNet)
      (sampleCommittedBlocks ++ [⟨6, [sampleCoinbase [(sampleMiner, 5)] 6,
        sampleResponseReveal "r" sampleMiner 4]⟩]) node) ∧
    paymentsOfRun sampleNet
      (sampleCommittedBlocks ++ [⟨6, [sampleCoinbase [(sampleMiner, 5)] 6,
        sampleResponseReveal "r" sampleMiner 4]⟩]) = [.response ⟨"r", sampleMiner, 5⟩] ∧
    (paymentsOfRun sampleNet (sampleCommittedBlocks ++ [⟨6, [sampleCoinbase [(sampleMiner, 5)] 6,
        sampleResponseReveal "r" sampleMiner 4]⟩])).countP
      (fun w => w.responseTo == some ("r", sampleMiner)) ≤ 1 := by
  exact ⟨⟨_, Run.steps_value .other (by decide +kernel)⟩, by decide +kernel,
    paymentsOfRun_le_one _ _ _ "r" sampleMiner (Run.steps_value .other (by decide +kernel))⟩

/-- Two REVEALs of one answer in one block. Neither is known before the block, so both are
    accepted and both are paid. -/
def doubleRevealBlocks : List CBlock :=
  sampleCommittedBlocks ++ [⟨6, [sampleCoinbase [(sampleMiner, 5), (sampleMiner, 5)] 6,
    sampleResponseReveal "r" sampleMiner 4, sampleResponseReveal "r" sampleMiner 5]⟩]

theorem paymentsOfRun_of_two_reveals :
    (∃ node, PlainRun sampleNet doubleRevealBlocks node) ∧
    paymentsOfRun sampleNet doubleRevealBlocks =
      [.response ⟨"r", sampleMiner, 5⟩, .response ⟨"r", sampleMiner, 5⟩] ∧
    1 < (paymentsOfRun sampleNet doubleRevealBlocks).countP
      (fun w => w.responseTo == some ("r", sampleMiner)) := by
  have hPayments : paymentsOfRun sampleNet doubleRevealBlocks =
      [.response ⟨"r", sampleMiner, 5⟩, .response ⟨"r", sampleMiner, 5⟩] := by decide +kernel
  exact ⟨Run.exists_run .other (by decide +kernel), hPayments, by rw [hPayments]; decide⟩

end CloudService
