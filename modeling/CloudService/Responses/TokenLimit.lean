/-
  What a response may cost. No check compares the declared tokens with the number that the
  request allows.
-/

import CloudService.Responses.PaidOnce

namespace CloudService

open OPoIRequest

def OPoIRequest.allowance (req : OPoIRequest) : CAmount :=
  req.payment + (req.maxTokens : CAmount) * max 0 req.feePerToken

def OPoIRequest.exceededBy (req : OPoIRequest) (tokenCount : Nat) : Bool :=
  decide (0 < req.feePerToken) && decide (req.maxTokens < tokenCount)

def Owed.responsePayment : Owed → Option OPoIResponsePayment
  | .response p | .verifiable p | .auditSample p => some p
  | .shards _ _ => none

/-- No payment of the block for a response exceeds what its request allows. -/
def WithinAllowance (env : Env) (node : NodeState) (block : CBlock) : Prop :=
  ∀ w ∈ blockPayments env node block, ∀ p, w.responsePayment = some p →
    ∃ req, node.cache.mapRequests[p.requestId]? = some req ∧ p.amount ≤ req.allowance

/-- No REVEAL of the block exceeds the tokens of a request on record. -/
def TokensAllowed (_ : Env) (node : NodeState) (block : CBlock) : Prop :=
  ∀ tx ∈ opoiTxs block.vtx, isReveal tx = true →
    (node.cache.mapRequests[tx.opoiRequestId]?).all (!·.exceededBy tx.opoiTokenCount) = true
deriving Decidable

def TokensRecorded (c : OPoICache) : Prop :=
  ∀ (r : String) (resp : OPoIResponse), c.mapResponses[r]? = some resp →
    ∃ req, c.mapRequests[r]? = some req ∧ req.exceededBy resp.tokenCount = false

section TokenLimit

variable {env : Env} {node node' : NodeState} {block : CBlock} {req req' : OPoIRequest}

theorem totalPayment_le_allowance {n : Nat} (h : req.exceededBy n = false) :
    totalPayment req n ≤ req.allowance := by
  simp only [exceededBy, Bool.and_eq_false_iff, decide_eq_false_iff_not, Nat.not_lt] at h
  unfold totalPayment allowance
  split
  · rename_i hPays
    have hTokens : n ≤ req.maxTokens := h.resolve_left (not_not.mpr hPays.1)
    rw [Int.max_eq_right (Int.le_of_lt hPays.1)]
    exact Int.add_le_add_left (Int.mul_le_mul_of_nonneg_right (Int.ofNat_le.mpr hTokens)
      (Int.le_of_lt hPays.1)) _
  · exact Int.le_add_of_nonneg_right
      (Int.mul_nonneg (Int.natCast_nonneg _) (Int.le_max_left 0 _))

theorem exceededBy_of_terms (h : req'.terms = req.terms) (n : Nat) :
    req'.exceededBy n = req.exceededBy n := by
  simp only [terms, OPoIRequest.mk.injEq] at h
  obtain ⟨_, _, _, _, hMax, _, hFee, _⟩ := h
  rw [exceededBy, exceededBy, hMax, hFee]

theorem TokensRecorded.connectTip (h : TokensRecorded node.cache)
    (hAllowed : TokensAllowed env node block) (hTip : connectTip env node block = .ok node') :
    TokensRecorded node'.cache := by
  have hKept := persists_of_connectTip hTip
  intro r resp hResp
  rw [mapResponses_of_connectTip hTip] at hResp
  suffices hBefore : ∃ req, node.cache.mapRequests[r]? = some req ∧
      req.exceededBy resp.tokenCount = false by
    obtain ⟨req, hReq, hTokens⟩ := hBefore
    obtain ⟨req', hReq', hEvolves⟩ := hKept.requests r req hReq
    exact ⟨req', hReq', by rw [exceededBy_of_terms hEvolves.terms, hTokens]⟩
  rcases response_of_afterTxs hResp with hOld | ⟨tx, hMem, hReveal, rfl, c, rfl⟩
  · exact h r resp hOld
  · obtain ⟨hBlock, _, _⟩ := connectTip_cache hTip
    obtain ⟨hIn, hOPoI⟩ := mem_opoiTxs.mp hMem
    obtain ⟨⟨req, hReq, _⟩, _⟩ := reveal_of_accepted (hBlock.txs tx hIn).checked hOPoI hReveal
    have hTokens := hAllowed tx hMem hReveal
    rw [hReq, Option.all_some, Bool.not_eq_true'] at hTokens
    exact ⟨req, hReq, hTokens⟩

theorem TokensRecorded.withinAllowance (h : TokensRecorded node.cache)
    (hAllowed : TokensAllowed env node block) (hRecords : RecordsPayable env node.cache)
    (hBlock : AcceptedBlock env node block) : WithinAllowance env node block := by
  intro w hw p hp
  rcases mem_owed.mp (owed_of_blockPayments hw).2 with ⟨q, hq, rfl⟩ | ⟨_, _, rfl⟩ |
    ⟨resp, req, hDue, rfl⟩
  · cases hp
    obtain ⟨tx, hTx, req, hPhase, hReq, _, _, _, rfl⟩ := mem_immediatePayments.mp hq
    obtain ⟨hMem, hReveal, _⟩ := answer_of_block hBlock hTx hPhase
    have hTokens := hAllowed tx hMem hReveal
    rw [hReq, Option.all_some, Bool.not_eq_true'] at hTokens
    exact ⟨req, hReq, totalPayment_le_allowance hTokens⟩
  · cases hp
  · have hPayment : p = responsePayment req resp := by
      unfold Owed.recorded at hp
      split at hp <;> exact (Option.some.inj hp).symm
    obtain ⟨req', hReq', hTokens⟩ := h _ resp (hDue.response hRecords.responsesKeyed)
    rw [hDue.request, Option.some.injEq] at hReq'
    rw [hPayment]
    exact ⟨req, hDue.request, totalPayment_le_allowance (hReq' ▸ hTokens)⟩

end TokenLimit

/-- In every forward run whose blocks meet the condition, the payments for responses that the
    next block demands are within what their requests allow. -/
theorem withinAllowance_of_run (env : Env) (blocks : List CBlock) (node node' : NodeState)
    (block : CBlock) (hRun : ForwardRun env (TokensAllowed env) blocks node)
    (hTip : connectTip env node block = .ok node') (hAllowed : TokensAllowed env node block) :
    WithinAllowance env node block := by
  have hRecorded : TokensRecorded node.cache :=
    hRun.invariant_trace (fun _ node => TokensRecorded node.cache)
      (fun _ _ _ _ h hOk hStep => h.connectTip hOk hStep) [] fun _ _ hResp => by cases hResp
  exact hRecorded.withinAllowance hAllowed
    (recordsPayable_of_reachable (reachable_of_forwardRun hRun)) (connectTip_cache hTip).1

/-! ## One token allowed -/

def sampleMetered : List CBlock := sampleStaked
  [sampleBlock 4 [{ sampleRequest "r" "alice" 2 0 with opoiMaxTokens := 1, opoiFeePerToken := 2 }],
   sampleBlock 5 [sampleResponseCommit "r" sampleMiner 3]]

def sampleMeteredReveal (tokenCount : Nat) : CBlock :=
  ⟨6, [sampleCoinbase [(sampleMiner, 5 + tokenCount * 2)] 6,
    { sampleResponseReveal "r" sampleMiner 4 with opoiTokenCount := tokenCount }]⟩

/-- One token is paid for. -/
theorem withinAllowance_of_one_token :
    ∃ node node', ForwardRun sampleNet (TokensAllowed sampleNet)
        sampleMetered node ∧
      connectTip sampleNet node (sampleMeteredReveal 1) = .ok node' ∧
      blockPayments sampleNet node (sampleMeteredReveal 1) = [.response ⟨"r", sampleMiner, 7⟩] ∧
      WithinAllowance sampleNet node (sampleMeteredReveal 1) := by
  exact Run.exists_next_imp .other (fun node _ =>
      blockPayments sampleNet node (sampleMeteredReveal 1) = [.response ⟨"r", sampleMiner, 7⟩] ∧
      TokensAllowed sampleNet node (sampleMeteredReveal 1)) (by decide +kernel)
    fun node node' hRun hTip h => ⟨h.1, withinAllowance_of_run _ _ node node' _ hRun hTip h.2⟩

/-- A miner who declares a hundred tokens is paid for a hundred. -/
theorem not_withinAllowance_of_hundred_tokens :
    ∃ node node', PlainRun sampleNet sampleMetered node ∧
      connectTip sampleNet node (sampleMeteredReveal 100) = .ok node' ∧
      (node.cache.mapRequests["r"]?).map allowance = some 7 ∧
      blockPayments sampleNet node (sampleMeteredReveal 100) = [.response ⟨"r", sampleMiner, 205⟩] ∧
      ¬WithinAllowance sampleNet node (sampleMeteredReveal 100) := by
  refine Run.exists_next_imp .other (fun (node : NodeState) _ =>
      (node.cache.mapRequests["r"]?).map allowance = some 7 ∧
      blockPayments sampleNet node (sampleMeteredReveal 100) =
        [.response ⟨"r", sampleMiner, 205⟩]) (by decide +kernel)
    fun node _ _ _ ⟨hAllowance, hPayments⟩ => ⟨hAllowance, hPayments, fun hWithin => ?_⟩
  obtain ⟨req, hReq, hLe⟩ := hWithin _ (by rw [hPayments]; exact List.mem_cons_self) _ rfl
  rw [hReq, Option.map_some, Option.some.injEq] at hAllowance
  rw [hAllowance] at hLe
  exact absurd hLe (by decide)

end CloudService
