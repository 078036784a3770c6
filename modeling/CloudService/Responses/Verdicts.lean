/-
  The votes of the auditors are kept for a request, without the answer that they are about.
  Every vote is traced back to its turn.
-/

import CloudService.Chain.Turns
import CloudService.Coinbase.Addresses
import CloudService.Responses.Reveals

namespace CloudService

open OPoICache List

def OPoIResponse.answer (resp : OPoIResponse) : String × Uint256 :=
  (resp.minerAddress, resp.responseHash)

def OPoICache.answerTo (c : OPoICache) (r : String) : Option (String × Uint256) :=
  (c.mapResponses[r]?).map OPoIResponse.answer

/-- The OPoI transactions of a run with the caches that they are applied to. -/
def turnsOfRun (env : Env) (blocks : List CBlock) : List (OPoICache × CTransaction) :=
  (blockTrace env blocks).flatMap fun e => turns env e.1 e.2

def isVoteOn (tx : CTransaction) (r : String) : Bool :=
  tx.opoiType == .auditorVerify && tx.opoiRequestId == r

/-- At this turn the vote of an auditor on a response is recorded: it is the first one. -/
def recordsVote (e : OPoICache × CTransaction) (r a : String) : Bool :=
  isVoteOn e.2 r && e.2.opoiShardIndex == OPOI_AUDITOR_VERIFY_NO_SHARD &&
    e.2.opoiAuditorAddress == a && !hasVoted (e.1.getAuditorVerifications r) a

def CastOn (past : List (OPoICache × CTransaction)) (r a : String) (answer : String × Uint256) :
    Prop :=
  ∃ e ∈ past, recordsVote e r a = true ∧ e.1.answerTo r = some answer

def VotesFitAt (past : List (OPoICache × CTransaction)) (c : OPoICache) (r : String) : Prop :=
  ∀ resp : OPoIResponse, c.mapResponses[r]? = some resp → ∀ v ∈ c.getAuditorVerifications r,
    CastOn past r v.auditorAddress resp.answer

def VotesFit (past : List (OPoICache × CTransaction)) (c : OPoICache) : Prop :=
  ∀ r, VotesFitAt past c r

section Passes

variable (env : Env) (node : NodeState) (block : CBlock)

def beforeChallenges : OPoICache :=
  processChallengerRewardPayments env block.vtx (afterTxs env node block.vtx)

def beforeResolution : OPoICache :=
  markPayments env node.nextHeight
    (earlyPasses env node.nextHeight
      (expireChallenges env node.nextHeight (beforeChallenges env node block))) block.vtx

/-- The verdicts of a block apply to the answers that their votes were cast on: payments, proven
    challenges and canary strikes. -/
structure VerdictsFit (past : List (OPoICache × CTransaction)) : Prop where
  paid : ∀ p ∈ getVerifiablePaymentsForBlock env node.cache block.vtx, ∃ resp : OPoIResponse,
    node.cache.mapResponses[p.requestId]? = some resp ∧ resp.minerAddress = p.minerAddress ∧
    (∀ v ∈ node.cache.getAuditorVerifications p.requestId,
      CastOn past p.requestId v.auditorAddress resp.answer) ∧
    ∀ e ∈ turns env node block, isVoteOn e.2 p.requestId = true →
      e.1.answerTo p.requestId = some resp.answer
  revealed : ∀ e ∈ turns env node block, e.2.opoiType = .challenge →
    e.2.opoiChallengePhase ≠ 0 → revealOutcome env e.1 e.2 = .slashed →
    VotesFitAt (past ++ turns env node block) e.1 e.2.opoiRequestId
  proven : ∀ e ∈ Run.withStates (expireChallenge env node.nextHeight)
      (beforeChallenges env node block) (beforeChallenges env node block).mapChallenges.keys,
    ∀ ch : OPoIChallenge, e.1.mapChallenges[e.2]? = some ch → ch.isPendingResolution = true →
      e.1.getAuditorMajorityResult ch.requestId env.params.nOPoIMinAuditors =
        some AUDITOR_VERIFY_FAIL →
      VotesFitAt (past ++ turns env node block) e.1 ch.requestId
  struck : ∀ e ∈ Run.withStates (resolveAuditors env) (beforeResolution env node block)
      (beforeResolution env node block).mapAuditorVerifications.keys,
    e.1.isAuditorResolved e.2 = false →
      e.1.getAuditorMajorityResult e.2 env.params.nOPoIMinAuditors = some AUDITOR_VERIFY_FAIL →
      (e.1.mapRequests[e.2]?).any (·.isCanary != 0) = true →
      VotesFitAt (past ++ turns env node block) e.1 e.2

end Passes

/-- A REVEAL that changes the answer finds no vote, and a vote finds the answer from before the
    block. -/
def verdictSafe (c₀ c : OPoICache) (tx : CTransaction) : Bool :=
  (!isReveal tx || (c.getAuditorVerifications tx.opoiRequestId).isEmpty ||
    c.answerTo tx.opoiRequestId == some (tx.opoiMinerAddress, tx.opoiResponseHash)) &&
  (!(tx.opoiType == .auditorVerify) || (c₀.answerTo tx.opoiRequestId).isNone ||
    c.answerTo tx.opoiRequestId == c₀.answerTo tx.opoiRequestId)

/-- `verdictSafe` at every turn of the block. -/
def VerdictSafe (env : Env) (node : NodeState) (block : CBlock) : Prop :=
  ∀ e ∈ turns env node block, verdictSafe node.cache e.1 e.2 = true
deriving Decidable

section Verdicts

variable {env : Env} {chainActive : List Uint256} {height : Nat} {c c₀ c' : OPoICache}
  {tx : CTransaction} {node node' : NodeState} {block : CBlock} {r a : String}
  {past past' : List (OPoICache × CTransaction)}

theorem VotesFitAt.mono (h : VotesFitAt past c r) (hSub : past ⊆ past') :
    VotesFitAt past' c r := by
  intro resp hResp v hv
  obtain ⟨e, he, hCast⟩ := h resp hResp v hv
  exact ⟨e, hSub he, hCast⟩

/-! ## One transaction -/

theorem answerTo_of_get {resp : OPoIResponse} (h : c.mapResponses[r]? = some resp) :
    c.answerTo r = some resp.answer := by
  rw [answerTo, h, Option.map_some]

theorem answerTo_apply :
    (applyOPoITransaction env chainActive height c tx).answerTo r =
      if isReveal tx && tx.opoiRequestId == r then some (tx.opoiMinerAddress, tx.opoiResponseHash)
      else c.answerTo r := by
  rw [answerTo, mapResponses_apply]
  cases hReveal : isReveal tx with
  | false => rfl
  | true =>
    simp only [if_true, Bool.true_and, beq_iff_eq]
    rw [TreeMap.getElem?_insert_eq]
    split
    · rfl
    · rfl

theorem mem_votes_apply {v : AuditorVerification}
    (h : v ∈ (applyOPoITransaction env chainActive height c tx).getAuditorVerifications r) :
    v ∈ c.getAuditorVerifications r ∨ recordsVote (c, tx) r v.auditorAddress = true := by
  rcases votes_cases env chainActive height c tx with ⟨hType, hWhole, hMap, _⟩ | ⟨_, _, hMap, _⟩ |
    ⟨_, hMap, _⟩
  · rw [getAuditorVerifications, hMap, TreeMap.getD_insert_eq] at h
    split at h
    · rename_i hId
      rw [addVote, hId] at h
      split at h
      · exact .inl h
      · rename_i hNew
        rcases mem_append.mp h with hOld | hLast
        · exact .inl hOld
        · rw [mem_singleton.mp hLast]
          right
          simp only [recordsVote, isVoteOn, hType, hId, hWhole, newVote, hasVoted, beq_self_eq_true,
            Bool.true_and, Bool.not_eq_true']
          rw [Bool.eq_false_iff]
          exact hNew
    · exact .inl h
  · rw [getAuditorVerifications, hMap] at h
    exact .inl h
  · rw [getAuditorVerifications, hMap] at h
    exact .inl h

theorem VotesFit.apply (h : VotesFit past c) (hSafe : verdictSafe c₀ c tx = true) :
    VotesFit (past ++ [(c, tx)]) (applyOPoITransaction env chainActive height c tx) := by
  intro r resp hResp v hv
  have hAnswer := answerTo_of_get hResp
  rw [answerTo_apply] at hAnswer
  have hKept : c.answerTo r = some resp.answer → v ∈ c.getAuditorVerifications r →
      CastOn (past ++ [(c, tx)]) r v.auditorAddress resp.answer := by
    intro hOld hMem
    obtain ⟨old, hGet, hSame⟩ := Option.map_eq_some_iff.mp hOld
    obtain ⟨e, he, hCast⟩ := h r old hGet v hMem
    rw [hSame] at hCast
    exact ⟨e, mem_append_left _ he, hCast⟩
  split at hAnswer
  · rename_i hReveal
    simp only [Bool.and_eq_true, beq_iff_eq] at hReveal
    obtain ⟨hReveal, rfl⟩ := hReveal
    -- a REVEAL records no vote, and it finds no vote or the same answer
    have hMem : v ∈ c.getAuditorVerifications tx.opoiRequestId := by
      refine (mem_votes_apply hv).resolve_right fun hRecords => ?_
      simp only [isReveal, Bool.and_eq_true, beq_iff_eq] at hReveal
      simp [recordsVote, isVoteOn, hReveal.1] at hRecords
    simp only [verdictSafe, hReveal, Bool.not_true, Bool.false_or, Bool.and_eq_true,
      Bool.or_eq_true, List.isEmpty_iff, beq_iff_eq] at hSafe
    rcases hSafe.1 with hNone | hSame
    · rw [hNone] at hMem
      cases hMem
    · exact hKept (hSame.trans hAnswer) hMem
  · rcases mem_votes_apply hv with hMem | hRecords
    · exact hKept hAnswer hMem
    · exact ⟨(c, tx), by simp, hRecords, hAnswer⟩

/-! ## Passes -/

theorem VotesFit.of_eq (h : VotesFit past c) (hResponses : c'.mapResponses = c.mapResponses)
    (hVotes : ∀ r, ∀ v' ∈ c'.getAuditorVerifications r, ∃ v ∈ c.getAuditorVerifications r,
      v.auditorAddress = v'.auditorAddress) : VotesFit past c' := by
  intro r resp hResp v' hv'
  rw [hResponses] at hResp
  obtain ⟨v, hv, hSame⟩ := hVotes r v' hv'
  rw [← hSame]
  exact h r resp hResp v hv

theorem VotesFit.quiet (h : VotesFit past c) (hResponses : c'.mapResponses = c.mapResponses)
    (hVotes : c'.mapAuditorVerifications = c.mapAuditorVerifications) : VotesFit past c' :=
  h.of_eq hResponses fun r v hv => ⟨v, by
    rw [getAuditorVerifications, hVotes] at hv
    exact hv, rfl⟩

theorem VotesFit.resolveAuditors (h : VotesFit past c) (requestId : String) :
    VotesFit past (resolveAuditors env c requestId) := by
  rcases resolveAuditors_cases env c requestId with hEq | ⟨majority, _, _, _, _, hEq⟩
  · rw [hEq]
    exact h
  · obtain ⟨stakes, hCanary⟩ := resolveCanary_eq _ majority requestId
    rw [hEq, hCanary]
    refine h.of_eq rfl fun r v' hv' => ?_
    rw [getAuditorVerifications, TreeMap.getD_modify_map] at hv'
    split at hv'
    · obtain ⟨v, hv, rfl⟩ := mem_map.mp hv'
      exact ⟨v, hv, rfl⟩
    · exact ⟨v', hv', rfl⟩

theorem passPreserved_votesFit : PassPreserved env height (VotesFit past) := by
  refine .of_votes (fun h hResponses hVotes _ => h.quiet hResponses hVotes)
    (fun _ r h => h.resolveAuditors r) fun c key h => ?_
  obtain ⟨_, _, _, _, hEq⟩ := resolveShardAuditors_eq env c key
  rw [hEq]
  exact h.quiet rfl rfl

/-! ## A block -/

section

variable (h : VotesFit past node.cache) (hSafe : VerdictSafe env node block)

include h hSafe

theorem VotesFit.eachTurn :
    VotesFit (past ++ turns env node block) (afterTxs env node block.vtx) ∧
      ∀ e ∈ turns env node block, VotesFit (past ++ turns env node block) e.1 := by
  obtain ⟨hEnd, hBefore⟩ := Run.withStates_past VotesFit (opoiTxs block.vtx) node.cache
    past h fun _ e he hc => hc.apply (hSafe e he)
  refine ⟨hEnd, fun e he r => ?_⟩
  obtain ⟨before, hSub, hc⟩ := hBefore e he
  exact (hc r).mono (append_subset.mpr ⟨subset_append_left _ _,
    subset_append_of_subset_right _ hSub⟩)

theorem VotesFit.connectTip (hTip : connectTip env node block = .ok node') :
    VotesFit (past ++ turns env node block) node'.cache := by
  obtain ⟨_, _, hCache⟩ := connectTip_cache hTip
  rw [hCache]
  split
  · exact passPreserved_votesFit.connectPasses (h.eachTurn hSafe).1 block.vtx
  · intro r
    exact (h r).mono (subset_append_left _ _)

theorem VotesFit.verdictsFit (hRecords : RecordsPayable env node.cache) :
    VerdictsFit env node block past := by
  obtain ⟨hAfter, hTurns⟩ := h.eachTurn hSafe
  have hPass := @passPreserved_votesFit env node.nextHeight (past ++ turns env node block)
  have hChallenges := hPass.processChallengerRewardPayments hAfter block.vtx
  have hExpired : VotesFit (past ++ turns env node block)
      (expireChallenges env node.nextHeight (beforeChallenges env node block)) :=
    foldlRecOn _ _ hChallenges fun c hc key _ => hPass.expireChallenge c key hc
  have hResolution : VotesFit (past ++ turns env node block) (beforeResolution env node block) :=
    hPass.toSettlePreserved.markPayments (hPass.toEarlyPreserved.earlyPasses hExpired) block.vtx
  refine ⟨fun p hp => ?_, fun e he _ _ _ => hTurns e he _, fun e he ch _ _ _ => ?_,
    fun e he _ _ _ => ?_⟩
  · obtain ⟨resp, req, hDue, _, rfl⟩ := (mem_getVerifiablePaymentsForBlock node.nextHeight).mp hp
    have hResp := hDue.response hRecords.responsesKeyed
    refine ⟨resp, hResp, rfl, h _ resp hResp, fun e he hVote => ?_⟩
    -- a vote of the block finds the answer from before the block
    have hTurn := hSafe e he
    simp only [isVoteOn, Bool.and_eq_true, beq_iff_eq] at hVote
    have hId : e.2.opoiRequestId = resp.requestId := hVote.2
    rw [verdictSafe, Bool.and_eq_true, hId, answerTo_of_get hResp, hVote.1] at hTurn
    have hFound : e.1.answerTo resp.requestId = some resp.answer := by simpa using hTurn.2
    exact hFound
  · exact (Run.withStates_invariant _ _ hChallenges
      (fun c key _ hc => hPass.expireChallenge c key hc) e he).1 ch.requestId
  · exact (Run.withStates_invariant _ _ hResolution
      (fun c key _ hc => hPass.resolveAuditors c key hc) e he).1 e.2

end

/-! ## Runs -/

theorem votesFit_init : VotesFit [] {} := by
  intro r resp hResp
  cases hResp

/-- In every forward run whose blocks meet the condition, the verdicts of the next block apply
    to the answers that their votes were cast on. -/
theorem verdictsFit_of_run (env : Env) (blocks : List CBlock) (node : NodeState) (block : CBlock)
    (hRun : ForwardRun env (VerdictSafe env) blocks node) (hSafe : VerdictSafe env node block) :
    VerdictsFit env node block (turnsOfRun env blocks) := by
  have hFit := Run.Steps.invariant_trace
    (fun (past : List (NodeState × CBlock)) node =>
      VotesFit (past.flatMap fun e => turns env e.1 e.2) node.cache)
    (fun past s i t h hOk hStep => by
      rw [flatMap_append, flatMap_singleton]
      exact h.connectTip hOk hStep)
    hRun [] votesFit_init
  exact VotesFit.verdictsFit hFit hSafe
    (recordsPayable_of_reachable (reachable_of_forwardRun hRun))

end Verdicts

/-! ## An answer and another answer -/

def otherMiner : String := "nnnnnnnnnnnnnnnnnnnnnnnnnnnnnnnnn"

def pairParams : Params := { sampleParams with nOPoIMinAuditors := 2 }

def sampleFirstVote : List CBlock :=
  [sampleFunding,
   sampleBlock 3 [sampleStake sampleMiner ⟨4002, 0⟩ 1, sampleStake otherMiner ⟨4002, 1⟩ 2],
   sampleBlock 4 [sampleRequest "r" "alice" 3 1],
   sampleBlock 5 [sampleResponseCommit "r" sampleMiner 4, sampleResponseCommit "r" otherMiner 5],
   sampleBlock 6 [sampleResponseReveal "r" sampleMiner 6],
   sampleBlock 7 [sampleVote "r" "carol" ⟨4002, 3⟩ 7 AUDITOR_VERIFY_PASS]]

def sampleSecondVote (paid : String) : CBlock :=
  ⟨9, [sampleCoinbase [(paid, 5)] 9, sampleVote "r" "bob" ⟨4002, 2⟩ 9 AUDITOR_VERIFY_PASS]⟩

/-- The answer that both votes are about is paid. -/
theorem verdictsFit_of_two_votes :
    ∃ node node', ForwardRun (sampleEnv pairParams) (VerdictSafe (sampleEnv pairParams))
        sampleFirstVote node ∧
      connectTip (sampleEnv pairParams) node (sampleSecondVote sampleMiner) = .ok node' ∧
      getVerifiablePaymentsForBlock (sampleEnv pairParams) node.cache
        (sampleSecondVote sampleMiner).vtx = [⟨"r", sampleMiner, 5⟩] ∧
      VerdictsFit (sampleEnv pairParams) node (sampleSecondVote sampleMiner)
        (turnsOfRun (sampleEnv pairParams) sampleFirstVote) := by
  exact Run.exists_next_imp .other (fun node _ =>
      getVerifiablePaymentsForBlock (sampleEnv pairParams) node.cache
        (sampleSecondVote sampleMiner).vtx = [⟨"r", sampleMiner, 5⟩] ∧
      VerdictSafe (sampleEnv pairParams) node (sampleSecondVote sampleMiner)) (by decide +kernel)
    fun node _ hRun _ h => ⟨h.1, verdictsFit_of_run _ _ node _ hRun h.2⟩

/-- The other staker reveals after the vote of carol and replaces the answer. The vote of bob
    completes the verdict, and the other staker is paid for it. -/
def sampleReplacedAnswer : List CBlock :=
  sampleFirstVote ++ [sampleBlock 8 [sampleResponseReveal "r" otherMiner 8]]

theorem not_verdictsFit_of_replaced_answer :
    ∃ node node', PlainRun (sampleEnv pairParams) sampleReplacedAnswer node ∧
      connectTip (sampleEnv pairParams) node (sampleSecondVote otherMiner) = .ok node' ∧
      getVerifiablePaymentsForBlock (sampleEnv pairParams) node.cache
        (sampleSecondVote otherMiner).vtx = [⟨"r", otherMiner, 5⟩] ∧
      ¬VerdictsFit (sampleEnv pairParams) node (sampleSecondVote otherMiner)
        (turnsOfRun (sampleEnv pairParams) sampleReplacedAnswer) := by
  refine Run.exists_next_imp .other (fun (node : NodeState) _ =>
      getVerifiablePaymentsForBlock (sampleEnv pairParams) node.cache
        (sampleSecondVote otherMiner).vtx = [⟨"r", otherMiner, 5⟩] ∧
      hasVoted (node.cache.getAuditorVerifications "r") "carol" = true) (by decide +kernel)
    fun node _ _ _ ⟨hPaid, hVoted⟩ => ⟨hPaid, fun hFit => ?_⟩
  obtain ⟨resp, _, hMiner, hCast, _⟩ := hFit.paid ⟨"r", otherMiner, 5⟩ (by rw [hPaid]; simp)
  obtain ⟨v, hv, hCarol⟩ := any_eq_true.mp hVoted
  obtain ⟨e, he, hRecords, hAnswer⟩ := hCast v hv
  -- carol's vote was recorded on the answer of the first staker
  have hFirst : ∀ e ∈ turnsOfRun (sampleEnv pairParams) sampleReplacedAnswer,
      recordsVote e "r" "carol" = true → (e.1.answerTo "r").map Prod.fst = some sampleMiner := by
    decide +kernel
  rw [beq_iff_eq] at hCarol
  have hOther := hFirst e he (hCarol ▸ hRecords)
  rw [hAnswer, Option.map_some, Option.some.injEq] at hOther
  have hSame : sampleMiner = otherMiner := hOther.symm.trans hMiner
  exact absurd hSame (by decide)

end CloudService
