/-
  A record names an address that has signed a transaction, so every address that the coinbase
  may have to pay is a valid destination.
-/

import CloudService.Chain.Reachable
import CloudService.Challenges.Rewards
import CloudService.Coinbase.Demanded
import CloudService.OPoI.TxEffects
import CloudService.Shards.Majority

namespace CloudService

open OPoICache TreeMap List

def payable (env : Env) (address : String) : Prop :=
  isValidDestination (env.decodeDestination address) = true

/-- The transaction names valid addresses where a payment may go to them. -/
structure Signed (env : Env) (tx : CTransaction) : Prop where
  response : tx.opoiType = .response → payable env tx.opoiMinerAddress
  shardResult : tx.opoiType = .shardResult → payable env tx.opoiMinerAddress
  challenge : tx.opoiType = .challenge → payable env tx.opoiRequester

/-- The records name valid addresses, and those of a request stand under its id. -/
structure RecordsPayable (env : Env) (c : OPoICache) : Prop where
  responses : ∀ (r : String) (resp : OPoIResponse), c.mapResponses[r]? = some resp →
    resp.requestId = r ∧ payable env resp.minerAddress
  challenges : ∀ (r : String) (ch : OPoIChallenge), c.mapChallenges[r]? = some ch →
    ch.requestId = r ∧ payable env ch.challengerAddress
  submissions : ∀ (key : String) (subs : List ShardResultSubmission),
    c.mapShardResults[key]? = some subs → ∀ s ∈ subs, payable env s.minerAddress

section Addresses

variable {env : Env} {c c' : OPoICache} {tx : CTransaction} {hashes : List Uint256}
  {blockHeight : Nat}

/-! ## Acceptance -/

theorem signed_of_accepted (h : checkOPoITransaction env false hashes c tx = .ok ())
    (hOPoI : tx.isOPoITx = true) : Signed env tx := by
  have hBranch := checkOPoITransaction_branch h hOPoI
  refine ⟨fun hType => ?_, fun hType => ?_, fun hType => ?_⟩
  · simp only [hType, checkResponse, check_bind_eq_ok] at hBranch
    obtain ⟨_, _, _, _, _, hPhase⟩ := hBranch
    split at hPhase
    · simp only [checkResponseCommit, check_bind_eq_ok] at hPhase
      obtain ⟨_, _, _, hSig⟩ := hPhase
      exact env.isValidDestination_of_verifyOPoISig (requireSig_eq_ok hSig)
    · simp only [checkResponseReveal, check_bind_eq_ok] at hPhase
      obtain ⟨_, _, _, _, _, _, _, hSig⟩ := hPhase
      exact env.isValidDestination_of_verifyOPoISig (requireSig_eq_ok hSig)
  · simp only [hType, checkShardResult, check_bind_eq_ok] at hBranch
    obtain ⟨_, _, _, _, _, _, _, hSig⟩ := hBranch
    exact env.isValidDestination_of_verifyOPoISig (requireSig_eq_ok hSig)
  · simp only [hType] at hBranch
    obtain ⟨_, _, hPhase⟩ := checkChallenge_eq_ok hBranch
    split at hPhase
    · exact env.isValidDestination_of_verifyOPoISig (checkChallengeCommit_eq_ok hPhase).2.2
    · simp only [checkChallengeReveal, check_bind_eq_ok] at hPhase
      obtain ⟨_, _, _, _, _, hSig⟩ := hPhase
      exact env.isValidDestination_of_verifyOPoISig (requireSig_eq_ok hSig)

/-! ## Changes of the cache -/

namespace RecordsPayable

section

variable (h : RecordsPayable env c)

include h

theorem responsesKeyed : ResponsesKeyed c := fun key resp hResp => (h.responses key resp hResp).1

theorem of_eq (hResponses : c'.mapResponses = c.mapResponses)
    (hChallenges : c'.mapChallenges = c.mapChallenges)
    (hShards : c'.mapShardResults = c.mapShardResults) : RecordsPayable env c' where
  responses := hResponses ▸ h.responses
  challenges := hChallenges ▸ h.challenges
  submissions := hShards ▸ h.submissions

theorem modifyChallenge {key : String} {f : OPoIChallenge → OPoIChallenge}
    (hResponses : c'.mapResponses = c.mapResponses)
    (hChallenges : c'.mapChallenges = c.mapChallenges.modify key f)
    (hShards : c'.mapShardResults = c.mapShardResults)
    (hf : ∀ ch, (f ch).requestId = ch.requestId ∧ (f ch).challengerAddress = ch.challengerAddress) :
    RecordsPayable env c' where
  responses := hResponses ▸ h.responses
  challenges := hChallenges ▸ forall_modify h.challenges fun ch hCh => by
    rwa [(hf ch).1, (hf ch).2]
  submissions := hShards ▸ h.submissions

theorem payable_of_mem {r : String} {i : Nat} {s : ShardResultSubmission}
    (hMem : s ∈ c.listShardResults r i) : payable env s.minerAddress := by
  rw [listShardResults, Std.ExtTreeMap.getD_eq_getD_getElem?] at hMem
  cases hList : c.mapShardResults[shardKey r i]? with
  | none =>
    rw [hList] at hMem
    cases hMem
  | some subs =>
    rw [hList] at hMem
    exact h.submissions _ subs hList s hMem

theorem apply (hTx : Signed env tx) :
    RecordsPayable env (applyOPoITransaction env hashes blockHeight c tx) where
  responses r resp hResp := by
    by_cases hReveal : tx.opoiType = .response ∧ tx.opoiResponsePhase ≠ 0
    · simp only [applyOPoITransaction, hReveal.1, if_neg hReveal.2, applyResponseReveal,
        modifyRequest, modifyStake, addResponse] at hResp
      exact forall_insert h.responses ⟨rfl, hTx.response hReveal.1⟩ r resp hResp
    · rw [(applyOPoITransaction_txFrame env blockHeight c tx hashes).responses
        (by simpa using hReveal)] at hResp
      exact h.responses r resp hResp
  challenges r ch hCh := by
    obtain ⟨hType, _, hMap⟩ | ⟨_, _, hMap⟩ | ⟨_, hMap⟩ :=
      mapChallenges_cases env hashes blockHeight c tx
    · rw [hMap] at hCh
      refine forall_insert h.challenges ?_ r ch hCh
      exact ⟨rfl, hTx.challenge hType⟩
    · rw [hMap] at hCh
      refine forall_modify h.challenges ?_ r ch hCh
      exact fun _ h => h
    · rw [hMap] at hCh
      exact h.challenges r ch hCh
  submissions key subs hSubs s hMem := by
    by_cases hType : tx.opoiType = .shardResult
    · simp only [applyOPoITransaction, hType, applyShardResult, addShardResult,
        getElem?_insert_eq] at hSubs
      split at hSubs
      · cases hSubs
        split at hMem
        · exact h.payable_of_mem hMem
        · rcases mem_append.mp hMem with hFirst | hLast
          · exact h.payable_of_mem hFirst
          · rw [mem_singleton.mp hLast]
            exact hTx.shardResult hType
      · exact h.submissions key subs hSubs s hMem
    · rw [(applyOPoITransaction_txFrame env blockHeight c tx hashes).submissions hType] at hSubs
      exact h.submissions key subs hSubs s hMem

theorem undoChallengeReveal : RecordsPayable env (undoChallengeReveal c tx) := by
  unfold CloudService.undoChallengeReveal
  split
  · exact h
  · split
    · rw [modifyResponderStake_eq]
      exact h.modifyChallenge rfl rfl rfl fun _ => ⟨rfl, rfl⟩
    · exact h.modifyChallenge rfl rfl rfl fun _ => ⟨rfl, rfl⟩
    · exact h.modifyChallenge rfl rfl rfl fun _ => ⟨rfl, rfl⟩

theorem undoAuditorVerify : RecordsPayable env (undoAuditorVerify c tx) := by
  unfold CloudService.undoAuditorVerify unlockUnlessSlashed
  split <;> dsimp only <;> split <;> exact h.of_eq rfl rfl rfl

theorem undo : RecordsPayable env (undoOPoITransaction c tx) := by
  unfold undoOPoITransaction
  cases hType : tx.opoiType with
  | response =>
    dsimp only
    split
    · exact h.of_eq rfl rfl rfl
    · exact ⟨forall_erase h.responses, h.challenges, h.submissions⟩
  | challenge =>
    dsimp only
    split
    · exact ⟨h.responses, forall_erase h.challenges, h.submissions⟩
    · exact h.undoChallengeReveal
  | shardResult =>
    exact ⟨h.responses, h.challenges, forall_modify h.submissions fun subs hSubs s hMem =>
      hSubs s (mem_of_mem_filter hMem)⟩
  | auditorVerify => exact h.undoAuditorVerify
  | request | stake | unstake | renew | modelRegister | modelVote | coordinatorClaim | unknown =>
    exact h.of_eq rfl rfl rfl

end

end RecordsPayable

theorem passPreserved_recordsPayable : PassPreserved env blockHeight (RecordsPayable env) where
  toLatePreserved := by
    have hFixed : RecordsPayable env = fun c => RecordsPayable env c.lateFixed :=
      funext fun c => propext ⟨fun h => h.of_eq rfl rfl rfl, fun h => h.of_eq rfl rfl rfl⟩
    rw [hFixed]
    exact latePreserved_fixed env blockHeight (RecordsPayable env)
  rewardPaid _ _ h := h.of_eq rfl rfl rfl
  expireChallenge c key h := by
    rcases expireChallenge_cases env blockHeight c key with
      hEq | ⟨_, _, _, hEq⟩ | ⟨_, _, _, _, hEq⟩
    · rw [hEq]
      exact h
    · rw [hEq]
      exact h.modifyChallenge rfl rfl rfl fun _ => ⟨rfl, rfl⟩
    · rw [hEq]
      exact h.modifyChallenge rfl rfl rfl fun _ => ⟨rfl, rfl⟩

theorem recordsPayable_of_reachable {node : NodeState} (h : Reachable env node) :
    RecordsPayable env node.cache := by
  have hInvariant : CacheInvariant env (Signed env) (RecordsPayable env) :=
    { accepted := fun _ _ _ hAccepted hOPoI => signed_of_accepted hAccepted hOPoI
      onNull := fun _ => ⟨fun _ _ h => (by cases h), fun _ _ h => (by cases h),
        fun _ _ h => (by cases h)⟩
      onApply := fun _ _ _ _ hTx hc => hc.apply hTx
      onUndo := fun _ _ hc => hc.undo
      onPasses := fun _ => passPreserved_recordsPayable }
  exact hInvariant.reachable h

section Owed

variable {vtx : List CTransaction} {nHeight : Nat}

theorem mem_mergeShardResults {requestId : String} {shardIndex : Nat}
    {subs : List ShardResultSubmission} {s : ShardResultSubmission}
    (h : s ∈ mergeShardResults vtx requestId shardIndex subs) :
    s ∈ subs ∨ ∃ tx ∈ (blockTxs vtx .shardResult).filter (fun tx =>
      tx.opoiRequestId == requestId && tx.opoiShardIndex == shardIndex), s = submissionOf tx := by
  revert h
  refine foldlRecOn (motive := fun merged => s ∈ merged → s ∈ subs ∨
    ∃ tx ∈ (blockTxs vtx .shardResult).filter (fun tx => tx.opoiRequestId == requestId &&
      tx.opoiShardIndex == shardIndex), s = submissionOf tx) _ _ .inl fun merged ih tx hTx
        hMem => ?_
  split at hMem
  · exact ih hMem
  · rcases mem_append.mp hMem with hOld | hNew
    · exact ih hOld
    · exact .inr ⟨tx, hTx, mem_singleton.mp hNew⟩

theorem agreeing_of_majority {subs : List ShardResultSubmission} {least : Int} {m : ShardMajority}
    (h : computeShardMajority subs least = some m) {addr : String} (hMem : addr ∈ m.agreeing) :
    ∃ s ∈ subs, s.minerAddress = addr := by
  rw [(computeShardMajority_eq_some.mp h).2.agreeing] at hMem
  obtain ⟨s, hs, rfl⟩ := mem_map.mp hMem
  exact ⟨s, mem_of_mem_filter hs, rfl⟩

theorem shardPayment_of_mem {p : OPoIShardPayment} (h : p ∈ getShardPaymentsForBlock env c vtx) :
    0 < p.amount ∧ ∃ requestId shardIndex, ∃ s ∈ mergeShardResults vtx requestId shardIndex
      (c.listShardResults requestId shardIndex), s.minerAddress = p.minerAddress := by
  obtain ⟨key, _, hFor⟩ := mem_flatMap.mp h
  rcases shardPaymentsFor_cases key.1 key.2 with
    hNil | ⟨req, majority, share, _, _, hMajority, _, _, _, hAmount, hEq⟩
  · rw [hNil] at hFor
    cases hFor
  · rw [hEq] at hFor
    obtain ⟨addr, hAddr, rfl⟩ := mem_map.mp hFor
    exact ⟨hAmount, key.1, key.2, agreeing_of_majority hMajority hAddr⟩

theorem aggregate_of_mem {payments : List OPoIShardPayment} {entry : String × CAmount}
    (h : entry ∈ aggregateShardPayments payments) (hPos : ∀ p ∈ payments, 0 < p.amount) :
    0 < entry.2 ∧ ∃ p ∈ payments, p.minerAddress = entry.1 := by
  have hFold : ∀ (miner : String) (sum : CAmount),
      (payments.foldl (fun (aggregated : StrMap CAmount) p => aggregated.insert p.minerAddress
        (aggregated.getD p.minerAddress 0 + p.amount)) ∅)[miner]? = some sum →
      0 < sum ∧ ∃ p ∈ payments, p.minerAddress = miner := by
    refine foldlRecOn (motive := fun aggregated : StrMap CAmount => ∀ miner sum,
      aggregated[miner]? = some sum → 0 < sum ∧ ∃ p ∈ payments, p.minerAddress = miner) _ _
      (fun _ _ hNone => by simp at hNone) fun aggregated ih p hp miner sum hSum => ?_
    rw [getElem?_insert_eq] at hSum
    split at hSum
    · rename_i hMiner
      cases hSum
      refine ⟨?_, p, hp, hMiner⟩
      rw [Std.ExtTreeMap.getD_eq_getD_getElem?]
      cases hOld : aggregated[p.minerAddress]? with
      | none => simpa using hPos p hp
      | some old =>
        exact Int.add_pos (ih _ old hOld).1 (hPos p hp)
    · exact ih miner sum hSum
  refine hFold entry.1 entry.2 ?_
  exact Std.ExtTreeMap.mem_toList_iff_getElem?_eq_some.mp h

theorem totalPayment_pos {req : OPoIRequest} (h : 0 < req.payment) (tokenCount : Nat) :
    0 < totalPayment req tokenCount := by
  unfold totalPayment
  split
  · rename_i hFee
    have hTokens : 0 ≤ (tokenCount : CAmount) * req.feePerToken :=
      Int.mul_nonneg (Int.natCast_nonneg _) (Int.le_of_lt hFee.1)
    exact Int.add_pos_of_pos_of_nonneg h hTokens
  · exact h

theorem owed_pos : ∀ w ∈ owed env c vtx hashes nHeight, 0 < w.amount := by
  intro w hMem
  rcases mem_owed.mp hMem with ⟨p, hp, rfl⟩ | ⟨p, hp, rfl⟩ | ⟨resp, req, h, rfl⟩
  · obtain ⟨_, _, _, _, _, hPayment, _, _, rfl⟩ := mem_immediatePayments.mp hp
    exact totalPayment_pos hPayment _
  · exact (aggregate_of_mem hp fun q hq => (shardPayment_of_mem hq).1).1
  · rw [(Owed.obligation_recorded req resp).2]
    exact totalPayment_pos h.payment _

end Owed

end Addresses

end CloudService
