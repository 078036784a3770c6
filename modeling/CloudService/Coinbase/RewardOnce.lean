/-
  A challenger reward is demanded once, unless a block replaces the challenge or the answer
  between the check and the mark.
-/

import CloudService.Coinbase.Marks

namespace CloudService

def blockRewards (env : Env) (node : NodeState) (block : CBlock) : List OPoIChallengerReward :=
  if env.params.opoiActive node.nextHeight then rewardsDemandedBy env node block else []

/-- The challenger rewards that the coinbases of a run have to pay. -/
def rewardsOfRun (env : Env) (blocks : List CBlock) : List OPoIChallengerReward :=
  (blockTrace env blocks).flatMap fun e => blockRewards env e.1 e.2

/-- A due reward has at most one REVEAL in the block, and is still due after its transactions. -/
@[mk_iff]
structure RewardsSettle (env : Env) (node : NodeState) (block : CBlock) : Prop where
  once : ∀ r ∈ node.cache.mapChallenges.keys, rewardDue env node.cache block.vtx r = true →
    (blockTxs block.vtx .challenge).countP (fun tx =>
      tx.opoiRequestId == r && announced env node.cache tx) ≤ 1
  due : ∀ r ∈ node.cache.mapChallenges.keys, rewardDue env node.cache block.vtx r = true →
    rewardDue env (afterTxs env node block.vtx) block.vtx r = true

instance {env : Env} {node : NodeState} {block : CBlock} :
    Decidable (RewardsSettle env node block) :=
  decidable_of_iff' _ (rewardsSettle_iff env node block)

section RewardOnce

variable {env : Env} {c : OPoICache} {vtx : List CTransaction} {node node' : NodeState}
  {block : CBlock} {r : String}

theorem countP_proven_le_one (hKeyed : ChallengesKeyed c) :
    ((TreeMap.vals c.mapChallenges).filterMap fun ch =>
      if ch.challengeStatus = .slashed then tryReward env c ch.requestId ch.challengerAddress
      else none).countP (·.requestId == r) ≤ 1 := by
  refine TreeMap.countP_filterMap_vals_le_one fun key key' ch ch' w w' hCh hCh' hw hw' hId
    hId' => ?_
  simp only [Option.ite_none_right_eq_some] at hw hw'
  rw [beq_iff_eq] at hId hId'
  rw [← hKeyed key ch hCh, ← hKeyed key' ch' hCh', ← (tryReward_eq_some hw.2).1,
    ← (tryReward_eq_some hw'.2).1, hId, hId']

theorem countP_rewards_le_one (hKeyed : ChallengesKeyed c)
    (hOnce : (blockTxs vtx .challenge).countP (fun tx => tx.opoiRequestId == r &&
      announced env c tx) ≤ 1) :
    (getChallengerRewardsAtHeight env c vtx).countP (·.requestId == r) ≤ 1 := by
  unfold getChallengerRewardsAtHeight
  split
  · simp
  · rw [List.countP_append]
    have hReveals : ((blockTxs vtx .challenge).filterMap (revealReward env c)).countP
        (·.requestId == r) ≤ (blockTxs vtx .challenge).countP (fun tx =>
          tx.opoiRequestId == r && announced env c tx) := by
      rw [List.countP_filterMap]
      refine List.countP_mono_left fun tx _ h => ?_
      rw [revealReward_eq] at h
      split at h
      · rename_i hAnnounced
        cases hReward : tryReward env c tx.opoiRequestId tx.opoiRequester with
        | none => simp [hReward] at h
        | some w =>
          have hId := (tryReward_eq_some hReward).1
          simp [hReward, hId] at h
          simp [h, hAnnounced]
      · simp at h
    have hProven := @countP_proven_le_one env c r hKeyed
    -- a proven challenge is not open, so it has no REVEAL that announces it
    rcases Nat.eq_zero_or_pos ((blockTxs vtx .challenge).countP (fun tx =>
        tx.opoiRequestId == r && announced env c tx)) with hNone | hSome
    · omega
    · obtain ⟨tx, _, hTx⟩ := List.countP_pos_iff.mp hSome
      simp only [announced, Bool.and_eq_true, beq_iff_eq, Option.any_eq_true] at hTx
      obtain ⟨rfl, ⟨⟨_, ch, hCh, hOpen⟩, _⟩, _⟩ := hTx
      have hZero : ((TreeMap.vals c.mapChallenges).filterMap fun ch =>
          if ch.challengeStatus = .slashed then tryReward env c ch.requestId ch.challengerAddress
          else none).countP (·.requestId == tx.opoiRequestId) = 0 := by
        rw [List.countP_eq_zero]
        intro w hw
        obtain ⟨ch', hVal, hReward⟩ := List.mem_filterMap.mp hw
        obtain ⟨key, hCh'⟩ := TreeMap.mem_vals.mp hVal
        split at hReward
        · rename_i hStatus
          rw [beq_iff_eq, (tryReward_eq_some hReward).1, hKeyed key ch' hCh']
          rintro rfl
          rw [hCh] at hCh'
          cases hCh'
          simp [OPoIChallenge.isOpen, hStatus] at hOpen
        · cases hReward
      omega

/-- Over a forward run whose blocks settle the rewards that are due, the checks demand at most
    one reward for each request. -/
theorem rewardsOfRun_le_one (env : Env) (blocks : List CBlock) (node : NodeState) (r : String)
    (hRun : ForwardRun env (RewardsSettle env) blocks node) :
    (rewardsOfRun env blocks).countP (·.requestId == r) ≤ 1 := by
  have hDue : ∀ {node : NodeState} {block : CBlock}, Reachable env node →
      0 < (blockRewards env node block).countP (·.requestId == r) →
      rewardDue env node.cache block.vtx r = true := by
    intro node block hReach hPos
    obtain ⟨w, hw, hId⟩ := List.countP_pos_iff.mp hPos
    unfold blockRewards at hw
    split at hw
    · exact (reward_listed_iff (recordsPayable_of_reachable hReach).challengesKeyed).mp
        ⟨w, Greedy.taken_sublist.subset hw, by simpa using hId⟩
    · cases hw
  -- The mark of the first reward rules out a second one.
  refine hRun.countP_trace_le_one (Reachable env)
    (fun node => node.cache.isChallengerRewardPaid r = true)
    (fun _ _ _ hReach _ hTip => hReach.tail (.connect hTip)) ?_ ?_ ?_ ?_ .refl
  · intro node block node' hReach hSettle hTip
    rcases Nat.eq_zero_or_pos ((blockRewards env node block).countP (·.requestId == r)) with
      hNone | hSome
    · omega
    · have hNow := hDue hReach hSome
      have hList := @countP_rewards_le_one env node.cache block.vtx r
        (recordsPayable_of_reachable hReach).challengesKeyed
        (hSettle.once r (mem_keys_of_rewardDue hNow) hNow)
      unfold blockRewards
      split
      · exact Nat.le_trans (Greedy.taken_sublist.countP_le) hList
      · simp
  · intro node block node' hReach hSettle hTip hSome
    have hNow := hDue hReach hSome
    have hAfter := hSettle.due r (mem_keys_of_rewardDue hNow) hNow
    obtain ⟨hBlock, _, hCache⟩ := connectTip_cache hTip
    have hActive : env.params.opoiActive node.nextHeight = true := by
      unfold blockRewards at hSome
      split at hSome
      · assumption
      · simp at hSome
    rw [if_pos hActive] at hCache
    rw [hCache, reward_marked_iff (recordsPayable_afterTxs hBlock
      (recordsPayable_of_reachable hReach))]
    · exact hAfter
    · exact unpaid_of_rewardDue hNow
  · intro node block node' _ _ hTip hPaid
    exact (persists_of_connectTip hTip).paidRewards r hPaid
  · intro node block node' hReach _ _ hPaid
    by_contra hNe
    have hNow := hDue hReach (Nat.pos_of_ne_zero hNe)
    rw [unpaid_of_rewardDue hNow] at hPaid
    cases hPaid

end RewardOnce

/-- A decided challenge is rewarded once. -/
theorem rewardsOfRun_le_one_of_reveal :
    (∃ node, ForwardRun sampleNet (RewardsSettle sampleNet)
      (sampleChallengedBlocks ++ [samplePayout 8 "bob" [sampleChallengeReveal "r" "bob"
        ⟨4002, 2⟩ 7], sampleBlock 9 []]) node) ∧
    (rewardsOfRun sampleNet
      (sampleChallengedBlocks ++ [samplePayout 8 "bob" [sampleChallengeReveal "r" "bob"
        ⟨4002, 2⟩ 7], sampleBlock 9 []])).countP (·.requestId == "r") ≤ 1 := by
  exact ⟨⟨_, Run.steps_value .other (by decide +kernel)⟩,
    rewardsOfRun_le_one _ _ _ "r" (Run.steps_value .other (by decide +kernel))⟩

/-- A challenge that is revealed before it is voted on and falls due with the vote. The block
    that pays its reward also has a COMMIT that replaces it, so the reward is not marked, and
    the REVEAL of the new challenge is rewarded again. -/
def replacedChallengeBlocks : List CBlock := sampleAnswered
  [sampleBlock 7 [sampleChallengeCommit "r" "bob" ⟨4002, 2⟩ 5],
   sampleBlock 8 [sampleChallengeReveal "r" "bob" ⟨4002, 2⟩ 6],
   sampleBlock 9 [sampleVote "r" "carol" ⟨4002, 3⟩ 7 AUDITOR_VERIFY_FAIL],
   samplePayout 10 "bob" [sampleChallengeCommit "r" "alice" ⟨4002, 1⟩ 8],
   samplePayout 11 "alice" [sampleChallengeReveal "r" "alice" ⟨4002, 1⟩ 9]]

theorem rewardsOfRun_of_replaced_challenge :
    (∃ node, PlainRun sampleNet replacedChallengeBlocks node) ∧
    rewardsOfRun sampleNet replacedChallengeBlocks =
      [⟨"bob", 25, "r", 25⟩, ⟨"alice", 25, "r", 25⟩] ∧
    1 < (rewardsOfRun sampleNet replacedChallengeBlocks).countP
      (·.requestId == "r") := by
  have hRewards : rewardsOfRun sampleNet replacedChallengeBlocks =
      [⟨"bob", 25, "r", 25⟩, ⟨"alice", 25, "r", 25⟩] := by decide +kernel
  exact ⟨Run.exists_run .other (by decide +kernel), hRewards, by rw [hRewards]; decide⟩

end CloudService
