/-
  Three checks look for outputs in one coinbase. Only `CheckOPoIPayments` claims the outputs
  that it finds.
-/

import CloudService.Coinbase.Marks
import CloudService.Library.Matching

namespace CloudService

open List

section OwnOutputs

variable (env : Env) (node : NodeState) (block : CBlock)

/-- The outputs that `CheckFluxnodePayout` demands. -/
def tierOutputs : List CTxOut :=
  if env.startFluxnodePayments ≤ node.nextHeight then
    (mapFluxnodePayouts env node.chainActive node.nextHeight).map FluxnodePayoutInfo.output
  else []

/-- The output for the treasury, when `CheckOPoIChallengerRewards` demands it. -/
def treasuryOutputs : List CTxOut :=
  if 0 < treasuryReward env node.cache block.vtx ∧
      ((rewardsDemandedBy env node block).map (·.rewardAmount)).sum +
        treasuryReward env node.cache block.vtx ≤ (block.vtx.headD {}).getValueOut then
    [payTo env env.treasuryAddress (treasuryReward env node.cache block.vtx)]
  else []

def looseOutputs : List CTxOut :=
  tierOutputs env node ++ (rewardsDemandedBy env node block).map
    (OPoIChallengerReward.output env) ++
    treasuryOutputs env node block

def demandedOutputs : List CTxOut :=
  (demandedBy env node block).map (Owed.output env) ++ looseOutputs env node block

/-- Every demand has an output of its own, and the OPoI payments stay within the budget. -/
structure OwnOutputs : Prop where
  matched : Matching.Matched (demandedOutputs env node block) block.coinbaseOutputs
  budget : ((demandedBy env node block).map Owed.amount).sum ≤ env.opoiBudget node.nextHeight

/-- Demands for the same script and amount find that output as often as it is demanded. -/
def SharedOutputsPaid : Prop :=
  ∀ out ∈ looseOutputs env node block, 1 < (demandedOutputs env node block).count out →
    (demandedOutputs env node block).count out ≤ block.coinbaseOutputs.count out
deriving Decidable

end OwnOutputs

section Checks

variable {env : Env} {node node' : NodeState} {block : CBlock}

theorem demandedBy_subperm (hBlock : AcceptedBlock env node block)
    (hActive : env.params.opoiActive node.nextHeight = true) :
    ((demandedBy env node block).map (Owed.output env)).Subperm block.coinbaseOutputs := by
  have hPayments := hBlock.payments hActive
  unfold demandedBy CBlock.coinbaseOutputs
  obtain ⟨coinbase, rest, hVtx, _⟩ := hBlock.shape
  rw [hVtx] at hPayments ⊢
  exact (checkOPoIPayments_eq_ok.mp hPayments).2

theorem looseOutputs_subset (hBlock : AcceptedBlock env node block)
    (hActive : env.params.opoiActive node.nextHeight = true) :
    ∀ out ∈ looseOutputs env node block, out ∈ block.coinbaseOutputs := by
  intro out hOut
  simp only [looseOutputs, mem_append, mem_map] at hOut
  rcases hOut with (hTier | ⟨w, hw, rfl⟩) | hTreasury
  · unfold tierOutputs at hTier
    split at hTier
    · rename_i hStart
      obtain ⟨payout, hPayout, rfl⟩ := mem_map.mp hTier
      exact checkFluxnodePayout_iff.mp (hBlock.fluxnodes hStart) payout hPayout
    · cases hTier
  · exact (demandedBy_found hBlock hActive).2 w hw
  · have hRewards := hBlock.rewards hActive
    unfold treasuryOutputs rewardsDemandedBy at hTreasury
    unfold CBlock.coinbaseOutputs
    obtain ⟨coinbase, rest, hVtx, _⟩ := hBlock.shape
    rw [hVtx] at hRewards hTreasury ⊢
    split at hTreasury
    · rename_i hDemanded
      rw [mem_singleton.mp hTreasury]
      exact (checkOPoIChallengerRewards_eq_ok.mp hRewards).2 hDemanded.1 hDemanded.2
    · cases hTreasury

theorem demandedBy_sum_le :
    ((demandedBy env node block).map Owed.amount).sum ≤ env.opoiBudget node.nextHeight := by
  have hFits : Greedy.fits Owed.amount (env.opoiBudget node.nextHeight) 0
      (demandedBy env node block) = true := Greedy.fits_taken
  have hSum := Greedy.sum_le_of_fits (env.opoiBudget_nonneg node.nextHeight) hFits
  rwa [Int.zero_add] at hSum

/-- Each demand of a connected block at an OPoI height has an output of its own exactly when the
    outputs that a check without claims shares with another demand are there often enough. -/
theorem ownOutputs_iff_sharedOutputsPaid (env : Env) (node node' : NodeState) (block : CBlock)
    (hTip : connectTip env node block = .ok node')
    (hActive : env.params.opoiActive node.nextHeight = true) :
    OwnOutputs env node block ↔ SharedOutputsPaid env node block := by
  obtain ⟨hBlock, _, _⟩ := connectTip_cache hTip
  constructor
  · intro h out hOut _
    exact Matching.matched_iff.mp h.matched out (mem_append_right _ hOut)
  · intro h
    refine ⟨Matching.matched_iff.mpr fun out hOut => ?_, demandedBy_sum_le⟩
    by_cases hLoose : out ∈ looseOutputs env node block
    · by_cases hShared : 1 < (demandedOutputs env node block).count out
      · exact h out hLoose hShared
      · have hFound := count_pos_iff.mpr (looseOutputs_subset hBlock hActive out hLoose)
        omega
    · have hClaimed := (demandedBy_subperm hBlock hActive).count_le out
      unfold demandedOutputs
      rwa [count_append, count_eq_zero.mpr hLoose, Nat.add_zero]

end Checks

/-- One decided challenge: its reward and the part of the treasury have outputs of their own. -/
theorem ownOutputs_of_reveal :
    ∃ node node', PlainRun sampleNet sampleChallengedBlocks
        node ∧
      connectTip sampleNet node
        (samplePayout 8 "bob" [sampleChallengeReveal "r" "bob" ⟨4002, 2⟩ 7]) = .ok node' ∧
      (demandedOutputs sampleNet node
        (samplePayout 8 "bob" [sampleChallengeReveal "r" "bob" ⟨4002, 2⟩ 7])).length = 2 ∧
      SharedOutputsPaid sampleNet node
        (samplePayout 8 "bob" [sampleChallengeReveal "r" "bob" ⟨4002, 2⟩ 7]) ∧
      OwnOutputs sampleNet node
        (samplePayout 8 "bob" [sampleChallengeReveal "r" "bob" ⟨4002, 2⟩ 7]) := by
  refine ⟨_, _, Run.steps_value .other (by decide +kernel), Run.eq_value (by decide +kernel),
    by decide +kernel, ?shared, (ownOutputs_iff_sharedOutputsPaid _ _ _ _ (Run.eq_value
      (by decide +kernel)) (by decide +kernel)).mpr ?shared⟩
  decide +kernel

/-- The blocks up to two decided challenges of one challenger against one staker. -/
def bobsChallengesBlocks : List CBlock :=
  [⟨2, [sampleCoinbase [(sampleMiner, 100), ("alice", 100), ("bob", 100), ("bob", 100)]]⟩,
   sampleBlock 3 [sampleStake sampleMiner ⟨4002, 0⟩ 1]] ++ sampleTwoAnswers ++
  [sampleBlock 7 [sampleChallengeCommit "r" "bob" ⟨4002, 2⟩ 8,
     sampleChallengeCommit "q" "bob" ⟨4002, 3⟩ 9,
     sampleVote "r" "miner" ⟨1032, 0⟩ 10 AUDITOR_VERIFY_FAIL,
     sampleVote "q" "miner" ⟨1042, 0⟩ 11 AUDITOR_VERIFY_FAIL]]

/-- The block with both REVEALs. It pays one of the two rewards of 25. -/
def bobsRevealsBlock : CBlock :=
  ⟨8, [sampleCoinbase [("bob", 25), ("treasury", 50), ("miner", 25)] 8,
    sampleChallengeReveal "r" "bob" ⟨4002, 2⟩ 12, sampleChallengeReveal "q" "bob" ⟨4002, 3⟩ 13]⟩

/-- Both rewards are demanded, and one output counts for both. -/
theorem not_ownOutputs_of_two_rewards :
    ∃ node node', PlainRun sampleNet bobsChallengesBlocks
        node ∧
      connectTip sampleNet node bobsRevealsBlock = .ok node' ∧
      sampleParams.opoiActive node.nextHeight = true ∧
      rewardsDemandedBy sampleNet node bobsRevealsBlock =
        [⟨"bob", 25, "r", 25⟩, ⟨"bob", 25, "q", 25⟩] ∧
      ¬OwnOutputs sampleNet node bobsRevealsBlock := by
  refine Run.exists_next_imp .other (fun (node : NodeState) _ =>
      sampleParams.opoiActive node.nextHeight = true ∧
      rewardsDemandedBy sampleNet node bobsRevealsBlock =
        [⟨"bob", 25, "r", 25⟩, ⟨"bob", 25, "q", 25⟩]) (by decide +kernel)
    fun node _ _ _ ⟨hActive, hRewards⟩ => ⟨hActive, hRewards, fun hOwn => ?_⟩
  -- the output for bob is demanded twice and is there once
  have hLoose : 2 ≤ (looseOutputs sampleNet node bobsRevealsBlock).count
      (payTo sampleNet "bob" 25) := by
    unfold looseOutputs
    rw [count_append, count_append, hRewards]
    have hTwo : 2 ≤ (([⟨"bob", 25, "r", 25⟩, ⟨"bob", 25, "q", 25⟩] :
        List OPoIChallengerReward).map (OPoIChallengerReward.output sampleNet)).count
        (payTo sampleNet "bob" 25) := by decide +kernel
    omega
  have hMem : payTo sampleNet "bob" 25 ∈
      demandedOutputs sampleNet node bobsRevealsBlock :=
    mem_append_right _ (count_pos_iff.mp (by omega))
  have hCount := Matching.matched_iff.mp hOwn.matched _ hMem
  have hOne : bobsRevealsBlock.coinbaseOutputs.count (payTo sampleNet "bob" 25) = 1 := by
    decide +kernel
  unfold demandedOutputs at hCount
  rw [count_append, hOne] at hCount
  omega

end CloudService
