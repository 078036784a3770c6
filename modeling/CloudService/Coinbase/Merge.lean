/-
  The submissions for a shard, on record and in the block, before the block's transactions are
  applied and after.
-/

import CloudService.Chain.AppliedTxs
import CloudService.Library.FirstWins
import CloudService.Library.Trailing

namespace CloudService

open OPoICache List

/-! ## The key of a shard -/

theorem shardKey_inj {r r' : String} {i i' : Nat}
    (h : shardKey r i = shardKey r' i') : r = r' ∧ i = i' := by
  have hDigits : ∀ n : Nat, ∀ ch ∈ Nat.toDigits 10 n, ch.isDigit = true := fun n ch hMem =>
    Nat.isDigit_of_mem_toDigits (by decide) (by decide) hMem
  have hChars := congrArg String.toList h
  simp only [shardKey, Nat.toString_eq_repr, String.toList_append, Nat.toList_repr,
    append_assoc] at hChars
  obtain ⟨hRequest, _, hIndex⟩ := Trailing.append_cons_inj (p := Char.isDigit) (by decide)
    (by decide) (hDigits i) (hDigits i') hChars
  refine ⟨String.toList_inj.mp hRequest, ?_⟩
  rw [← Nat.ofDigitChars_ten_toDigits (n := i), hIndex, Nat.ofDigitChars_ten_toDigits]

/-! ## Majorities -/

def ShardResultSubmission.view (s : ShardResultSubmission) : ShardResultSubmission :=
  { minerAddress := s.minerAddress, boundaryOutputHash := s.boundaryOutputHash
    tokenCount := s.tokenCount }

theorem shardCounts_view (subs : List ShardResultSubmission) :
    shardCounts (subs.map ShardResultSubmission.view) = shardCounts subs := by
  rw [shardCounts, foldl_map]
  rfl

theorem computeShardMajority_view (subs : List ShardResultSubmission) (minSubmissions : Int) :
    computeShardMajority (subs.map ShardResultSubmission.view) minSubmissions =
      computeShardMajority subs minSubmissions := by
  have hFilter : ∀ q : Uint256 × Nat → Bool,
      ((subs.map ShardResultSubmission.view).filter fun s => q s.key).map (·.minerAddress) =
        (subs.filter fun s => q s.key).map (·.minerAddress) := by
    intro q
    rw [filter_map, map_map]
    rfl
  unfold computeShardMajority
  rw [shardCounts_view, length_map]
  dsimp only
  generalize (shardCounts subs).foldl
    (fun (best : (Uint256 × Nat) × Nat) k n => if best.2 < n then (k, n) else best)
    ((0, 0), 0) = best
  rw [hFilter fun k => k == best.1, hFilter fun k => !(k == best.1)]

/-! ## The submissions of a block -/

def isResultFor (r : String) (i : Nat) (tx : CTransaction) : Bool :=
  tx.opoiType == .shardResult && (tx.opoiRequestId == r && tx.opoiShardIndex == i)

def newSubmission (env : Env) (height : Nat) (tx : CTransaction) : ShardResultSubmission :=
  { minerAddress := tx.opoiMinerAddress
    boundaryOutputHash := tx.opoiResponseHash
    routerLogitsHash := tx.opoiCommitment
    tokenCount := tx.opoiTokenCount
    blockHeight := height
    txHash := env.getHash tx }

/-- The submissions for a shard that the checks of a block count. -/
def submissionsWith (node : NodeState) (block : CBlock) (k : String × Nat) :
    List ShardResultSubmission :=
  mergeShardResults block.vtx k.1 k.2 (node.cache.listShardResults k.1 k.2)

section Submissions

variable {env : Env} {node : NodeState} {block : CBlock} {chainActive : List Uint256}
  {height : Nat} {c : OPoICache} {tx : CTransaction} {r : String} {i : Nat}

theorem listShardResults_apply :
    (applyOPoITransaction env chainActive height c tx).listShardResults r i =
      if isResultFor r i tx then
        FirstWins.add (·.minerAddress) (c.listShardResults r i) (newSubmission env height tx)
      else c.listShardResults r i := by
  by_cases hType : tx.opoiType = .shardResult
  · have hApply : (applyOPoITransaction env chainActive height c tx).mapShardResults =
        c.mapShardResults.insert (shardKey tx.opoiRequestId tx.opoiShardIndex)
          (FirstWins.add (·.minerAddress) (c.listShardResults tx.opoiRequestId tx.opoiShardIndex)
            (newSubmission env height tx)) := by
      simp only [applyOPoITransaction, hType]
      rfl
    unfold listShardResults at hApply ⊢
    rw [hApply, TreeMap.getD_insert_eq]
    simp only [isResultFor, hType, beq_self_eq_true, Bool.true_and, Bool.and_eq_true, beq_iff_eq]
    by_cases hKey : tx.opoiRequestId = r ∧ tx.opoiShardIndex = i
    · rw [if_pos (by rw [hKey.1, hKey.2]), if_pos hKey, hKey.1, hKey.2]
    · rw [if_neg fun hEq => hKey (shardKey_inj hEq), if_neg hKey]
  · have hFrame := (applyOPoITransaction_txFrame env height c tx chainActive).submissions hType
    unfold listShardResults
    rw [hFrame, if_neg (by simp [isResultFor, hType])]

theorem listShardResults_foldl (txs : List CTransaction) :
    (txs.foldl (applyOPoITransaction env chainActive height) c).listShardResults r i =
      FirstWins.merge (·.minerAddress) (c.listShardResults r i)
        ((txs.filter (isResultFor r i)).map (newSubmission env height)) := by
  induction txs generalizing c with
  | nil => rfl
  | cons tx txs ih =>
    rw [foldl_cons, ih, listShardResults_apply, filter_cons]
    split
    · rfl
    · rfl

section

variable (hBlock : AcceptedBlock env node block)

include hBlock

theorem mergeShardResults_eq (subs : List ShardResultSubmission) :
    mergeShardResults block.vtx r i subs = FirstWins.merge (·.minerAddress) subs
        (((opoiTxs block.vtx).filter (isResultFor r i)).map submissionOf) := by
  have hTxs : (blockTxs block.vtx .shardResult).filter (fun tx =>
      tx.opoiRequestId == r && tx.opoiShardIndex == i) =
      (opoiTxs block.vtx).filter (isResultFor r i) := by
    rw [blockTxs_eq hBlock, filter_filter]
    exact filter_congr fun tx _ => Bool.and_comm _ _
  rw [mergeShardResults, hTxs, FirstWins.merge, foldl_map]
  rfl

theorem listShardResults_view :
    ((afterTxs env node block.vtx).listShardResults r i).map ShardResultSubmission.view =
      (mergeShardResults block.vtx r i (node.cache.listShardResults r i)).map
        ShardResultSubmission.view := by
  rw [mergeShardResults_eq hBlock, afterTxs, listShardResults_foldl,
    FirstWins.map_merge (·.minerAddress) (·.minerAddress) ShardResultSubmission.view fun _ => rfl,
    FirstWins.map_merge (·.minerAddress) (·.minerAddress) ShardResultSubmission.view fun _ => rfl,
    map_map, map_map]
  rfl

/-- The submissions of the block are on record after its transactions, so they add nothing. -/
theorem mergeShardResults_afterTxs :
    mergeShardResults block.vtx r i ((afterTxs env node block.vtx).listShardResults r i) =
      (afterTxs env node block.vtx).listShardResults r i := by
  rw [mergeShardResults_eq hBlock, afterTxs, listShardResults_foldl]
  refine FirstWins.merge_eq_self fun s hMem => ?_
  obtain ⟨tx, hTx, rfl⟩ := mem_map.mp hMem
  have hRecorded := mem_map_of_mem (f := newSubmission env node.nextHeight) hTx
  have hPresent : (FirstWins.merge (·.minerAddress) (node.cache.listShardResults r i)
      (((opoiTxs block.vtx).filter (isResultFor r i)).map (newSubmission env node.nextHeight))).any
      (·.minerAddress == (newSubmission env node.nextHeight tx).minerAddress) = true :=
    FirstWins.any_merge_of_mem hRecorded
  exact hPresent

theorem computeShardMajority_afterTxs (minSubmissions : Int) :
    computeShardMajority (mergeShardResults block.vtx r i
        ((afterTxs env node block.vtx).listShardResults r i)) minSubmissions =
      computeShardMajority (mergeShardResults block.vtx r i
        (node.cache.listShardResults r i)) minSubmissions := by
  rw [mergeShardResults_afterTxs hBlock, ← computeShardMajority_view, listShardResults_view hBlock,
    computeShardMajority_view]

end

end Submissions

end CloudService
