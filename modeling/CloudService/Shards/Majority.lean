/-
  The majority of the submissions for a shard: the pair of hash and token count that is in
  more than half of them.
-/

import CloudService.OPoI.Cache

namespace CloudService

/-- There are enough submissions, and a pair is in more than half of them. -/
structure HasMajority (subs : List ShardResultSubmission) (least : Int) (k : Uint256 × Nat) :
    Prop where
  enough : least ≤ subs.length
  most : subs.length < 2 * (subs.map (·.key)).count k

namespace ShardMajority

def pair (m : ShardMajority) : Uint256 × Nat := (m.majorityHash, m.majorityTokenCount)

/-- The submitters with and without the pair, in the order of the submissions. -/
structure Splits (m : ShardMajority) (subs : List ShardResultSubmission) : Prop where
  agreeing : m.agreeing = (subs.filter fun s => s.key == m.pair).map (·.minerAddress)
  divergent : m.divergent = (subs.filter fun s => !(s.key == m.pair)).map (·.minerAddress)

end ShardMajority

section Counts

variable {subs subs' : List ShardResultSubmission} {least : Int} {k k' : Uint256 × Nat}
  {m m' : ShardMajority}

instance : Std.LawfulEqCmp shardKeyCmp where
  eq_of_compare {a b} h := by
    have hBoth := compareLex_eq_eq.mp h
    exact Prod.ext (Std.LawfulEqCmp.eq_of_compare hBoth.1) (Std.LawfulEqCmp.eq_of_compare hBoth.2)

theorem getD_shardCounts (subs : List ShardResultSubmission) (k : Uint256 × Nat) :
    (shardCounts subs).getD k 0 = (subs.map (·.key)).count k := by
  -- A submission adds one to the count of its pair, whatever was counted before.
  have hLoop : ∀ counts : Std.ExtTreeMap (Uint256 × Nat) Nat shardKeyCmp,
      (subs.foldl (fun counts s => counts.alter s.key fun n => some (n.getD 0 + 1))
        counts).getD k 0 = counts.getD k 0 + (subs.map (·.key)).count k := by
    induction subs with
    | nil => exact fun _ => rfl
    | cons s subs ih =>
      intro counts
      rw [List.foldl_cons, ih, List.map_cons, List.count_cons, Std.ExtTreeMap.getD_alter]
      simp only [Std.LawfulEqCmp.compare_eq_iff_eq, beq_iff_eq]
      by_cases hKey : s.key = k
      · rw [if_pos hKey, if_pos hKey, ← hKey, Std.ExtTreeMap.getD_eq_getD_getElem?]
        show (counts[s.key]?).getD 0 + 1 + _ = _
        omega
      · rw [if_neg hKey, if_neg hKey, Nat.add_zero]
  rw [shardCounts, hLoop, Std.ExtTreeMap.getD_empty, Nat.zero_add]

/-- The loop ends with an item of the list, or where it started, and with the largest count. -/
theorem foldl_best (items : List ((Uint256 × Nat) × Nat)) (best : (Uint256 × Nat) × Nat) :
    let last := items.foldl (fun best item => if best.2 < item.2 then item else best) best
    (last = best ∨ last ∈ items) ∧ best.2 ≤ last.2 ∧ ∀ item ∈ items, item.2 ≤ last.2 := by
  induction items generalizing best with
  | nil => exact ⟨.inl rfl, Nat.le_refl _, fun _ h => by cases h⟩
  | cons item items ih =>
    obtain ⟨hFrom, hStart, hAll⟩ := ih (if best.2 < item.2 then item else best)
    simp only [List.foldl_cons, List.forall_mem_cons]
    by_cases hLess : best.2 < item.2
    · simp only [if_pos hLess] at hFrom hStart hAll ⊢
      exact ⟨.inr (List.mem_cons.mpr hFrom), by omega, hStart, hAll⟩
    · simp only [if_neg hLess] at hFrom hStart hAll ⊢
      exact ⟨hFrom.imp_right (List.mem_cons_of_mem _), hStart, by omega, hAll⟩

theorem shardCounts_best (subs : List ShardResultSubmission) :
    let best := (shardCounts subs).foldl
      (fun (best : (Uint256 × Nat) × Nat) k n => if best.2 < n then (k, n) else best) ((0, 0), 0)
    (best.2 = 0 ∨ (subs.map (·.key)).count best.1 = best.2) ∧
      ∀ k, (subs.map (·.key)).count k ≤ best.2 := by
  have hItem : ∀ item ∈ (shardCounts subs).toList, (subs.map (·.key)).count item.1 = item.2 := by
    intro item hMem
    rw [← getD_shardCounts, Std.ExtTreeMap.getD_eq_getD_getElem?,
      Std.ExtTreeMap.mem_toList_iff_getElem?_eq_some.mp hMem, Option.getD_some]
  rw [Std.ExtTreeMap.foldl_eq_foldl_toList]
  obtain ⟨hFrom, -, hAll⟩ := foldl_best (shardCounts subs).toList ((0, 0), 0)
  refine ⟨hFrom.imp (fun h => congrArg Prod.snd h) (hItem _), fun k => ?_⟩
  rw [← getD_shardCounts, Std.ExtTreeMap.getD_eq_getD_getElem?]
  cases hGet : (shardCounts subs)[k]? with
  | none => exact Nat.zero_le _
  | some n => exact hAll (k, n) (Std.ExtTreeMap.mem_toList_iff_getElem?_eq_some.mpr hGet)

/-! ## A majority is unique -/

theorem count_add_count_le (keys : List (Uint256 × Nat)) (h : k ≠ k') :
    keys.count k + keys.count k' ≤ keys.length := by
  induction keys with
  | nil => simp
  | cons key keys ih =>
    simp only [List.count_cons, List.length_cons, beq_iff_eq]
    split <;> split
    · next h₁ h₂ => exact absurd (h₁.symm.trans h₂) h
    all_goals omega

theorem HasMajority.unique (h : HasMajority subs least k) (h' : HasMajority subs least k') :
    k = k' := by
  by_contra hNe
  have hSum := count_add_count_le (subs.map (·.key)) hNe
  rw [List.length_map] at hSum
  have := h.most
  have := h'.most
  omega

theorem computeShardMajority_eq_some :
    computeShardMajority subs least = some m ↔ HasMajority subs least m.pair ∧ m.Splits subs := by
  obtain ⟨hBest, hAll⟩ := shardCounts_best subs
  unfold computeShardMajority
  generalize (shardCounts subs).foldl
    (fun (best : (Uint256 × Nat) × Nat) k n => if best.2 < n then (k, n) else best)
    ((0, 0), 0) = best at *
  split
  · next hFew => exact ⟨fun h => (by cases h), fun h => absurd h.1.enough (Int.not_le.mpr hFew)⟩
  next hEnough =>
  dsimp only
  split
  · next hHalf =>
    refine ⟨fun h => (by cases h), fun h => ?_⟩
    have := h.1.most
    have := hAll m.pair
    omega
  next hMost =>
  have hMajority : HasMajority subs least best.1 := ⟨by omega, by omega⟩
  constructor
  · rintro h
    cases h
    exact ⟨hMajority, rfl, rfl⟩
  · rintro ⟨hPair, hAgreeing, hDivergent⟩
    rw [hMajority.unique hPair, ← hAgreeing, ← hDivergent]
    rfl

/-! ## The order of the submissions -/

theorem HasMajority.perm (hPerm : subs.Perm subs') (h : HasMajority subs least k) :
    HasMajority subs' least k :=
  ⟨hPerm.length_eq ▸ h.enough, by
    rw [← hPerm.length_eq, ← (hPerm.map (·.key)).count_eq]
    exact h.most⟩

theorem computeShardMajority_isSome :
    (computeShardMajority subs least).isSome = true ↔ ∃ k, HasMajority subs least k := by
  constructor
  · intro h
    obtain ⟨m, hm⟩ := Option.isSome_iff_exists.mp h
    exact ⟨m.pair, (computeShardMajority_eq_some.mp hm).1⟩
  · rintro ⟨k, hk⟩
    let m : ShardMajority :=
      ⟨k.1, k.2, (subs.filter fun s => s.key == k).map (·.minerAddress),
        (subs.filter fun s => !(s.key == k)).map (·.minerAddress)⟩
    have hm : computeShardMajority subs least = some m :=
      computeShardMajority_eq_some.mpr ⟨hk, rfl, rfl⟩
    rw [hm, Option.isSome_some]

theorem computeShardMajority_perm (hPerm : subs.Perm subs')
    (h : computeShardMajority subs least = some m) :
    ∃ m', computeShardMajority subs' least = some m' ∧ m'.pair = m.pair ∧
      m'.agreeing.Perm m.agreeing ∧ m'.divergent.Perm m.divergent := by
  obtain ⟨hPair, hSplits⟩ := computeShardMajority_eq_some.mp h
  obtain ⟨m', hm'⟩ := Option.isSome_iff_exists.mp
    (computeShardMajority_isSome.mpr ⟨m.pair, hPair.perm hPerm⟩)
  obtain ⟨hPair', hSplits'⟩ := computeShardMajority_eq_some.mp hm'
  have hSame := hPair'.unique (hPair.perm hPerm)
  refine ⟨m', hm', hSame, ?_, ?_⟩
  · rw [hSplits'.agreeing, hSplits.agreeing, hSame]
    exact (hPerm.symm.filter _).map _
  · rw [hSplits'.divergent, hSplits.divergent, hSame]
    exact (hPerm.symm.filter _).map _

/-- A majority is found exactly when there is one, it is the only one, and permuting the
    submissions permutes the submitters with and without its pair. -/
theorem computeShardMajority_exact (subs : List ShardResultSubmission) (least : Int) :
    (∀ m, computeShardMajority subs least = some m ↔
        HasMajority subs least m.pair ∧ m.Splits subs) ∧
      ((computeShardMajority subs least).isSome = true ↔ ∃ k, HasMajority subs least k) ∧
      (∀ k k', HasMajority subs least k → HasMajority subs least k' → k = k') ∧
      ∀ subs', subs.Perm subs' →
        (computeShardMajority subs' least).isSome = (computeShardMajority subs least).isSome ∧
          ∀ m, computeShardMajority subs least = some m →
            ∃ m', computeShardMajority subs' least = some m' ∧ m'.pair = m.pair ∧
              m'.agreeing.Perm m.agreeing ∧ m'.divergent.Perm m.divergent := by
  refine ⟨fun m => computeShardMajority_eq_some, computeShardMajority_isSome,
    fun k k' => HasMajority.unique, fun subs' hPerm => ⟨?_, fun m =>
      computeShardMajority_perm hPerm⟩⟩
  rw [Bool.eq_iff_iff, computeShardMajority_isSome, computeShardMajority_isSome]
  exact exists_congr fun k => ⟨HasMajority.perm hPerm.symm, HasMajority.perm hPerm⟩

/-- Two of three submitters agree; the order of the three does not matter. -/
theorem computeShardMajority_exact_of_three :
    let sub (miner : String) (tokens : Nat) : ShardResultSubmission :=
      { minerAddress := miner, boundaryOutputHash := 7, tokenCount := tokens }
    ∃ m', computeShardMajority [sub "carol" 5, sub "bob" 4, sub "alice" 5] 2 = some m' ∧
      m'.pair = (7, 5) ∧ m'.agreeing.Perm ["alice", "carol"] ∧ m'.divergent.Perm ["bob"] := by
  intro sub
  have hPerm : [sub "alice" 5, sub "bob" 4, sub "carol" 5].Perm
      [sub "carol" 5, sub "bob" 4, sub "alice" 5] :=
    List.reverse_perm [sub "carol" 5, sub "bob" 4, sub "alice" 5]
  have hFirst : computeShardMajority [sub "alice" 5, sub "bob" 4, sub "carol" 5] 2 =
      some ⟨7, 5, ["alice", "carol"], ["bob"]⟩ := by decide +kernel
  exact ((computeShardMajority_exact _ 2).2.2.2 _ hPerm).2 _ hFirst

end Counts

end CloudService
