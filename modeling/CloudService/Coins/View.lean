/-
  What the coins view holds, read off outpoint by outpoint. `Cleanup` and pruning are invisible
  here, so that every operation has one equation.
-/

import CloudService.Consensus.CheckTransaction
import CloudService.Library.TreeMap
import Mathlib.Data.List.DropRight

namespace CloudService

open List

/-- An available output, and what is kept of the transaction that created it. -/
structure Coin where
  out : CTxOut
  fCoinBase : Bool
  nHeight : Nat
  nVersion : Int
deriving Repr, DecidableEq

namespace CCoins

variable (c : CCoins) {n m : Nat}

def coin (n : Nat) : Option Coin :=
  (c.vout[n]?.filter fun o => !o.isNull).map fun out => ⟨out, c.fCoinBase, c.nHeight, c.nVersion⟩

theorem isAvailable_eq : c.isAvailable n = (c.coin n).isSome := by
  unfold isAvailable coin
  cases c.vout[n]? with
  | none => rfl
  | some o => cases hNull : o.isNull with
    | true => simp [Option.filter, hNull]
    | false => simp [Option.filter, hNull]

theorem filter_getElem?_trim (outs : List CTxOut) (n : Nat) :
    ((outs.reverse.dropWhile CTxOut.isNull).reverse[n]?.filter fun o => !o.isNull) =
      (outs[n]?.filter fun o => !o.isNull) := by
  induction outs using reverseRecOn with
  | nil => rfl
  | append_singleton outs o ih =>
    rw [reverse_append, reverse_singleton, singleton_append, dropWhile_cons]
    split
    · rename_i hNull
      rw [ih, getElem?_append]
      split
      · rfl
      · rename_i hLength
        rw [getElem?_eq_none (Nat.not_lt.mp hLength), getElem?_singleton]
        split
        · simp [Option.filter, hNull]
        · rfl
    · rw [reverse_cons, reverse_reverse]

@[simp] theorem coin_cleanup : c.cleanup.coin n = c.coin n := by
  unfold coin cleanup
  rw [filter_getElem?_trim]

theorem coin_spend : (c.spend n).coin m = if m = n then none else c.coin m := by
  unfold spend
  split
  · rw [coin_cleanup]
    unfold coin
    rw [getElem?_set]
    by_cases hPos : m = n
    · subst hPos
      rw [if_pos rfl, if_pos rfl]
      split
      · rfl
      · rfl
    · rw [if_neg (Ne.symm hPos), if_neg hPos]
  · rename_i hSpent
    by_cases hPos : m = n
    · rw [if_pos hPos, hPos]
      simpa [isAvailable_eq] using hSpent
    · rw [if_neg hPos]

theorem coin_fromTx (tx : CTransaction) (nHeight : Nat) :
    (fromTx tx nHeight).coin n =
      (tx.vout[n]?.filter fun o => !o.isNull && !isUnspendable o.scriptPubKey).map fun out =>
        ⟨out, tx.isCoinBase, nHeight, tx.nVersion⟩ := by
  unfold fromTx
  rw [coin_cleanup]
  unfold coin
  simp only [getElem?_map]
  cases tx.vout[n]? with
  | none => rfl
  | some o =>
    cases hSpendable : isUnspendable o.scriptPubKey with
    | true => simp [Option.filter, hSpendable, CTxOut.isNull]
    | false => simp [Option.filter, hSpendable]

theorem isPruned_eq_false : c.isPruned = false ↔ ∃ n coin, c.coin n = some coin := by
  unfold isPruned coin
  rw [all_eq_false]
  constructor
  · rintro ⟨o, hMem, hNull⟩
    obtain ⟨n, hGet⟩ := mem_iff_getElem?.mp hMem
    refine ⟨n, ⟨o, c.fCoinBase, c.nHeight, c.nVersion⟩, ?_⟩
    simp [hGet, Option.filter, hNull]
  · rintro ⟨n, coin, hCoin⟩
    obtain ⟨o, hFilter, _⟩ := Option.map_eq_some_iff.mp hCoin
    obtain ⟨hGet, hNull⟩ := Option.filter_eq_some_iff.mp hFilter
    exact ⟨o, mem_of_getElem? hGet, by simpa using hNull⟩

end CCoins

theorem COutPoint.eq_of_fields {o y : COutPoint} (hHash : y.hash = o.hash) (hPos : y.n = o.n) :
    y = o := by
  cases y
  simp_all

namespace CoinsView

variable (v : CoinsView) {o y : COutPoint}

def coin (o : COutPoint) : Option Coin := v.cacheCoins[o.hash]?.bind fun c => c.coin o.n

theorem unspent_eq : v.unspent o = (v.coin o).map Coin.out := by
  unfold unspent coin CCoins.coin
  cases v.cacheCoins[o.hash]? with
  | none => rfl
  | some c =>
    simp only [Option.bind_some]
    cases c.vout[o.n]? with
    | none => rfl
    | some out => cases hNull : out.isNull with
      | true => simp [Option.filter, hNull]
      | false => simp [Option.filter, hNull]

theorem overwrites_eq_true {txid : Uint256} :
    v.overwrites txid = true ↔ ∃ n coin, v.coin ⟨txid, n⟩ = some coin := by
  unfold overwrites coin
  cases hCoins : v.cacheCoins[txid]? with
  | none => simp [hCoins]
  | some c => simpa [hCoins] using c.isPruned_eq_false

theorem overwrites_of_coin {c : Coin} (h : v.coin o = some c) : v.overwrites o.hash = true :=
  v.overwrites_eq_true.mpr ⟨o.n, c, h⟩

/-! ## UpdateCoins -/

theorem coin_spendInput : (v.spendInput o).coin y = if y = o then none else v.coin y := by
  unfold spendInput coin
  simp only [TreeMap.getElem?_modify_eq]
  by_cases hHash : o.hash = y.hash
  · rw [if_pos hHash, ← hHash]
    cases v.cacheCoins[o.hash]? with
    | none => simp
    | some c =>
      simp only [Option.map_some, Option.bind_some, CCoins.coin_spend]
      by_cases hPos : y.n = o.n
      · rw [if_pos hPos, if_pos (COutPoint.eq_of_fields hHash.symm hPos)]
      · rw [if_neg hPos, if_neg fun hEq => hPos (congrArg COutPoint.n hEq)]
  · rw [if_neg hHash, if_neg fun hEq => hHash (congrArg COutPoint.hash hEq).symm]

theorem coin_foldl_spendInput (os : List COutPoint) :
    (os.foldl spendInput v).coin y = if y ∈ os then none else v.coin y := by
  induction os generalizing v with
  | nil => rfl
  | cons o os ih =>
    rw [foldl_cons, ih, coin_spendInput]
    by_cases hRest : y ∈ os
    · simp [hRest]
    · by_cases hHead : y = o
      · simp [hHead]
      · simp [hRest, hHead]

def spentBy (tx : CTransaction) : List COutPoint :=
  if tx.isCoinBase then [] else tx.vin.map CTxIn.prevout

theorem spendInputs_eq (tx : CTransaction) :
    v.spendInputs tx = (spentBy tx).foldl spendInput v := by
  unfold spendInputs spentBy
  split
  · rfl
  · rfl

theorem coin_updateCoins (txid : Uint256) (tx : CTransaction) (nHeight : Nat) :
    (v.updateCoins txid tx nHeight).coin y =
      if y.hash = txid then (CCoins.fromTx tx nHeight).coin y.n
      else if y ∈ spentBy tx then none else v.coin y := by
  rw [← coin_foldl_spendInput, ← spendInputs_eq]
  unfold updateCoins coin
  simp only [TreeMap.getElem?_insert_eq]
  by_cases hHash : y.hash = txid
  · rw [if_pos hHash.symm, if_pos hHash, Option.bind_some]
  · rw [if_neg (Ne.symm hHash), if_neg hHash]
    rfl

theorem haveInputs_eq_true {tx : CTransaction} :
    v.haveInputs tx = true ↔ ∀ o ∈ spentBy tx, ∃ c, v.coin o = some c := by
  unfold haveInputs spentBy
  split
  · rename_i hCoinBase
    simp [hCoinBase]
  · rename_i hCoinBase
    simp [hCoinBase, unspent_eq, Option.isSome_iff_exists]

theorem spendInputs_frame (tx : CTransaction) :
    v.spendInputs tx = { v with cacheCoins := (v.spendInputs tx).cacheCoins } := by
  rw [spendInputs_eq]
  induction spentBy tx generalizing v with
  | nil => rfl
  | cons o os ih => exact ih (v.spendInput o)

/-! ## Nullifiers -/

theorem contains_foldl_insert {s : Std.ExtTreeSet Uint256} (nfs : List Uint256) (nf : Uint256) :
    (nfs.foldl (fun s nf => s.insert nf) s).contains nf = true ↔
      nf ∈ nfs ∨ s.contains nf = true := by
  induction nfs generalizing s with
  | nil => simp
  | cons head nfs ih =>
    rw [foldl_cons, ih, Std.ExtTreeSet.contains_insert]
    simp only [Bool.or_eq_true, mem_cons, beq_iff_eq, Std.LawfulEqCmp.compare_eq_iff_eq]
    tauto

theorem sproutNullifiers_updateCoins (txid : Uint256) (tx : CTransaction) (nHeight : Nat)
    (nf : Uint256) :
    (v.updateCoins txid tx nHeight).sproutNullifiers.contains nf = true ↔
      nf ∈ txSproutNullifiers tx ∨ v.sproutNullifiers.contains nf = true := by
  unfold updateCoins
  rw [spendInputs_frame]
  exact contains_foldl_insert _ nf

theorem saplingNullifiers_updateCoins (txid : Uint256) (tx : CTransaction) (nHeight : Nat)
    (nf : Uint256) :
    (v.updateCoins txid tx nHeight).saplingNullifiers.contains nf = true ↔
      nf ∈ txSaplingNullifiers tx ∨ v.saplingNullifiers.contains nf = true := by
  unfold updateCoins
  rw [spendInputs_frame]
  exact contains_foldl_insert _ nf

theorem not_contains_of_sproutRequirements (roots : TreeRoots) {joinsplits : List JSDescription}
    {intermediates : Std.ExtTreeMap Uint256 MerkleTree}
    (h : v.haveSproutRequirements roots intermediates joinsplits = true) :
    ∀ joinsplit ∈ joinsplits, ∀ nf ∈ joinsplit.nullifiers.toList,
      v.sproutNullifiers.contains nf = false := by
  induction joinsplits generalizing intermediates with
  | nil => simp
  | cons head rest ih =>
    rw [haveSproutRequirements, Bool.and_eq_true] at h
    obtain ⟨hHead, hRest⟩ := h
    rw [forall_mem_cons]
    constructor
    · intro nf hMem
      rw [Bool.not_eq_true', any_eq_false] at hHead
      exact Bool.not_eq_true _ ▸ hHead nf hMem
    · split at hRest
      · exact ih hRest
      · cases hRest

theorem not_contains_of_shieldedRequirements {roots : TreeRoots} {tx : CTransaction}
    (h : v.haveShieldedRequirements roots tx = true) :
    (∀ nf ∈ txSproutNullifiers tx, v.sproutNullifiers.contains nf = false) ∧
      ∀ nf ∈ txSaplingNullifiers tx, v.saplingNullifiers.contains nf = false := by
  rw [haveShieldedRequirements, Bool.and_eq_true] at h
  obtain ⟨hSprout, hSapling⟩ := h
  constructor
  · intro nf hMem
    obtain ⟨joinsplit, hJoinSplit, hNf⟩ := mem_flatMap.mp hMem
    exact v.not_contains_of_sproutRequirements roots hSprout joinsplit hJoinSplit nf hNf
  · intro nf hMem
    obtain ⟨spend, hSpend, rfl⟩ := mem_map.mp hMem
    have hBoth := all_eq_true.mp hSapling spend hSpend
    rw [Bool.and_eq_true] at hBoth
    simpa using hBoth.1

end CoinsView

end CloudService
