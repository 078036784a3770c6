/-
  The value of the coins. A spend takes the value of its coin out of the total, a
  transaction adds the value of its outputs, less the unspendable ones, which are dropped.
-/

import CloudService.Coins.Ranges
import Mathlib.Algebra.BigOperators.Group.List.Lemmas
import Mathlib.Tactic.Ring

namespace CloudService

open CoinsView List

def CTxOut.availableValue (o : CTxOut) : CAmount := if o.isNull then 0 else o.nValue

def CCoins.value (c : CCoins) : CAmount := (c.vout.map CTxOut.availableValue).sum

def CoinsView.totalValue (v : CoinsView) : CAmount := TreeMap.total CCoins.value v.cacheCoins

/-- No coin has a negative value. -/
def CoinsView.Nonneg (v : CoinsView) : Prop := ∀ o c, v.coin o = some c → 0 ≤ c.out.nValue

/-! ## The outputs of one transaction -/

namespace CCoins

variable {c : CCoins} {n : Nat} {tx : CTransaction}

theorem value_cleanup : c.cleanup.value = c.value := by
  unfold value cleanup
  generalize c.vout = outs
  induction outs using reverseRecOn with
  | nil => rfl
  | append_singleton outs o ih =>
    rw [reverse_append, reverse_singleton, singleton_append, dropWhile_cons]
    split
    · rename_i hNull
      rw [ih, map_append, sum_append]
      simp [CTxOut.availableValue, hNull]
    · rw [reverse_cons, reverse_reverse]

theorem getElem?_of_coin {coin : Coin} (h : c.coin n = some coin) :
    c.vout[n]? = some coin.out ∧ coin.out.isNull = false := by
  obtain ⟨out, hFilter, rfl⟩ := Option.map_eq_some_iff.mp h
  obtain ⟨hGet, hNull⟩ := Option.filter_eq_some_iff.mp hFilter
  exact ⟨hGet, by simpa using hNull⟩

theorem value_spend {coin : Coin} (h : c.coin n = some coin) :
    (c.spend n).value = c.value - coin.out.nValue := by
  obtain ⟨hGet, hNull⟩ := getElem?_of_coin h
  obtain ⟨hLt, hEq⟩ := List.getElem?_eq_some_iff.mp hGet
  have hAvailable : c.isAvailable n = true := by rw [isAvailable_eq, h]; rfl
  have hOld : CTxOut.availableValue (c.vout[n]) = coin.out.nValue := by
    rw [hEq, CTxOut.availableValue, hNull]
    rfl
  have hNew : CTxOut.availableValue {} = 0 := rfl
  rw [spend, hAvailable, if_pos rfl, value_cleanup]
  unfold value
  rw [map_set, sum_set', dif_pos (by simpa using hLt), getElem_map, hOld, hNew]
  ring

theorem value_nonneg (h : ∀ n coin, c.coin n = some coin → 0 ≤ coin.out.nValue) : 0 ≤ c.value := by
  refine sum_nonneg fun a hMem => ?_
  obtain ⟨o, hOut, rfl⟩ := mem_map.mp hMem
  unfold CTxOut.availableValue
  split
  · exact Int.le_refl 0
  · rename_i hNull
    obtain ⟨n, hGet⟩ := mem_iff_getElem?.mp hOut
    refine h n ⟨o, c.fCoinBase, c.nHeight, c.nVersion⟩ ?_
    simp [coin, hGet, Option.filter, hNull]

theorem value_eq_zero (h : c.isPruned = true) : c.value = 0 := by
  refine sum_eq_zero fun a hMem => ?_
  obtain ⟨o, hOut, rfl⟩ := mem_map.mp hMem
  rw [CTxOut.availableValue, all_eq_true.mp h o hOut]
  rfl

theorem value_fromTx_le (h : ∀ out ∈ tx.vout, 0 ≤ out.nValue) (nHeight : Nat) :
    (fromTx tx nHeight).value ≤ (tx.vout.map CTxOut.nValue).sum := by
  unfold fromTx
  rw [value_cleanup, value, map_map]
  refine sum_le_sum fun o hMem => ?_
  have hValue := h o hMem
  rw [Function.comp_apply]
  split
  · exact hValue
  · unfold CTxOut.availableValue
    split
    · exact hValue
    · exact Int.le_refl _

end CCoins

/-! ## The view -/

namespace CoinsView

variable {v : CoinsView} {o : COutPoint} {tx : CTransaction}

theorem totalValue_spendInput {c : Coin} (h : v.coin o = some c) :
    (v.spendInput o).totalValue = v.totalValue - c.out.nValue := by
  obtain ⟨coins, hGet, hCoin⟩ := Option.bind_eq_some_iff.mp h
  unfold totalValue spendInput
  rw [TreeMap.total_modify _ hGet, CCoins.value_spend hCoin]
  ring

theorem totalValue_foldl_spendInput {os : List COutPoint} (hNodup : os.Nodup)
    (h : ∀ o ∈ os, ∃ c, v.coin o = some c) :
    (os.foldl spendInput v).totalValue =
      v.totalValue - (os.map fun o => ((v.unspent o).getD {}).nValue).sum := by
  induction os generalizing v with
  | nil => simp
  | cons o os ih =>
    obtain ⟨hHead, hTail⟩ := nodup_cons.mp hNodup
    obtain ⟨c, hCoin⟩ := h o mem_cons_self
    have hSame : ∀ y ∈ os, (v.spendInput o).coin y = v.coin y := by
      intro y hMem
      have hNe : y ≠ o := fun hEq => hHead (hEq ▸ hMem)
      rw [coin_spendInput, if_neg hNe]
    have hValues : (os.map fun y => (((v.spendInput o).unspent y).getD {}).nValue) =
        os.map fun y => ((v.unspent y).getD {}).nValue :=
      map_congr_left fun y hMem => by rw [unspent_eq, unspent_eq, hSame y hMem]
    rw [foldl_cons, ih hTail fun y hMem => by
      rw [hSame y hMem]
      exact h y (mem_cons_of_mem _ hMem)]
    rw [totalValue_spendInput hCoin, hValues, map_cons, sum_cons, unspent_eq, hCoin]
    simp only [Option.map_some, Option.getD_some]
    ring

def valueAt (v : CoinsView) (txid : Uint256) : CAmount :=
  (v.cacheCoins[txid]?.map CCoins.value).getD 0

theorem valueAt_nonneg (h : v.Nonneg) (txid : Uint256) : 0 ≤ v.valueAt txid := by
  unfold valueAt
  cases hGet : v.cacheCoins[txid]? with
  | none => exact Int.le_refl 0
  | some coins =>
    refine CCoins.value_nonneg fun n coin hCoin => h ⟨txid, n⟩ coin ?_
    simp [CoinsView.coin, hGet, hCoin]

theorem valueAt_eq_zero {txid : Uint256} (h : v.overwrites txid = false) : v.valueAt txid = 0 := by
  unfold valueAt
  unfold overwrites at h
  cases hGet : v.cacheCoins[txid]? with
  | none => rfl
  | some coins =>
    rw [hGet] at h
    exact CCoins.value_eq_zero (by simpa using h)

def spentValue (v : CoinsView) (tx : CTransaction) : CAmount :=
  if tx.isCoinBase then 0 else v.inputValue tx.vin

theorem totalValue_updateCoins (hNodup : (spentBy tx).Nodup) (hInputs : v.haveInputs tx = true)
    (txid : Uint256) (nHeight : Nat) :
    (v.updateCoins txid tx nHeight).totalValue =
      v.totalValue - v.spentValue tx - (v.spendInputs tx).valueAt txid +
        (CCoins.fromTx tx nHeight).value := by
  have hSpent : (v.spendInputs tx).totalValue = v.totalValue - v.spentValue tx := by
    rw [spendInputs_eq, totalValue_foldl_spendInput hNodup (v.haveInputs_eq_true.mp hInputs)]
    unfold spentBy spentValue
    split
    · simp
    · rw [map_map]
      rfl
  rw [← hSpent]
  exact TreeMap.total_insert _ _

theorem nonneg_spendInputs (h : v.Nonneg) : (v.spendInputs tx).Nonneg := by
  intro o c hCoin
  rw [spendInputs_eq, coin_foldl_spendInput] at hCoin
  split at hCoin
  · cases hCoin
  · exact h o c hCoin

theorem nonneg_updateCoins (h : v.Nonneg) (hOut : ∀ out ∈ tx.vout, 0 ≤ out.nValue)
    (txid : Uint256) (nHeight : Nat) : (v.updateCoins txid tx nHeight).Nonneg := by
  intro o c hCoin
  rw [coin_updateCoins] at hCoin
  split at hCoin
  · rw [CCoins.coin_fromTx] at hCoin
    obtain ⟨out, hFilter, rfl⟩ := Option.map_eq_some_iff.mp hCoin
    obtain ⟨hGet, _⟩ := Option.filter_eq_some_iff.mp hFilter
    exact hOut out (mem_of_getElem? hGet)
  · split at hCoin
    · cases hCoin
    · exact h o c hCoin

end CoinsView

end CloudService
