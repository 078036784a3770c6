/-
  The ranges that the value checks establish, so that no 64-bit sum of an accepted transaction
  overflows.
-/

import CloudService.Chain.Checked
import CloudService.Coins.View
import CloudService.Library.Ranges

namespace CloudService

open CoinsView List

/-! ## 64-bit sums -/

theorem addInt64_eq {a b : Int} (ha : 0 ≤ a ∧ a ≤ MAX_MONEY) (hb : 0 ≤ b ∧ b ≤ MAX_MONEY) :
    addInt64 a b = a + b := by
  have hMax : (MAX_MONEY : Int) = 200000000000000000 := by decide
  rw [hMax] at ha hb
  exact Int.bmod_eq_of_le (by omega) (by omega)

theorem foldl_addInt64 {α : Type} (f : α → Int) (xs : List α) (a : Int) :
    addInt64 (xs.foldl (fun sum x => addInt64 sum (f x)) a) 0 = addInt64 a (xs.map f).sum := by
  induction xs generalizing a with
  | nil => simp
  | cons x xs ih =>
    rw [foldl_cons, ih, map_cons, sum_cons]
    unfold addInt64
    rw [Int.bmod_add_bmod, Int.add_assoc]

/-! ## CheckTransaction -/

section Values

variable {tx : CTransaction}

theorem foldlM_checkOutput {outs : List CTxOut} {a r : CAmount}
    (h : outs.foldlM checkOutput a = .ok r) : ∀ out ∈ outs, 0 ≤ out.nValue := by
  induction outs generalizing a with
  | nil => simp
  | cons out outs ih =>
    rw [foldlM_cons, except_bind_eq_ok] at h
    obtain ⟨b, hHead, hRest⟩ := h
    unfold checkOutput at hHead
    simp only [check_bind_eq_ok, rejectIf_eq_ok, decide_eq_false_iff_not, Int.not_lt] at hHead
    exact forall_mem_cons.mpr ⟨hHead.1, ih hRest⟩

theorem foldlM_checkJoinSplitIn {joinsplits : List JSDescription} {a r : CAmount}
    (hStart : 0 ≤ a) (h : joinsplits.foldlM checkJoinSplitIn a = .ok r) :
    r = a + (joinsplits.map JSDescription.vpubNew).sum ∧ 0 ≤ r ∧ (r ≤ MAX_MONEY ∨ r = a) := by
  induction joinsplits generalizing a with
  | nil =>
    cases h
    exact ⟨by simp, hStart, .inr rfl⟩
  | cons joinsplit joinsplits ih =>
    rw [foldlM_cons, except_bind_eq_ok] at h
    obtain ⟨b, hHead, hRest⟩ := h
    unfold checkJoinSplitIn at hHead
    simp only [check_bind_eq_ok, rejectIf_eq_ok, Bool.or_eq_false_iff, Bool.not_eq_false',
      moneyRange_iff] at hHead
    obtain ⟨⟨_, hRange⟩, hEq⟩ := hHead
    cases hEq
    obtain ⟨hSum, hLow, hHigh⟩ := ih hRange.1 hRest
    refine ⟨by rw [hSum, map_cons, sum_cons, Int.add_assoc], hLow, .inl ?_⟩
    rcases hHigh with hHigh | hSame
    · exact hHigh
    · exact hSame ▸ hRange.2

theorem checkTransactionValues_eq_ok (h : checkTransactionValues tx = .ok ()) :
    (∀ out ∈ tx.vout, 0 ≤ out.nValue) ∧
      (tx.vShieldedSpend = [] → tx.vShieldedOutput = [] → tx.isFluxnodeTx = false →
        tx.valueBalance = 0) ∧
      0 ≤ tx.getShieldedValueIn ∧ tx.getShieldedValueIn ≤ MAX_MONEY := by
  have hMax : (0 : Int) ≤ MAX_MONEY := by decide
  unfold checkTransactionValues at h
  rw [except_bind_eq_ok] at h
  obtain ⟨sum, hOutputs, h⟩ := h
  rw [check_bind_eq_ok, check_bind_eq_ok] at h
  obtain ⟨hNoSource, _, h⟩ := h
  rw [check_bind_eq_ok, except_bind_eq_ok] at h
  obtain ⟨_, _, _, h⟩ := h
  rw [except_bind_eq_ok] at h
  obtain ⟨sumIn, hIn, hBalance⟩ := h
  obtain ⟨hSum, hLow, hHigh⟩ := foldlM_checkJoinSplitIn (Int.le_refl 0) hIn
  rw [Int.zero_add] at hSum
  refine ⟨foldlM_checkOutput hOutputs, fun hSpend hOutput hFluxnode => ?_, ?_⟩
  · simpa [hSpend, hOutput, hFluxnode] using hNoSource
  · unfold CTransaction.getShieldedValueIn
    rw [← hSum]
    by_cases hPos : 0 ≤ tx.valueBalance
    · rw [if_pos hPos, Int.add_comm]
      simpa [hPos, moneyRange_iff] using hBalance
    · rw [if_neg hPos, Int.zero_add]
      refine ⟨hLow, ?_⟩
      rcases hHigh with hHigh | hSame
      · exact hHigh
      · exact hSame ▸ hMax

theorem ValidTx.nodup_spentBy (h : ValidTx tx) : (spentBy tx).Nodup := by
  have hInputs := h.inputs
  unfold checkTransactionInputs at hInputs
  rw [check_bind_eq_ok, rejectIf_eq_ok] at hInputs
  unfold spentBy
  split
  · exact nodup_nil
  · simpa using hInputs.1

end Values

/-! ## CheckTxInputs -/

section Inputs

variable {coinbaseProtected : Bool} {v : CoinsView} {nSpendHeight : Nat} {tx : CTransaction}
  {roots : TreeRoots}

def CoinsView.inputValue (v : CoinsView) (vin : List CTxIn) : CAmount :=
  (vin.map fun txin => (v.getOutputFor txin).nValue).sum

theorem foldlM_checkTxInput {vin : List CTxIn} {a r : CAmount} (hStart : 0 ≤ a ∧ a ≤ MAX_MONEY)
    (h : vin.foldlM (checkTxInput coinbaseProtected v nSpendHeight tx) a = .ok r) :
    r = a + v.inputValue vin ∧ 0 ≤ r ∧ r ≤ MAX_MONEY := by
  induction vin generalizing a with
  | nil =>
    cases h
    exact ⟨by simp [inputValue], hStart⟩
  | cons txin vin ih =>
    rw [foldlM_cons, except_bind_eq_ok] at h
    obtain ⟨b, hHead, hRest⟩ := h
    unfold checkTxInput at hHead
    simp only [check_bind_eq_ok, rejectIf_eq_ok, Bool.or_eq_false_iff, Bool.not_eq_false',
      moneyRange_iff] at hHead
    obtain ⟨_, _, ⟨hValue, hRange⟩, hEq⟩ := hHead
    cases hEq
    obtain ⟨hSum, hBounds⟩ := ih hRange hRest
    refine ⟨?_, hBounds⟩
    rw [hSum, addInt64_eq hStart hValue, inputValue, inputValue, map_cons, sum_cons, Int.add_assoc]

theorem checkTxInputs_eq_ok (hShielded : 0 ≤ tx.getShieldedValueIn)
    (hShieldedMax : tx.getShieldedValueIn ≤ MAX_MONEY)
    (h : checkTxInputs coinbaseProtected v nSpendHeight tx roots = .ok ()) :
    0 ≤ v.inputValue tx.vin ∧ v.inputValue tx.vin ≤ MAX_MONEY ∧
      tx.getValueOut ≤ v.inputValue tx.vin + tx.getShieldedValueIn := by
  unfold checkTxInputs at h
  rw [check_bind_eq_ok, check_bind_eq_ok, except_bind_eq_ok] at h
  obtain ⟨_, _, sum, hInputs, h⟩ := h
  obtain ⟨hSum, hLow, hHigh⟩ := foldlM_checkTxInput (by decide) hInputs
  rw [Int.zero_add] at hSum
  subst hSum
  rw [addInt64_eq ⟨hLow, hHigh⟩ ⟨hShielded, hShieldedMax⟩] at h
  simp only [check_bind_eq_ok, rejectIf_eq_ok, decide_eq_false_iff_not, Int.not_lt] at h
  exact ⟨hLow, hHigh, h.2.1⟩

theorem getValueIn_eq (hCoinBase : tx.isCoinBase = false) (hFluxnode : tx.isFluxnodeTx = false)
    (hLow : 0 ≤ v.inputValue tx.vin) (hHigh : v.inputValue tx.vin ≤ MAX_MONEY)
    (hShielded : 0 ≤ tx.getShieldedValueIn) (hShieldedMax : tx.getShieldedValueIn ≤ MAX_MONEY) :
    v.getValueIn tx = v.inputValue tx.vin + tx.getShieldedValueIn := by
  have hSum := foldl_addInt64 (fun txin => (v.getOutputFor txin).nValue) tx.vin 0
  have hWrapped : ∀ a b : Int, addInt64 a b = addInt64 (addInt64 a 0) b := by
    intro a b
    unfold addInt64
    rw [Int.add_zero, Int.bmod_add_bmod]
  unfold getValueIn
  rw [hCoinBase, hFluxnode, if_neg (by decide), if_neg (by decide), hWrapped, hSum]
  change addInt64 (addInt64 0 (v.inputValue tx.vin)) _ = _
  rw [addInt64_eq (by decide) ⟨hLow, hHigh⟩, Int.zero_add,
    addInt64_eq ⟨hLow, hHigh⟩ ⟨hShielded, hShieldedMax⟩]

end Inputs

end CloudService
