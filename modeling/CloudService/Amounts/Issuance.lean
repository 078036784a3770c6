/-
  How much the blocks of the main network may issue up to a height. The subsidy is added up
  over its five stretches, the funds over their instalments.
-/

import CloudService.Consensus.Subsidy
import Mathlib.Algebra.BigOperators.Intervals
import Mathlib.Algebra.BigOperators.Ring.Finset
import Mathlib.Algebra.Order.BigOperators.Group.Finset
import Mathlib.Tactic.Ring

namespace CloudService

/-- What the blocks of heights `1 .. H` may issue. -/
def issuedUpTo (p : ChainParams) (H : ℕ) : CAmount :=
  ∑ h ∈ Finset.Ico 1 (H + 1), coinbaseAllowance p (h : ℤ)

/-! ## Funds -/

theorem sum_oneTime (x N : ℕ) (a : CAmount) (hPos : 1 ≤ x) (hLt : x < N) :
    (∑ h ∈ Finset.Ico 1 N, if (h : ℤ) = (x : ℤ) then a else 0) = a := by
  simp only [Nat.cast_inj]
  rw [Finset.sum_ite_eq_of_mem' _ _ _ (Finset.mem_Ico.mpr ⟨hPos, hLt⟩)]

theorem isFundInterval_iff (start interval times h : ℕ) (amount : CAmount) (hAmount : 0 ≤ amount) :
    isFundInterval (h : ℤ) ⟨start, amount, interval, times, hAmount⟩ = true ↔
      h ∈ (Finset.range times).image fun i => start + interval * i := by
  simp only [isFundInterval, Finset.mem_image, Finset.mem_range, Int.toNat_natCast]
  constructor
  · intro hDue
    split at hDue
    · cases hDue
    · split at hDue
      · cases hDue
      · obtain ⟨i, hMem, hEq⟩ := List.any_eq_true.mp hDue
        have hHeight : (h : ℤ) = start + interval * i := by simpa using hEq
        exact ⟨i, List.mem_range.mp hMem, by exact_mod_cast hHeight.symm⟩
  · rintro ⟨i, hLt, rfl⟩
    have hMul : interval * i ≤ interval * times := Nat.mul_le_mul_left _ hLt.le
    rw [if_neg (by push_cast; omega), if_neg (by push_cast; omega), List.any_eq_true]
    exact ⟨i, List.mem_range.mpr hLt, by simp⟩

theorem sum_instalments (start interval times N : ℕ) (amount : CAmount) (hAmount : 0 ≤ amount)
    (hStart : 1 ≤ start) (hInterval : 0 < interval) (hLast : start + interval * times ≤ N) :
    (∑ h ∈ Finset.Ico 1 N,
      if isFundInterval (h : ℤ) ⟨start, amount, interval, times, hAmount⟩ then amount else 0) =
      times * amount := by
  have hInj : Function.Injective fun i => start + interval * i := by
    intro i j hEq
    exact Nat.eq_of_mul_eq_mul_left hInterval (Nat.add_left_cancel hEq)
  have hSub : (Finset.range times).image (fun i => start + interval * i) ⊆ Finset.Ico 1 N := by
    intro h hMem
    obtain ⟨i, hLt, rfl⟩ := Finset.mem_image.mp hMem
    have hMul : interval * (i + 1) ≤ interval * times :=
      Nat.mul_le_mul_left _ (Finset.mem_range.mp hLt)
    rw [Nat.mul_succ] at hMul
    exact Finset.mem_Ico.mpr ⟨by omega, by omega⟩
  simp only [isFundInterval_iff]
  rw [Finset.sum_ite_mem, Finset.inter_eq_right.mpr hSub, Finset.sum_const,
    Finset.card_image_of_injective _ hInj, Finset.card_range, nsmul_eq_mul]

section Subsidy

variable (h : ℕ)

theorem mainSubsidy_rampUp (hLo : 2 ≤ h) (hHi : h < 10000) :
    getBlockSubsidy mainParams (h : ℤ) = 750000 * h := by
  have hRamp : (h : ℤ) < mainParams.nSubsidySlowStartInterval.tdiv 2 := by
    change (h : ℤ) < 10000
    omega
  unfold getBlockSubsidy
  rw [if_neg (by omega), if_pos hRamp]
  rfl

theorem mainSubsidy_rampTop (hLo : 10000 ≤ h) (hHi : h < 20000) :
    getBlockSubsidy mainParams (h : ℤ) = 750000 * (h + 1) := by
  have hNotRamp : ¬ (h : ℤ) < mainParams.nSubsidySlowStartInterval.tdiv 2 := by
    change ¬ (h : ℤ) < 10000
    omega
  have hSlow : (h : ℤ) < mainParams.nSubsidySlowStartInterval := by
    change (h : ℤ) < 20000
    omega
  unfold getBlockSubsidy
  rw [if_neg (by omega), if_neg hNotRamp, if_pos hSlow]
  rfl

theorem mainSubsidy_halvings {halvings : ℕ} (hLo : 20000 ≤ h)
    (hHalvings : (h - 10000) / 655350 = halvings) :
    getBlockSubsidy mainParams (h : ℤ) =
      if (64 : ℤ) ≤ halvings then 0
      else if (2 : ℤ) ≤ halvings then 3750000000
      else 15000000000 / 2 ^ halvings := by
  have hCount : ((h : ℤ) - mainParams.subsidySlowStartShift).tdiv
      mainParams.nSubsidyHalvingInterval = halvings := by
    have hShift : mainParams.subsidySlowStartShift = 10000 := by decide
    have hInterval : mainParams.nSubsidyHalvingInterval = 655350 := by decide
    rw [hShift, hInterval, Int.tdiv_eq_ediv_of_nonneg (by omega)]
    omega
  have hNotRamp : ¬ (h : ℤ) < mainParams.nSubsidySlowStartInterval.tdiv 2 := by
    change ¬ (h : ℤ) < 10000
    omega
  have hNotSlow : ¬ (h : ℤ) < mainParams.nSubsidySlowStartInterval := by
    change ¬ (h : ℤ) < 20000
    omega
  unfold getBlockSubsidy
  rw [if_neg (by omega), if_neg hNotRamp, if_neg hNotSlow, hCount]
  simp only [Int.toNat_natCast, COIN]
  norm_num

theorem mainSubsidy_full (hLo : 20000 ≤ h) (hHi : h < 665350) :
    getBlockSubsidy mainParams (h : ℤ) = 15000000000 := by
  have hNone : (h - 10000) / 655350 = 0 := by omega
  rw [mainSubsidy_halvings h hLo hNone, if_neg (by decide), if_neg (by decide)]
  rfl

theorem mainSubsidy_half (hLo : 665350 ≤ h) (hHi : h < 1320700) :
    getBlockSubsidy mainParams (h : ℤ) = 7500000000 := by
  have hOne : (h - 10000) / 655350 = 1 := by omega
  rw [mainSubsidy_halvings h (by omega) hOne, if_neg (by decide), if_neg (by decide)]
  rfl

theorem mainSubsidy_fixed (hLo : 1320700 ≤ h) (hHi : h < 41952400) :
    getBlockSubsidy mainParams (h : ℤ) = 3750000000 := by
  rw [mainSubsidy_halvings h (by omega) rfl, if_neg (by omega), if_pos (by omega)]

end Subsidy

theorem sum_Ico_of_increments {f : ℕ → ℤ} (F : ℕ → ℤ) {a b : ℕ} (hLe : a ≤ b)
    (h : ∀ n, a ≤ n → n < b → f n = F (n + 1) - F n) :
    ∑ n ∈ Finset.Ico a b, f n = F b - F a := by
  rw [← Finset.sum_Ico_sub F hLe]
  exact Finset.sum_congr rfl fun n hn => h n (Finset.mem_Ico.mp hn).1 (Finset.mem_Ico.mp hn).2

theorem sum_mainSubsidy (N : ℕ) (hLo : 1320700 ≤ N) (hHi : N ≤ 41952400) :
    ∑ h ∈ Finset.Ico 1 N, getBlockSubsidy mainParams (h : ℤ) =
      16047374999250000 + 3750000000 * ((N : ℤ) - 1320700) := by
  have hFirst : ∑ h ∈ Finset.Ico (1 : ℕ) 2, getBlockSubsidy mainParams (h : ℤ) =
    1302000000000000 := by
    decide
  have hRampUp : ∑ h ∈ Finset.Ico (2 : ℕ) 10000, getBlockSubsidy mainParams (h : ℤ) =
      375000 * 10000 * 9999 - 375000 * 2 := by
    rw [sum_Ico_of_increments (fun n => 375000 * n * (n - 1)) (by omega) fun n hn hn' => by
      rw [mainSubsidy_rampUp n hn hn']; push_cast; ring]
    norm_num
  have hRampTop : ∑ h ∈ Finset.Ico (10000 : ℕ) 20000, getBlockSubsidy mainParams (h : ℤ) =
      375000 * 20000 * 20001 - 375000 * 10000 * 10001 := by
    rw [sum_Ico_of_increments (fun n => 375000 * n * (n + 1)) (by omega) fun n hn hn' => by
      rw [mainSubsidy_rampTop n hn hn']; push_cast; ring]
    norm_num
  have hFull : ∑ h ∈ Finset.Ico (20000 : ℕ) 665350, getBlockSubsidy mainParams (h : ℤ) =
      15000000000 * 645350 := by
    rw [sum_Ico_of_increments (fun n => 15000000000 * n) (by omega) fun n hn hn' => by
      rw [mainSubsidy_full n hn hn']; push_cast; ring]
    norm_num
  have hHalf : ∑ h ∈ Finset.Ico (665350 : ℕ) 1320700, getBlockSubsidy mainParams (h : ℤ) =
      7500000000 * 655350 := by
    rw [sum_Ico_of_increments (fun n => 7500000000 * n) (by omega) fun n hn hn' => by
      rw [mainSubsidy_half n hn hn']; push_cast; ring]
    norm_num
  have hFixed : ∑ h ∈ Finset.Ico 1320700 N, getBlockSubsidy mainParams (h : ℤ) =
      3750000000 * ((N : ℤ) - 1320700) := by
    rw [sum_Ico_of_increments (fun n => 3750000000 * n) hLo fun n hn hn' => by
      rw [mainSubsidy_fixed n hn (by omega)]; push_cast; ring]
    push_cast
    ring
  rw [← Finset.sum_Ico_consecutive _ (show 1 ≤ 1320700 by omega) hLo,
    ← Finset.sum_Ico_consecutive _ (show 1 ≤ 665350 by omega) (show 665350 ≤ 1320700 by omega),
    ← Finset.sum_Ico_consecutive _ (show 1 ≤ 20000 by omega) (show 20000 ≤ 665350 by omega),
    ← Finset.sum_Ico_consecutive _ (show 1 ≤ 10000 by omega) (show 10000 ≤ 20000 by omega),
    ← Finset.sum_Ico_consecutive _ (show 1 ≤ 2 by omega) (show 2 ≤ 10000 by omega),
    hFirst, hRampUp, hRampTop, hFull, hHalf, hFixed]
  ring

/-! ## The cap -/

theorem issuedUpTo_main (H : ℕ) (hLo : 2310001 ≤ H) (hHi : H < 41952400) :
    issuedUpTo mainParams H =
      16047374999250000 + 3750000000 * ((H : ℤ) + 1 - 1320700) + 131000000000000000 := by
  simp only [issuedUpTo, coinbaseAllowance, Finset.sum_add_distrib]
  have hExchange : ∑ h ∈ Finset.Ico 1 (H + 1), getExchangeFundAmount mainParams (h : ℤ) =
      10000000000000000 := sum_oneTime 100000 (H + 1) _ (by omega) (by omega)
  have hFoundation : ∑ h ∈ Finset.Ico 1 (H + 1), getFoundationFundAmount mainParams (h : ℤ) =
      1000000000000000 := sum_oneTime 101000 (H + 1) _ (by omega) (by omega)
  have hSwap : (∑ h ∈ Finset.Ico 1 (H + 1),
      if isSwapPoolInterval mainParams (h : ℤ) then mainParams.swapPool.nAmount else 0) =
      20000000000000000 :=
    sum_instalments 102000 21600 10 (H + 1) _ (by decide) (by omega) (by omega) (by omega)
  have hDev : (∑ h ∈ Finset.Ico 1 (H + 1),
      if isDevFundInterval mainParams (h : ℤ) then mainParams.devFund.nAmount else 0) =
      50000000000000000 :=
    sum_instalments 150000 21600 100 (H + 1) _ (by decide) (by omega) (by omega) (by omega)
  have hMarketing : (∑ h ∈ Finset.Ico 1 (H + 1),
      if isMarketingFundInterval mainParams (h : ℤ) then mainParams.marketingFund.nAmount else 0) =
      50000000000000000 :=
    sum_instalments 150001 21600 100 (H + 1) _ (by decide) (by omega) (by omega) (by omega)
  rw [sum_mainSubsidy (H + 1) (by omega) (by omega), hExchange, hFoundation, hSwap, hDev,
    hMarketing]
  push_cast
  ring

theorem issuedUpTo_mono {H K : ℕ} (hLe : H ≤ K) :
    issuedUpTo mainParams H ≤ issuedUpTo mainParams K :=
  Finset.sum_le_sum_of_subset_of_nonneg
    (Finset.Ico_subset_Ico_right (by omega)) fun h _ _ =>
      coinbaseAllowance_nonneg mainParams h (Int.natCast_nonneg h)

/-- The blocks up to a height issue at most `MAX_MONEY` exactly when the height is at most
    15441399. -/
theorem issuedUpTo_le_maxMoney_iff (H : ℕ) :
    issuedUpTo mainParams H ≤ MAX_MONEY ↔ H ≤ 15441399 := by
  have hMax : MAX_MONEY = 200000000000000000 := rfl
  constructor
  · intro hLe
    by_contra hGt
    have hMono := issuedUpTo_mono (show 15441400 ≤ H by omega)
    rw [issuedUpTo_main 15441400 (by omega) (by omega)] at hMono
    rw [hMax] at hLe
    have := le_trans hMono hLe
    norm_num at this
  · intro hLe
    refine (issuedUpTo_mono hLe).trans ?_
    rw [issuedUpTo_main 15441399 (by omega) (by omega), hMax]
    norm_num

/-- The block of height 15441400 takes the total over the cap. -/
theorem not_issuedUpTo_le_maxMoney : ¬ issuedUpTo mainParams 15441400 ≤ MAX_MONEY := by
  have hMax : MAX_MONEY = 200000000000000000 := rfl
  rw [issuedUpTo_main 15441400 (by omega) (by omega), hMax]
  norm_num

end CloudService
