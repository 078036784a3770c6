/-
  The thresholds of the sortitions. The adaptive one divides before it multiplies, so that the
  product stays below `2 ^ 256`; the rounding costs less than two units per eligible staker.
-/

import CloudService.Chain.Evaluate
import Mathlib.Tactic.Ring

namespace CloudService

/-- The number of stakers that should be eligible. -/
def vrfTarget (params : Params) : Nat := u32OfInt (max 1 params.nOPoIVrfTargetEligible)

/-- A request at or above the adaptive height, with the number of stakers it was confirmed with. -/
structure AdaptiveRequest (params : Params) (c : OPoICache) (requestId : String) (stakers : Nat) :
    Prop where
  active : 0 < params.nOPoIAdaptiveVrfHeight
  recorded : ∃ req, c.mapRequests[requestId]? = some req ∧ req.vrfActiveStakers = stakers ∧
    u32OfInt params.nOPoIAdaptiveVrfHeight ≤ req.blockHeight

section Threshold

variable {params params' : Params} {c c' : OPoICache} {requestId requestId' : String}
  {stakers stakers' target target' : Nat}

theorem AdaptiveRequest.threshold_eq (h : AdaptiveRequest params c requestId stakers) :
    opoiVrfThresholdForRequest params c requestId =
      if stakers ≤ vrfTarget params then 2 ^ 256 - 1
      else (2 ^ 256 - 1) / stakers * vrfTarget params % 2 ^ 256 := by
  obtain ⟨hActive, req, hReq, rfl, hHeight⟩ := h
  have hAdaptive : ¬(params.nOPoIAdaptiveVrfHeight ≤ 0 ∨
      req.blockHeight < u32OfInt params.nOPoIAdaptiveVrfHeight) := by omega
  simp only [opoiVrfThresholdForRequest, hReq, if_neg hAdaptive]
  rfl

/-- With more stakers than places the product is at most the largest value, before it is reduced. -/
theorem quotient_mul_le (h : target ≤ stakers) : (2 ^ 256 - 1) / stakers * target ≤ 2 ^ 256 - 1 :=
  calc (2 ^ 256 - 1) / stakers * target ≤ (2 ^ 256 - 1) / stakers * stakers :=
        Nat.mul_le_mul_left _ h
    _ ≤ 2 ^ 256 - 1 := Nat.div_mul_le_self _ _

section

variable (h : AdaptiveRequest params c requestId stakers)

include h

theorem AdaptiveRequest.threshold_of_lt (hLt : vrfTarget params < stakers) :
    opoiVrfThresholdForRequest params c requestId = (2 ^ 256 - 1) / stakers * vrfTarget params := by
  have hFits := quotient_mul_le (Nat.le_of_lt hLt)
  rw [h.threshold_eq, if_neg (by omega), Nat.mod_eq_of_lt (by omega)]

theorem AdaptiveRequest.threshold_le :
    opoiVrfThresholdForRequest params c requestId ≤ 2 ^ 256 - 1 := by
  by_cases hLt : vrfTarget params < stakers
  · rw [h.threshold_of_lt hLt]
    exact quotient_mul_le (Nat.le_of_lt hLt)
  · rw [h.threshold_eq, if_pos (by omega)]

/-- More stakers or fewer places do not raise the threshold. -/
theorem AdaptiveRequest.threshold_mono (h' : AdaptiveRequest params' c' requestId' stakers')
    (hStakers : stakers ≤ stakers') (hTarget : vrfTarget params' ≤ vrfTarget params) :
    opoiVrfThresholdForRequest params' c' requestId' ≤
      opoiVrfThresholdForRequest params c requestId := by
  by_cases hLt : vrfTarget params < stakers
  · rw [h.threshold_of_lt hLt, h'.threshold_of_lt (by omega)]
    exact Nat.mul_le_mul (Nat.div_le_div_left hStakers (by omega)) hTarget
  · rw [h.threshold_eq, if_pos (by omega)]
    exact h'.threshold_le

end

theorem threshold_bounds (hTarget : 1 ≤ target) (hLt : target < stakers) :
    (2 ^ 256 * target / stakers : ℚ) - 2 * target < ((2 ^ 256 - 1) / stakers * target : ℕ) ∧
      (((2 ^ 256 - 1) / stakers * target : ℕ) : ℚ) ≤ 2 ^ 256 * target / stakers := by
  have hPos : (0 : ℚ) < stakers := by exact_mod_cast (by omega : 0 < stakers)
  -- the quotient loses less than one unit for each staker
  have hUpper : (2 ^ 256 - 1) / stakers * stakers ≤ 2 ^ 256 := by
    have := Nat.div_mul_le_self (2 ^ 256 - 1) stakers
    omega
  have hLower : 2 ^ 256 < ((2 ^ 256 - 1) / stakers + 2) * stakers := by
    have := Nat.lt_div_mul_add (a := 2 ^ 256 - 1) (b := stakers) (by omega)
    rw [Nat.add_mul]
    omega
  have hTargetPos : (0 : ℚ) < target := by exact_mod_cast hTarget
  have hUpperQ : (((2 ^ 256 - 1) / stakers : ℕ) : ℚ) * stakers ≤ 2 ^ 256 := by exact_mod_cast hUpper
  have hLowerQ : (2 : ℚ) ^ 256 < (((2 ^ 256 - 1) / stakers : ℕ) + 2) * stakers := by
    exact_mod_cast hLower
  rw [sub_lt_iff_lt_add, div_lt_iff₀ hPos, le_div_iff₀ hPos, Nat.cast_mul]
  constructor
  · calc (2 : ℚ) ^ 256 * target < (((2 ^ 256 - 1) / stakers : ℕ) + 2) * stakers * target :=
          mul_lt_mul_of_pos_right hLowerQ hTargetPos
      _ = _ := by ring
  · calc _ = (((2 ^ 256 - 1) / stakers : ℕ) : ℚ) * stakers * target := by ring
      _ ≤ 2 ^ 256 * target := mul_le_mul_of_nonneg_right hUpperQ hTargetPos.le

theorem auditSample_mono (env : Env) (commitment : Bytes) (seed : Uint256) {rate rate' : Int}
    (hRate : rate ≤ rate')
    (h : computeOPoIAuditSampleSelected env commitment seed rate = true) :
    computeOPoIAuditSampleSelected env commitment seed rate' = true := by
  unfold computeOPoIAuditSampleSelected at h ⊢
  split at h
  · cases h
  · rw [if_neg (by omega)]
    split
    · rfl
    · rw [if_neg (by omega)] at h
      split at h
      · cases h
      · next hLength =>
        rw [if_neg hLength]
        have hNat : rate.toNat ≤ rate'.toNat := by omega
        simp only [decide_eq_true_eq] at h ⊢
        have hLess := Nat.mul_le_mul_left ((2 ^ 256 - 1) / 10000) hNat
        rw [Nat.mod_eq_of_lt (by omega)] at h ⊢
        omega

/-- The adaptive threshold is the exact product, close to `2 ^ 256 * target / stakers`, and
    monotone;
    the audit sortition is monotone in its rate. -/
theorem sortition_thresholds (h : AdaptiveRequest params c requestId stakers) :
    (stakers ≤ vrfTarget params → opoiVrfThresholdForRequest params c requestId = 2 ^ 256 - 1) ∧
    (1 ≤ vrfTarget params → vrfTarget params < stakers →
      opoiVrfThresholdForRequest params c requestId = (2 ^ 256 - 1) / stakers * vrfTarget params ∧
        (2 ^ 256 * vrfTarget params / stakers : ℚ) - 2 * vrfTarget params <
          opoiVrfThresholdForRequest params c requestId ∧
        (opoiVrfThresholdForRequest params c requestId : ℚ) ≤
          2 ^ 256 * vrfTarget params / stakers) ∧
    (∀ params' c' requestId' stakers', AdaptiveRequest params' c' requestId' stakers' →
      stakers ≤ stakers' → vrfTarget params' ≤ vrfTarget params →
      opoiVrfThresholdForRequest params' c' requestId' ≤
        opoiVrfThresholdForRequest params c requestId) ∧
    ∀ env commitment seed rate rate', rate ≤ rate' →
      computeOPoIAuditSampleSelected env commitment seed rate = true →
      computeOPoIAuditSampleSelected env commitment seed rate' = true := by
  refine ⟨fun hLe => by rw [h.threshold_eq, if_pos hLe], fun hOne hLt => ?_,
    fun _ _ _ _ h' => h.threshold_mono h',
    fun env commitment seed _ _ => auditSample_mono env commitment seed⟩
  rw [h.threshold_of_lt hLt]
  exact ⟨rfl, threshold_bounds hOne hLt⟩

end Threshold

/-- A request that was confirmed with a number of stakers. -/
def sampleStakedRequest (stakers : Nat) : OPoICache :=
  let c := applyRequest sampleNet 5 {} (sampleRequest "r" "alice" 3 0)
  { mapRequests := c.mapRequests.map fun _ req => { req with vrfActiveStakers := stakers } }

theorem sortition_thresholds_of_ten :
    AdaptiveRequest { nOPoIAdaptiveVrfHeight := 1 } (sampleStakedRequest 10) "r" 10 ∧
      opoiVrfThresholdForRequest { nOPoIAdaptiveVrfHeight := 1 } (sampleStakedRequest 10) "r" =
        (2 ^ 256 - 1) / 10 * 3 := by
  have hFound : ((sampleStakedRequest 10).mapRequests["r"]?).any (fun req =>
      decide (req.vrfActiveStakers = 10 ∧ u32OfInt 1 ≤ req.blockHeight)) = true := by decide +kernel
  obtain ⟨req, hReq, hFields⟩ := (Option.any_eq_true _ _).mp hFound
  have h : AdaptiveRequest { nOPoIAdaptiveVrfHeight := 1 } (sampleStakedRequest 10) "r" 10 :=
    ⟨by decide, req, hReq, of_decide_eq_true hFields⟩
  exact ⟨h, ((sortition_thresholds h).2.1 (by decide) (by decide)).1⟩

end CloudService
