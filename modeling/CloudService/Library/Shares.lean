/-
  Shares of a price by weight, each rounded towards zero: together they do not exceed the
  price when the weights do not exceed the total.
-/

import Mathlib.Algebra.Order.BigOperators.Group.List
import Mathlib.Algebra.Order.Ring.Int

namespace Shares

variable {α : Type} {as : List α} {w : α → Int} {price total : Int}

/-- The share of a weight in a price. -/
def share (price weight total : Int) : Int := (price * weight).tdiv total

section

variable {weight : Int} (hPrice : 0 ≤ price) (hWeight : 0 ≤ weight) (hTotal : 0 < total)

include hPrice hWeight hTotal

theorem share_mul_le : share price weight total * total ≤ price * weight := by
  have hNonneg : 0 ≤ price * weight := Int.mul_nonneg hPrice hWeight
  rw [share, Int.tdiv_eq_ediv_of_nonneg hNonneg]
  exact Int.ediv_mul_le _ hTotal.ne'

theorem share_nonneg : 0 ≤ share price weight total :=
  Int.tdiv_nonneg (Int.mul_nonneg hPrice hWeight) hTotal.le

theorem share_le (hLe : weight ≤ total) : share price weight total ≤ price := by
  refine Int.le_of_mul_le_mul_right ?_ hTotal
  exact (share_mul_le hPrice hWeight hTotal).trans (Int.mul_le_mul_of_nonneg_left hLe hPrice)

end

theorem sum_share_mul_le (hPrice : 0 ≤ price) (hTotal : 0 < total) (hWeights : ∀ a ∈ as, 0 ≤ w a) :
    (as.map fun a => share price (w a) total).sum * total ≤ price * (as.map w).sum := by
  induction as with
  | nil => simp
  | cons a as ih =>
    have hFirst := share_mul_le hPrice (hWeights a List.mem_cons_self) hTotal
    have hRest := ih fun b hb => hWeights b (List.mem_cons_of_mem _ hb)
    rw [List.map_cons, List.map_cons, List.sum_cons, List.sum_cons, Int.add_mul, Int.mul_add]
    exact Int.add_le_add hFirst hRest

theorem sum_share_le (hPrice : 0 ≤ price) (hTotal : 0 < total) (hWeights : ∀ a ∈ as, 0 ≤ w a)
    (hSum : (as.map w).sum ≤ total) : (as.map fun a => share price (w a) total).sum ≤ price := by
  refine Int.le_of_mul_le_mul_right ?_ hTotal
  exact (sum_share_mul_le hPrice hTotal hWeights).trans (Int.mul_le_mul_of_nonneg_left hSum hPrice)

end Shares
