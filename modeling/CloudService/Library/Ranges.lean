/-
  The range of a 64-bit integer. A sum of amounts that are not negative stays in the range at
  every step when the whole sum does.
-/

import Mathlib.Algebra.Order.BigOperators.Group.List
import Mathlib.Algebra.Order.Ring.Int
import Mathlib.Data.List.Infix

namespace Ranges

variable {α : Type} {as bs : List Int}

def maxInt64 : Int := 9223372036854775807

/-- In the range of the type. -/
def InInt64 (x : Int) : Prop := -9223372036854775808 ≤ x ∧ x ≤ maxInt64

instance : DecidablePred InInt64 := fun _ => inferInstanceAs (Decidable (_ ∧ _))

theorem InInt64.of_nonneg {x : Int} (hNonneg : 0 ≤ x) (hLe : x ≤ maxInt64) : InInt64 x :=
  ⟨Int.le_trans (by decide) hNonneg, hLe⟩

theorem bmod_eq {x : Int} (h : InInt64 x) : x.bmod 18446744073709551616 = x := by
  unfold InInt64 maxInt64 at h
  exact Int.bmod_eq_of_le (by omega) (by omega)

theorem bmod_le_self {x : Int} (h : 0 ≤ x) : x.bmod 18446744073709551616 ≤ x := by
  by_cases hSmall : x < 9223372036854775808
  · rw [Int.bmod_eq_of_le (by omega) (by omega)]
  · have := Int.bmod_lt (x := x) (m := 18446744073709551616) (by decide)
    omega

/-- A part of a sum in the range. -/
theorem inInt64_sum_of_sublist (hNonneg : ∀ x ∈ bs, 0 ≤ x) (hSum : bs.sum ≤ maxInt64)
    (h : as.Sublist bs) : InInt64 as.sum :=
  .of_nonneg (List.sum_nonneg fun x hx => hNonneg x (h.subset hx))
    ((h.sum_le_sum hNonneg).trans hSum)

/-- Every partial sum over the items that pass a test. -/
theorem inInt64_sum_of_filter {items before : List α} {f : α → Int} {p : α → Bool}
    (hNonneg : ∀ x ∈ items, 0 ≤ f x) (hSum : (items.map f).sum ≤ maxInt64)
    (h : before <+: items.filter p) : InInt64 (before.map f).sum := by
  refine inInt64_sum_of_sublist (fun x hx => ?_) hSum
    ((h.sublist.trans List.filter_sublist).map f)
  obtain ⟨a, ha, rfl⟩ := List.mem_map.mp hx
  exact hNonneg a ha

/-- What a partial function finds, against what a larger one does. -/
theorem sum_filterMap_le {β γ : Type} {items : List α} {f : α → Option β} {g : α → Option γ}
    {u : β → Int} {v : γ → Int} (hNonneg : ∀ x y, g x = some y → 0 ≤ v y)
    (h : ∀ x z, f x = some z → ∃ y, g x = some y ∧ u z ≤ v y) :
    ((items.filterMap f).map u).sum ≤ ((items.filterMap g).map v).sum := by
  induction items with
  | nil => exact Int.le_refl 0
  | cons x items ih =>
    have hNext : 0 ≤ ((g x).map v).getD 0 := by
      cases hg : g x with
      | none => exact Int.le_refl 0
      | some y => exact hNonneg x y hg
    have hFirst : ((f x).map u).getD 0 ≤ ((g x).map v).getD 0 := by
      cases hf : f x with
      | none => exact hNext
      | some z =>
        obtain ⟨y, hg, hLe⟩ := h x z hf
        rw [hg]
        exact hLe
    have hCons : ∀ {δ : Type} (k : α → Option δ) (w : δ → Int),
        (((x :: items).filterMap k).map w).sum =
          ((k x).map w).getD 0 + ((items.filterMap k).map w).sum := by
      intro δ k w
      rw [List.filterMap_cons]
      cases k x with
      | none => exact (Int.zero_add _).symm
      | some z => rfl
    rw [hCons f u, hCons g v]
    exact Int.add_le_add hFirst ih

end Ranges
