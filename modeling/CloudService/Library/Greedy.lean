/-
  Taking items from a list while a running total stays within a bound: an item that
  would exceed the bound is passed over, and the later ones are still tried.
-/

import Mathlib.Algebra.Order.BigOperators.Group.List
import Mathlib.Algebra.Order.Ring.Int

namespace Greedy

variable {α β σ ε : Type} (amount : α → Int) (bound : Int)

/-- The items that are taken, from a running total on. -/
def taken : Int → List α → List α
  | _, [] => []
  | total, x :: xs =>
    if bound < total + amount x then taken total xs else x :: taken (total + amount x) xs

/-- No item exceeds the bound. -/
def fits : Int → List α → Bool
  | _, [] => true
  | total, x :: xs => decide (total + amount x ≤ bound) && fits (total + amount x) xs

/-- The item is within the bound beside what is taken of the items before it. -/
def Within (total : Int) (xs : List α) (x : α) : Prop :=
  ∃ before after, xs = before ++ x :: after ∧
    total + ((taken amount bound total before).map amount).sum + amount x ≤ bound

variable {amount bound} {bound' total : Int} {xs : List α} {x : α}

theorem within_iff : Within amount bound total xs x ↔ x ∈ taken amount bound total xs := by
  induction xs generalizing total with
  | nil => simp [Within, taken]
  | cons y ys ih =>
    rw [taken]
    constructor
    · rintro ⟨before, after, hSplit, hLe⟩
      cases before with
      | nil =>
        cases hSplit
        rw [if_neg (by simpa [taken] using hLe)]
        exact List.mem_cons_self
      | cons b before =>
        cases hSplit
        rw [taken] at hLe
        split
        · rw [if_pos ‹_›] at hLe
          exact ih.mp ⟨before, after, rfl, hLe⟩
        · rw [if_neg ‹_›, List.map_cons, List.sum_cons, ← Int.add_assoc] at hLe
          exact List.mem_cons_of_mem _ (ih.mp ⟨before, after, rfl, hLe⟩)
    · intro hMem
      split at hMem
      · obtain ⟨before, after, rfl, hLe⟩ := ih.mpr hMem
        exact ⟨y :: before, after, rfl, by rwa [taken, if_pos ‹_›]⟩
      · rcases List.mem_cons.mp hMem with rfl | hRest
        · exact ⟨[], ys, rfl, by simpa [taken] using Int.not_lt.mp ‹_›⟩
        · obtain ⟨before, after, rfl, hLe⟩ := ih.mpr hRest
          refine ⟨y :: before, after, rfl, ?_⟩
          rwa [taken, if_neg ‹_›, List.map_cons, List.sum_cons, ← Int.add_assoc]

instance [DecidableEq α] : Decidable (Within amount bound total xs x) :=
  decidable_of_iff' _ within_iff

theorem taken_sublist : (taken amount bound total xs).Sublist xs := by
  induction xs generalizing total with
  | nil => exact .slnil
  | cons x xs ih =>
    rw [taken]
    split
    · exact ih.cons x
    · exact ih.cons_cons x

/-- A smaller bound takes the same items when these fit it. -/
theorem taken_of_fits (hBound : bound' ≤ bound)
    (hFits : fits amount bound' total (taken amount bound total xs) = true) :
    taken amount bound' total xs = taken amount bound total xs := by
  induction xs generalizing total with
  | nil => rfl
  | cons x xs ih =>
    rw [taken] at hFits ⊢
    rw [taken]
    by_cases hOver : bound < total + amount x
    · rw [if_pos hOver] at hFits ⊢
      rw [if_pos (Int.lt_of_le_of_lt hBound hOver)]
      exact ih hFits
    · rw [if_neg hOver, fits, Bool.and_eq_true, decide_eq_true_eq] at hFits
      rw [if_neg hOver, if_neg (Int.not_lt.mpr hFits.1), ih hFits.2]

theorem fits_taken : fits amount bound total (taken amount bound total xs) = true := by
  induction xs generalizing total with
  | nil => rfl
  | cons x xs ih =>
    rw [taken]
    split
    · exact ih
    · rename_i hWithin
      rw [fits, ih, Bool.and_true, decide_eq_true_eq]
      exact Int.not_lt.mp hWithin

/-- The items fit two bounds when they fit the smaller one. -/
theorem fits_min (h : fits amount bound total xs = true) (h' : fits amount bound' total xs = true) :
    fits amount (min bound bound') total xs = true := by
  induction xs generalizing total with
  | nil => rfl
  | cons x xs ih =>
    rw [fits, Bool.and_eq_true, decide_eq_true_eq] at h h' ⊢
    exact ⟨Int.le_min.mpr ⟨h.1, h'.1⟩, ih h.2 h'.2⟩

/-- The final total of items that fit is within the bound. -/
theorem sum_le_of_fits (hTotal : total ≤ bound) (h : fits amount bound total xs = true) :
    total + (xs.map amount).sum ≤ bound := by
  induction xs generalizing total with
  | nil => simpa using hTotal
  | cons x xs ih =>
    rw [fits, Bool.and_eq_true, decide_eq_true_eq] at h
    rw [List.map_cons, List.sum_cons, ← Int.add_assoc]
    exact ih h.1 h.2

section Fold

variable (amount bound) (total : σ → Int)

/-- A loop that skips the items beyond the bound runs over the taken ones. -/
theorem foldlM_eq_taken (step act : σ → α → Except ε σ)
    (hSkip : ∀ s x, bound < total s + amount x → step s x = .ok s)
    (hTake : ∀ s x, ¬bound < total s + amount x → step s x = act s x)
    (hTotal : ∀ s x s', act s x = .ok s' → total s' = total s + amount x) (xs : List α) (s : σ) :
    xs.foldlM step s = (taken amount bound (total s) xs).foldlM act s := by
  induction xs generalizing s with
  | nil => rfl
  | cons x xs ih =>
    rw [List.foldlM_cons, taken]
    by_cases hOver : bound < total s + amount x
    · rw [hSkip s x hOver, if_pos hOver]
      exact ih s
    · rw [hTake s x hOver, if_neg hOver, List.foldlM_cons]
      cases hAct : act s x with
      | error e => rfl
      | ok s' =>
        rw [← hTotal s x s' hAct]
        exact ih s'

/-- The same for a loop that cannot fail. -/
theorem foldl_eq_taken (step act : σ → α → σ) {xs : List α}
    (hSkip : ∀ s, ∀ x ∈ xs, bound < total s + amount x → step s x = s)
    (hTake : ∀ s, ∀ x ∈ xs, ¬bound < total s + amount x → step s x = act s x)
    (hTotal : ∀ s x, total (act s x) = total s + amount x) (s : σ) :
    xs.foldl step s = (taken amount bound (total s) xs).foldl act s := by
  induction xs generalizing s with
  | nil => rfl
  | cons x xs ih =>
    have hRest := ih (fun s y hMem => hSkip s y (List.mem_cons_of_mem _ hMem))
      (fun s y hMem => hTake s y (List.mem_cons_of_mem _ hMem))
    rw [List.foldl_cons, taken]
    by_cases hOver : bound < total s + amount x
    · rw [hSkip s x List.mem_cons_self hOver, if_pos hOver]
      exact hRest s
    · rw [hTake s x List.mem_cons_self hOver, if_neg hOver, List.foldl_cons, ← hTotal]
      exact hRest _

end Fold

end Greedy
