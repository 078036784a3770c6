/-
  The longest suffix of a list whose items all satisfy a predicate. When the item before
  such a suffix does not satisfy it, the list determines the suffix and what is before it.
-/

import Mathlib.Data.List.DropRight

namespace Trailing

variable {α : Type} {p : α → Bool} {xs xs' ys ys' zs : List α} {x x' : α}

theorem rtakeWhile_append (h : ∀ y ∈ ys, p y = true) :
    (xs ++ ys).rtakeWhile p = xs.rtakeWhile p ++ ys := by
  induction ys using List.reverseRecOn with
  | nil => simp
  | append_singleton ys y ih =>
    have hLast : p y = true := h y (by simp)
    rw [← List.append_assoc, List.rtakeWhile_concat_pos _ _ _ hLast,
      ih fun z hMem => h z (by simp [hMem]), List.append_assoc]

theorem rtakeWhile_append_of_mem (hMem : x ∈ ys) (hx : p x = false) :
    (xs ++ ys).rtakeWhile p = ys.rtakeWhile p := by
  induction ys using List.reverseRecOn with
  | nil => simp at hMem
  | append_singleton ys y ih =>
    rw [← List.append_assoc]
    by_cases hLast : p y = true
    · rw [List.rtakeWhile_concat_pos _ _ _ hLast, List.rtakeWhile_concat_pos _ _ _ hLast, ih]
      rcases List.mem_append.mp hMem with hInit | hEq
      · exact hInit
      · rw [List.mem_singleton.mp hEq, hLast] at hx
        cases hx
    · rw [List.rtakeWhile_concat_neg _ _ _ hLast, List.rtakeWhile_concat_neg _ _ _ hLast]

/-- The suffix after an item that does not satisfy the predicate. -/
theorem rtakeWhile_cut (hx : p x = false) (h : ∀ y ∈ ys, p y = true) :
    (xs ++ x :: ys).rtakeWhile p = ys := by
  have hCut : (xs ++ [x]).rtakeWhile p = [] :=
    List.rtakeWhile_concat_neg p xs x (by simp [hx])
  rw [List.append_cons, rtakeWhile_append h, hCut, List.nil_append]

theorem append_cons_inj (hx : p x = false) (hx' : p x' = false) (h : ∀ y ∈ ys, p y = true)
    (h' : ∀ y ∈ ys', p y = true) (hEq : xs ++ x :: ys = xs' ++ x' :: ys') :
    xs = xs' ∧ x = x' ∧ ys = ys' := by
  have hSuffix := congrArg (List.rtakeWhile p) hEq
  rw [rtakeWhile_cut hx h, rtakeWhile_cut hx' h'] at hSuffix
  subst hSuffix
  rw [List.append_cons, List.append_cons xs', List.append_left_inj] at hEq
  obtain ⟨hInit, hLast⟩ := List.append_inj' hEq rfl
  exact ⟨hInit, List.singleton_inj.mp hLast, rfl⟩

/-- A part with an item that does not satisfy the predicate can stand in one place only
    before a suffix that does. -/
theorem append_append_inj (hMem : x ∈ zs) (hx : p x = false) (h : ∀ y ∈ ys, p y = true)
    (h' : ∀ y ∈ ys', p y = true) (hEq : xs ++ (zs ++ ys) = xs' ++ (zs ++ ys')) :
    xs = xs' ∧ ys = ys' := by
  have hSuffix := congrArg (List.rtakeWhile p) hEq
  rw [← List.append_assoc, ← List.append_assoc, rtakeWhile_append h, rtakeWhile_append h',
    rtakeWhile_append_of_mem hMem hx, rtakeWhile_append_of_mem hMem hx,
    List.append_right_inj] at hSuffix
  subst hSuffix
  exact ⟨List.append_left_injective _ hEq, rfl⟩

end Trailing
