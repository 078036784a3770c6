/-
  Lists with at most one item for each key, where the first item of a key wins: adding an
  item whose key is taken changes nothing.
-/

import Mathlib.Data.List.Basic

namespace FirstWins

variable {α β κ : Type} [BEq κ] [LawfulBEq κ] {key : α → κ} {xs ys : List α} {x : α} {k : κ}

/-- Add an item unless its key is taken. -/
def add (key : α → κ) (xs : List α) (x : α) : List α :=
  if xs.any (key · == key x) then xs else xs ++ [x]

/-- Add the items of a list, in order. -/
def merge (key : α → κ) (xs ys : List α) : List α := ys.foldl (add key) xs

omit [LawfulBEq κ] in
theorem any_add (h : xs.any (key · == k) = true) : (add key xs x).any (key · == k) = true := by
  unfold add
  split
  · exact h
  · rw [List.any_append, h, Bool.true_or]

theorem any_add_self : (add key xs x).any (key · == key x) = true := by
  unfold add
  split
  · assumption
  · simp

omit [LawfulBEq κ] in
theorem any_merge (h : xs.any (key · == k) = true) : (merge key xs ys).any (key · == k) = true := by
  induction ys generalizing xs with
  | nil => exact h
  | cons y ys ih => exact ih (any_add h)

/-- After a merge the keys of all its items are taken. -/
theorem any_merge_of_mem (h : x ∈ ys) : (merge key xs ys).any (key · == key x) = true := by
  induction ys generalizing xs with
  | nil => cases h
  | cons y ys ih =>
    rcases List.mem_cons.mp h with rfl | hMem
    · have hFirst : (merge key (add key xs x) ys).any (key · == key x) = true :=
        any_merge any_add_self
      exact hFirst
    · exact ih hMem

omit [LawfulBEq κ] in
/-- Items whose keys are taken add nothing. -/
theorem merge_eq_self (h : ∀ y ∈ ys, xs.any (key · == key y) = true) : merge key xs ys = xs := by
  induction ys with
  | nil => rfl
  | cons y ys ih =>
    have hTaken : add key xs y = xs := if_pos (h y List.mem_cons_self)
    rw [merge, List.foldl_cons, hTaken]
    exact ih fun z hMem => h z (List.mem_cons_of_mem _ hMem)

omit [LawfulBEq κ] in
/-- A merge commutes with a map that respects the keys. -/
theorem map_merge (key : α → κ) (key' : β → κ) (f : α → β) (hKey : ∀ x, key' (f x) = key x) :
    (merge key xs ys).map f = merge key' (xs.map f) (ys.map f) := by
  induction ys generalizing xs with
  | nil => rfl
  | cons y ys ih =>
    have hAdd : (add key xs y).map f = add key' (xs.map f) (f y) := by
      unfold add
      rw [List.any_map]
      simp only [Function.comp_def, hKey]
      split
      · rfl
      · rw [List.map_append, List.map_singleton]
    simp only [merge, List.foldl_cons, List.map_cons] at ih ⊢
    rw [ih, hAdd]

end FirstWins
