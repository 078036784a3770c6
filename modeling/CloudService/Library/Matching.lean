/-
  Matching items to copies of their own in a pool. An injective map from the positions of
  the items to positions of the pool exists exactly when the pool has every item at least
  as often.
-/

import Mathlib.Algebra.Order.BigOperators.Group.List
import Mathlib.Algebra.Order.Ring.Int
import Mathlib.Data.List.Perm.Subperm
import Mathlib.Data.List.FinRange

namespace Matching

variable {α : Type} {items pool : List α}

/-- Every item has a copy of its own in the pool. -/
def Matched (items pool : List α) : Prop :=
  ∃ f : Fin items.length → Fin pool.length, Function.Injective f ∧
    ∀ i, pool.get (f i) = items.get i

theorem map_get_finRange (l : List α) : (List.finRange l.length).map l.get = l := by
  rw [← List.ofFn_eq_map, List.ofFn_get]

theorem subperm_map {β : Type} {as bs : List α} (f : α → β) (h : as.Subperm bs) :
    (as.map f).Subperm (bs.map f) := by
  obtain ⟨middle, hPerm, hSub⟩ := h
  exact ⟨middle.map f, hPerm.map f, hSub.map f⟩

theorem subperm_of_matched (h : Matched items pool) : items.Subperm pool := by
  obtain ⟨f, hInj, hGet⟩ := h
  have hIndices : ((List.finRange items.length).map f).Subperm (List.finRange pool.length) :=
    ((List.nodup_finRange _).map hInj).subperm fun j _ => List.mem_finRange j
  have hItems : ((List.finRange items.length).map f).map pool.get = items := by
    rw [List.map_map]
    conv_rhs => rw [← map_get_finRange items]
    exact List.map_congr_left fun i _ => hGet i
  have hMapped := subperm_map pool.get hIndices
  rwa [hItems, map_get_finRange] at hMapped

theorem matched_of_subperm (h : items.Subperm pool) : Matched items pool := by
  obtain ⟨middle, hPerm, hSub⟩ := h
  rw [← map_get_finRange pool, List.sublist_map_iff] at hSub
  obtain ⟨indices, hIndices, rfl⟩ := hSub
  have hRel : List.Forall₂ (fun a j => a = pool.get j) (indices.map pool.get) indices := by
    rw [List.forall₂_map_left_iff]
    exact List.forall₂_same.mpr fun _ _ => rfl
  -- the items in their own order, each with its position in the pool
  obtain ⟨own, hOwn, hPermOwn⟩ := List.perm_comp_forall₂ hPerm.symm hRel
  have hLength : items.length = own.length := hOwn.length_eq
  have hNodup : own.Nodup := hPermOwn.nodup_iff.mpr ((List.nodup_finRange _).sublist hIndices)
  refine ⟨fun i => own.get (i.cast hLength), fun i j hEq => ?_, fun i => ?_⟩
  · simpa using hNodup.injective_get hEq
  · exact (hOwn.get i.isLt (hLength ▸ i.isLt)).symm

/-- Matching is counting. -/
theorem matched_iff [DecidableEq α] :
    Matched items pool ↔ ∀ a ∈ items, items.count a ≤ pool.count a :=
  ⟨fun h => List.subperm_ext_iff.mp (subperm_of_matched h),
    fun h => matched_of_subperm (List.subperm_ext_iff.mpr h)⟩

/-- A sum over items with different keys, when every item that counts has a larger one under its
    key in the pool. -/
theorem sum_le_of_keys {β κ : Type} {as : List α} {bs : List β} (keyA : α → κ) (keyB : β → κ)
    {f : α → Int} {g : β → Int} (hNodup : (as.map keyA).Nodup)
    (hFound : ∀ a ∈ as, f a ≤ 0 ∨ ∃ b ∈ bs, keyB b = keyA a ∧ f a ≤ g b)
    (hNonneg : ∀ b ∈ bs, 0 ≤ g b) : (as.map f).sum ≤ (bs.map g).sum := by
  induction as generalizing bs with
  | nil =>
    refine List.sum_nonneg fun x hx => ?_
    obtain ⟨b, hb, rfl⟩ := List.mem_map.mp hx
    exact hNonneg b hb
  | cons a as ih =>
    rw [List.map_cons, List.nodup_cons] at hNodup
    rw [List.map_cons, List.sum_cons]
    have hRest : ∀ a' ∈ as, f a' ≤ 0 ∨ ∃ b ∈ bs, keyB b = keyA a' ∧ f a' ≤ g b :=
      fun a' ha' => hFound a' (List.mem_cons_of_mem _ ha')
    rcases hFound a List.mem_cons_self with hNone | ⟨b, hb, hKey, hLe⟩
    · have hSum := ih hNodup.2 hRest hNonneg
      omega
    · -- Take the item's own entry out of the pool; the other keys are different.
      obtain ⟨before, after, rfl⟩ := List.append_of_mem hb
      have hSum : (as.map f).sum ≤ ((before ++ after).map g).sum := by
        refine ih hNodup.2 (fun a' ha' => ?_) fun b' hb' => hNonneg b' ?_
        · refine (hRest a' ha').imp_right ?_
          rintro ⟨b', hb', hKey', hLe'⟩
          have hNe : b' ≠ b := by
            rintro rfl
            exact hNodup.1 (List.mem_map.mpr ⟨a', ha', hKey'.symm.trans hKey⟩)
          refine ⟨b', ?_, hKey', hLe'⟩
          simp only [List.mem_append, List.mem_cons] at hb' ⊢
          tauto
        · simp only [List.mem_append, List.mem_cons] at hb' ⊢
          tauto
      simp only [List.map_append, List.map_cons, List.sum_append, List.sum_cons] at hSum ⊢
      omega

end Matching
