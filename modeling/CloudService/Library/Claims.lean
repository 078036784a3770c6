/-
  Owners that hold claims on shared resources, and the table of what is held. A release is by
  resource alone, so two owners must never claim the same one.
-/

import Mathlib.Data.List.Basic

namespace Claims

variable {ω ρ α : Type}

/-- Two owners never claim the same resource, and every claimed resource is in the table
    under the name of its claim. -/
structure Consistent (claim : ω → Option (ρ × α)) (table : ρ → Option α) : Prop where
  exclusive : ∀ {o o' : ω} {x : ρ} {a a' : α},
    claim o = some (x, a) → claim o' = some (x, a') → o = o'
  backed : ∀ {o : ω} {x : ρ} {a : α}, claim o = some (x, a) → table x = some a

namespace Consistent

variable {claim claim' : ω → Option (ρ × α)} {table table' : ρ → Option α}

/-- Nobody claims a resource that is not in the table. -/
theorem not_claimed_of_free (h : Consistent claim table) {x : ρ} (hFree : table x = none)
    (o : ω) (a : α) : claim o ≠ some (x, a) := by
  intro hClaim
  rw [h.backed hClaim] at hFree
  cases hFree

/-- Claims may be dropped, and resources that nobody claims any more may change in the
    table. -/
theorem shrink (h : Consistent claim table)
    (hClaim : ∀ o x a, claim' o = some (x, a) → claim o = some (x, a))
    (hTable : ∀ o x a, claim' o = some (x, a) → table' x = table x) :
    Consistent claim' table' where
  exclusive h₁ h₂ := h.exclusive (hClaim _ _ _ h₁) (hClaim _ _ _ h₂)
  backed hOwn := by
    rw [hTable _ _ _ hOwn]
    exact h.backed (hClaim _ _ _ hOwn)

/-- An owner takes a resource that is not in the table; its earlier claim is dropped. -/
theorem take (h : Consistent claim table) {q : ω} {x : ρ} {a : α} (hFree : table x = none)
    (hOther : ∀ o, o ≠ q → ∀ y b, claim' o = some (y, b) → claim o = some (y, b))
    (hNew : claim' q = some (x, a)) (hTaken : table' x = some a)
    (hTable : ∀ y, y ≠ x → table' y = table y) :
    Consistent claim' table' := by
  -- A claim of another owner is an old one, so it is not on the free resource.
  have hApart : ∀ o y b, o ≠ q → claim' o = some (y, b) → y ≠ x := by
    intro o y b hNe hOwn hEq
    subst hEq
    exact h.not_claimed_of_free hFree o b (hOther o hNe y b hOwn)
  have hUnique : ∀ o y b b', claim' o = some (y, b) → claim' q = some (y, b') → o = q := by
    intro o y b b' hOwn hq
    rw [hNew] at hq
    cases hq
    by_contra hNe
    exact hApart o x b hNe hOwn rfl
  refine ⟨?_, ?_⟩
  · intro o o' y b b' h₁ h₂
    by_cases ho : o = q
    · subst ho
      exact (hUnique o' y b' b h₂ h₁).symm
    · by_cases ho' : o' = q
      · subst ho'
        exact hUnique o y b b' h₁ h₂
      · exact h.exclusive (hOther o ho y b h₁) (hOther o' ho' y b' h₂)
  · intro o y b hOwn
    by_cases ho : o = q
    · subst ho
      rw [hNew] at hOwn
      cases hOwn
      exact hTaken
    · rw [hTable y (hApart o y b ho hOwn)]
      exact h.backed (hOther o ho y b hOwn)

end Consistent

end Claims
