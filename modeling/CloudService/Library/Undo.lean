/-
  Undoing a list of steps in reverse order, when every step has an undo of its own that
  restores the state up to an equivalence.
-/

import Mathlib.Data.List.Basic

namespace Undo

variable {σ ι : Type} {apply undo : σ → ι → σ} {ok : σ → ι → Prop}

/-- Every step of a list meets a condition in the state that it is applied in. -/
def Along (apply : σ → ι → σ) (ok : σ → ι → Prop) : σ → List ι → Prop
  | _, [] => True
  | s, i :: is => ok s i ∧ Along apply ok (apply s i) is

instance Along.decidable [∀ s i, Decidable (ok s i)] :
    ∀ (s : σ) (is : List ι), Decidable (Along apply ok s is)
  | _, [] => .isTrue trivial
  | s, i :: is =>
    have := Along.decidable (apply s i) is
    inferInstanceAs (Decidable (ok s i ∧ Along apply ok (apply s i) is))

/-- The steps of a list, undone in reverse order, restore the state. -/
theorem foldl_reverse_restores (same : σ → σ → Prop) (hSame : Equivalence same)
    (hCongr : ∀ s t i, same s t → same (undo s i) (undo t i))
    (hUndo : ∀ s i, ok s i → same (undo (apply s i) i) s) {s : σ} {is : List ι}
    (h : Along apply ok s is) : same (is.reverse.foldl undo (is.foldl apply s)) s := by
  induction is generalizing s with
  | nil => exact hSame.refl s
  | cons i is ih =>
    obtain ⟨hHead, hRest⟩ := h
    rw [List.reverse_cons, List.foldl_append, List.foldl_cons]
    -- The later steps are undone first, which gives the state after the first one.
    exact hSame.trans (hCongr _ _ i (ih hRest)) (hUndo s i hHead)

end Undo
