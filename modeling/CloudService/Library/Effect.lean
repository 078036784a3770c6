/-
  A loop that changes a second state beside its own, which keeps the changes of the step that
  fails.
-/

import CloudService.Library.Run

namespace Run

variable {σ ι ε α : Type}

/-- A step with an effect on a second state. -/
def withEffect (step : σ → ι → Except ε σ) (effect : σ → α → ι → α) (p : α × σ) (i : ι) :
    Except (ε × α) (α × σ) :=
  match step p.2 i with
  | .ok t => .ok (effect p.2 p.1 i, t)
  | .error e => .error (e, effect p.2 p.1 i)

/-- The loop itself is not affected, and the second state collects the effects of the steps
    that were begun. -/
theorem foldlM_withEffect (step : σ → ι → Except ε σ) (effect : σ → α → ι → α) (is : List ι)
    (a : α) (s : σ) :
    is.foldlM (withEffect step effect) (a, s) =
      match is.foldlM step s with
      | .ok t => .ok ((trace step s is).foldl (fun a e => effect e.1 a e.2) a, t)
      | .error e => .error (e, (trace step s is).foldl (fun a e => effect e.1 a e.2) a) := by
  induction is generalizing a s with
  | nil => rfl
  | cons i is ih =>
    rw [List.foldlM_cons, List.foldlM_cons]
    cases hStep : step s i with
    | error e => simp [withEffect, trace, hStep, bind, Except.bind]
    | ok t =>
      have hEffect : withEffect step effect (a, s) i = .ok (effect s a i, t) := by
        simp [withEffect, hStep]
      rw [hEffect, trace_cons_ok hStep, List.foldl_cons]
      exact ih (effect s a i) t

end Run
