/-
  Rejections (`consensus/validation.h`): the ban score, the reject code and the
  reason that `CValidationState` records, and the guard that every check is a
  sequence of.
-/

import Mathlib.Data.List.Basic

namespace CloudService

/-- `REJECT_INVALID` and `REJECT_DUPLICATE`. -/
inductive RejectCode where
  | invalid
  | duplicate
deriving Repr, DecidableEq

/-- What `state.DoS(..)` or `state.Invalid(..)` records. -/
structure Reject where
  nDoS : Nat
  code : RejectCode
  reason : String
deriving Repr, DecidableEq

/-- `state.DoS(level, .., REJECT_INVALID, reason)`. -/
def dos (level : Nat) (reason : String) : Reject := ⟨level, .invalid, reason⟩

/-- `state.Invalid(.., REJECT_DUPLICATE, reason)`. -/
def alreadyKnown (reason : String) : Reject := ⟨0, .duplicate, reason⟩

abbrev Checked := Except Reject

/-- Reject when the condition holds. -/
def rejectIf (b : Bool) (r : Reject) : Checked Unit := if b then .error r else .ok ()

theorem except_bind_eq_ok {ε α β : Type} {x : Except ε α} {f : α → Except ε β} {b : β} :
    (x >>= f) = .ok b ↔ ∃ a, x = .ok a ∧ f a = .ok b := by
  cases x with
  | error e => simp [bind, Except.bind]
  | ok a => simp [bind, Except.bind]

theorem check_bind_eq_ok {ε β : Type} {x : Except ε Unit} {f : Unit → Except ε β} {b : β} :
    (x >>= f) = .ok b ↔ x = .ok () ∧ f () = .ok b := by
  rw [except_bind_eq_ok]
  constructor
  · rintro ⟨_, hFirst, hRest⟩
    exact ⟨hFirst, hRest⟩
  · rintro ⟨hFirst, hRest⟩
    exact ⟨(), hFirst, hRest⟩

theorem forM_eq_ok {ε α : Type} {f : α → Except ε Unit} {l : List α} :
    l.forM f = .ok () ↔ ∀ a ∈ l, f a = .ok () := by
  induction l with
  | nil => simp [pure, Except.pure]
  | cons a l ih =>
    change (f a >>= fun _ => l.forM f) = .ok () ↔ _
    rw [check_bind_eq_ok, List.forall_mem_cons, ← ih]

@[simp] theorem rejectIf_eq_ok {b : Bool} {r : Reject} {u : Unit} :
    rejectIf b r = .ok u ↔ b = false := by
  cases b with
  | true => simp [rejectIf]
  | false => simp [rejectIf]

end CloudService
