/-
  Queues that are cleaned lazily: an ordered list of entries with different keys, some of
  whose keys are dead. Dead entries are dropped when they come to the front, and then the
  first entry is the least of the live ones.
-/

import Mathlib.Data.List.Sort

namespace LazyQueue

variable {ε κ : Type} {key : ε → κ} {live : κ → Bool} {lt : ε → ε → Prop} {l rest : List ε} {e : ε}

/-- The queue from its first live entry on. -/
def clean (key : ε → κ) (live : κ → Bool) (l : List ε) : List ε :=
  l.dropWhile fun e => !live (key e)

theorem clean_cons : clean key live (e :: l) = if live (key e) then e :: l else clean key
    live l := by
  unfold clean
  rw [List.dropWhile_cons]
  cases live (key e) <;> rfl

theorem clean_suffix : clean key live l <:+ l := List.dropWhile_suffix _

theorem mem_of_mem_clean (h : e ∈ clean key live l) : e ∈ l := clean_suffix.subset h

theorem mem_clean_of_live (hMem : e ∈ l) (hLive : live (key e) = true) : e ∈ clean key live l := by
  induction l with
  | nil => cases hMem
  | cons a l ih =>
    rw [clean_cons]
    split
    · exact hMem
    · rename_i hDead
      rcases List.mem_cons.mp hMem with rfl | hRest
      · exact absurd hLive hDead
      · exact ih hRest

theorem live_of_clean_eq_cons (h : clean key live l = e :: rest) : live (key e) = true := by
  induction l with
  | nil => cases h
  | cons a l ih =>
    rw [clean_cons] at h
    split at h
    · rename_i hLive
      cases h
      exact hLive
    · exact ih h

/-- The first entry comes before all other live ones. -/
theorem lt_of_clean_eq_cons (hSorted : l.Pairwise lt) (h : clean key live l = e :: rest) :
    ∀ e' ∈ l, live (key e') = true → e' ≠ e → lt e e' := by
  intro e' hMem hLive hNe
  have hSub : (e :: rest).Pairwise lt := h ▸ hSorted.sublist clean_suffix.sublist
  have hIn : e' ∈ e :: rest := h ▸ mem_clean_of_live hMem hLive
  exact (List.pairwise_cons.mp hSub).1 e' ((List.mem_cons.mp hIn).resolve_left hNe)

/-- A queue is empty when no entry is live. -/
theorem clean_eq_nil_iff : clean key live l = [] ↔ ∀ e ∈ l, live (key e) = false := by
  constructor
  · intro hNil e hMem
    refine Bool.not_eq_true _ ▸ fun hLive => ?_
    have hIn := mem_clean_of_live hMem hLive
    rw [hNil] at hIn
    cases hIn
  · intro hDead
    cases hClean : clean key live l with
    | nil => rfl
    | cons e rest =>
      have hMem : e ∈ l := mem_of_mem_clean (hClean ▸ List.mem_cons_self)
      have hLive := live_of_clean_eq_cons hClean
      rw [hDead e hMem] at hLive
      cases hLive

/-- A sort orders entries with different keys strictly, when the order decides between
    different keys. -/
theorem pairwise_insertionSort {le : ε → ε → Prop} [DecidableRel le]
    (hTotal : ∀ a b, le a b ∨ le b a) (hTrans : ∀ a b c, le a b → le b c → le a c)
    (hStrict : ∀ a b, le a b → key a ≠ key b → lt a b) (hNodup : (l.map key).Nodup) :
    (l.insertionSort le).Pairwise lt := by
  have : Std.Total le := ⟨hTotal⟩
  have : IsTrans ε le := ⟨hTrans⟩
  have hPerm : (l.insertionSort le).Perm l := List.perm_insertionSort le l
  have hKeys : (l.insertionSort le).Pairwise fun a b => key a ≠ key b := by
    have hNodup' : ((l.insertionSort le).map key).Nodup := ((hPerm.map key).nodup_iff).mpr hNodup
    rwa [List.Nodup, List.pairwise_map] at hNodup'
  exact ((List.pairwise_insertionSort le l).and hKeys).imp fun h => hStrict _ _ h.1 h.2

end LazyQueue
