/-
  A monitor is a partial automaton over the events of a run: it fails at the first event that
  must not happen in its state.
-/

import CloudService.Library.Run

namespace Run

variable {σ ι ε δ α : Type} {monitor : δ → α → Option δ}

/-- A list of events leads a monitor from one state to another if a condition holds, and makes
    it fail otherwise. -/
structure Reads (monitor : δ → α → Option δ) (events : List α) (d d' : δ) (p : Prop) : Prop where
  accepts : p → events.foldlM monitor d = some d'
  fails : ¬p → events.foldlM monitor d = none

namespace Reads

variable {d d' d'' : δ} {p q : Prop} {events events' : List α}

theorem nil (hp : p) : Reads monitor [] d d p :=
  ⟨fun _ => rfl, fun hNot => absurd hp hNot⟩

theorem congr (h : Reads monitor events d d' p) (hIff : p ↔ q) : Reads monitor events d d' q :=
  ⟨fun hq => h.accepts (hIff.mpr hq), fun hNot => h.fails fun hp => hNot (hIff.mp hp)⟩

theorem append (h : Reads monitor events d d' p) (h' : Reads monitor events' d' d'' q) :
    Reads monitor (events ++ events') d d'' (p ∧ q) where
  accepts hBoth := by
    rw [List.foldlM_append, h.accepts hBoth.1]
    exact h'.accepts hBoth.2
  fails hNot := by
    rw [List.foldlM_append]
    by_cases hp : p
    · rw [h.accepts hp]
      exact h'.fails fun hq => hNot ⟨hp, hq⟩
    · rw [h.fails hp]
      rfl

theorem iff (h : Reads monitor events d d' p) : events.foldlM monitor d = some d' ↔ p := by
  refine ⟨fun hSome => ?_, h.accepts⟩
  by_contra hNot
  rw [h.fails hNot] at hSome
  cases hSome

/-- Along a loop. -/
theorem withStates {turn : σ → ι → σ} (obs : σ → δ) {events : σ × ι → List α}
    {p : σ × ι → Prop} (is : List ι) (s : σ)
    (h : ∀ e ∈ Run.withStates turn s is,
      Reads monitor (events e) (obs e.1) (obs (turn e.1 e.2)) (p e)) :
    Reads monitor ((Run.withStates turn s is).flatMap events) (obs s) (obs (is.foldl turn s))
      (∀ e ∈ Run.withStates turn s is, p e) := by
  induction is generalizing s with
  | nil => exact nil fun _ he => absurd he List.not_mem_nil
  | cons i is ih =>
    have hHead := h (s, i) List.mem_cons_self
    have hRest := ih (turn s i) fun e he => h e (List.mem_cons_of_mem _ he)
    exact (hHead.append hRest).congr List.forall_mem_cons.symm

/-- Along a run. -/
theorem trace {step : σ → ι → Except ε σ} {ok : σ → ι → Prop} (obs : σ → δ)
    {events : σ × ι → List α} {p : σ × ι → Prop} {s t : σ} {is : List ι}
    (h : ∀ s i t, step s i = .ok t → Reads monitor (events (s, i)) (obs s) (obs t) (p (s, i)))
    (hRun : Steps step ok s is t) :
    Reads monitor ((Run.trace step s is).flatMap events) (obs s) (obs t)
      (∀ e ∈ Run.trace step s is, p e) := by
  induction hRun with
  | nil s => exact nil fun _ he => absurd he List.not_mem_nil
  | cons hStep _ _ ih =>
    rw [trace_cons_ok hStep, List.flatMap_cons]
    exact ((h _ _ _ hStep).append ih).congr List.forall_mem_cons.symm

end Reads

end Run
