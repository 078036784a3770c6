/-
  Runs of a partial transition function, every step of which may be required to meet a
  condition, and the induction principles of safety proofs.
-/

import Mathlib.Data.List.Pairwise

namespace Run

variable {σ ι ε : Type} {step : σ → ι → Except ε σ} {ok : σ → ι → Prop}

/-- The run from one state to another over a list of inputs: every step succeeds and
    meets the condition. -/
inductive Steps (step : σ → ι → Except ε σ) (ok : σ → ι → Prop) : σ → List ι → σ → Prop where
  | nil (s : σ) : Steps step ok s [] s
  | cons {s t u : σ} {i : ι} {is : List ι} (hStep : step s i = .ok t) (hOk : ok s i)
      (hRest : Steps step ok t is u) : Steps step ok s (i :: is) u

/-- The steps of a run with the state before each of them, up to the first failure. -/
def trace (step : σ → ι → Except ε σ) : σ → List ι → List (σ × ι)
  | _, [] => []
  | s, i :: is =>
    (s, i) :: match step s i with
      | .ok t => trace step t is
      | .error _ => []

theorem trace_cons_ok {s t : σ} {i : ι} {is : List ι} (hStep : step s i = .ok t) :
    trace step s (i :: is) = (s, i) :: trace step t is := by
  simp only [trace, hStep]

namespace Steps

variable {s t u : σ} {i : ι} {is js : List ι}

theorem append (h₁ : Steps step ok s is t) (h₂ : Steps step ok t js u) :
    Steps step ok s (is ++ js) u := by
  induction h₁ with
  | nil s => exact h₂
  | cons hStep hOk _ ih => exact .cons hStep hOk (ih h₂)

theorem snoc (h : Steps step ok s is t) (hStep : step t i = .ok u) (hOk : ok t i) :
    Steps step ok s (is ++ [i]) u :=
  h.append (.cons hStep hOk (.nil u))

/-- A weaker condition admits the same run. -/
theorem weaken {ok' : σ → ι → Prop} (hImp : ∀ s i, ok s i → ok' s i)
    (h : Steps step ok s is t) : Steps step ok' s is t := by
  induction h with
  | nil s => exact .nil s
  | cons hStep hOk _ ih => exact .cons hStep (hImp _ _ hOk) ih

/-- A run meets any further condition that all its inputs meet. -/
theorem strengthen {q : ι → Prop} (h : Steps step ok s is t) (hInputs : ∀ i ∈ is, q i) :
    Steps step (fun s i => ok s i ∧ q i) s is t := by
  induction h with
  | nil s => exact .nil s
  | cons hStep hOk _ ih =>
    exact .cons hStep ⟨hOk, hInputs _ List.mem_cons_self⟩
      (ih fun i hMem => hInputs i (List.mem_cons_of_mem _ hMem))

/-- A run is a successful monadic fold. -/
theorem foldlM_eq (h : Steps step ok s is t) : is.foldlM step s = .ok t := by
  induction h with
  | nil s => rfl
  | cons hStep _ _ ih =>
    rw [List.foldlM_cons, hStep]
    exact ih

/-- A successful fold all of whose steps meet the condition is a run. -/
theorem of_foldlM {is : List ι} {s t : σ} (h : is.foldlM step s = .ok t)
    (hOk : ∀ e ∈ trace step s is, ok e.1 e.2) : Steps step ok s is t := by
  induction is generalizing s with
  | nil =>
    cases h
    exact .nil _
  | cons i is ih =>
    rw [List.foldlM_cons] at h
    cases hStep : step s i with
    | error e =>
      rw [hStep] at h
      cases h
    | ok r =>
      rw [hStep] at h
      rw [trace_cons_ok hStep] at hOk
      refine .cons hStep (hOk (s, i) List.mem_cons_self) (ih h fun e he => ?_)
      exact hOk e (List.mem_cons_of_mem _ he)

/-- Every step of a run meets the condition. -/
theorem of_mem_trace (h : Steps step ok s is t) : ∀ e ∈ trace step s is, ok e.1 e.2 := by
  induction h with
  | nil s => simp [trace]
  | cons hStep hOk _ ih =>
    intro e he
    rw [trace_cons_ok hStep, List.mem_cons] at he
    rcases he with rfl | he
    · exact hOk
    · exact ih e he

/-- Every step of the trace of a run succeeds, and it splits the run: the steps before it lead
    to its state. -/
theorem split_trace (h : Steps step ok s is t) :
    ∀ e ∈ trace step s is, ∃ before after u, is = before ++ e.2 :: after ∧
      Steps step ok s before e.1 ∧ step e.1 e.2 = .ok u ∧
      trace step s is = trace step s before ++ e :: trace step u after := by
  induction h with
  | nil s => simp [trace]
  | @cons s u t i is hStep hOk _ ih =>
    intro e he
    rw [trace_cons_ok hStep] at he ⊢
    rcases List.mem_cons.mp he with rfl | hRest
    · exact ⟨[], is, u, rfl, .nil _, hStep, rfl⟩
    · obtain ⟨before, after, v, rfl, hBefore, hNext, hTrace⟩ := ih e hRest
      refine ⟨i :: before, after, v, rfl, .cons hStep hOk hBefore, hNext, ?_⟩
      rw [trace_cons_ok hStep, hTrace, List.cons_append]

/-- The trace of a run lists all its inputs. -/
theorem map_snd_trace (h : Steps step ok s is t) : (trace step s is).map Prod.snd = is := by
  induction h with
  | nil s => rfl
  | cons hStep _ _ ih => rw [trace_cons_ok hStep, List.map_cons, ih]

/-- What every step preserves, a run preserves. -/
theorem invariant {I : σ → Prop} (hInv : ∀ s i t, I s → ok s i → step s i = .ok t → I t)
    (h : Steps step ok s is t) (hs : I s) : I t := by
  induction h with
  | nil s => exact hs
  | cons hStep hOk _ ih => exact ih (hInv _ _ _ hs hOk hStep)

section

variable (R : σ → σ → Prop) (hTrans : ∀ {s t u}, R s t → R t u → R s u)
  (hR : ∀ s i t, step s i = .ok t → R s t) (h : Steps step ok s is t)

include hTrans hR h

/-- A transitive relation that every step extends links the states of a trace. -/
theorem pairwise_trace : (trace step s is).Pairwise fun e e' => R e.1 e'.1 := by
  induction h with
  | nil s => exact .nil
  | @cons s u t i is hStep hOk hRest ih =>
    rw [trace_cons_ok hStep]
    refine List.pairwise_cons.mpr ⟨fun e he => ?_, ih⟩
    obtain ⟨before, _, _, _, hBefore, _, _⟩ := hRest.split_trace e he
    have hLinked : R s e.1 :=
      hBefore.invariant (fun _ _ _ hTo _ hNext => hTrans hTo (hR _ _ _ hNext)) (hR _ _ _ hStep)
    exact hLinked

/-- Two steps of a run are the same step, or the relation links their states. -/
theorem linked_of_mem_trace {e e' : σ × ι} (he : e ∈ trace step s is) (he' : e' ∈ trace step s is) :
    e = e' ∨ R e.1 e'.1 ∨ R e'.1 e.1 := by
  have hSymm : Std.Symm fun e e' : σ × ι => e = e' ∨ R e.1 e'.1 ∨ R e'.1 e.1 :=
    ⟨fun _ _ hEither => hEither.imp Eq.symm Or.symm⟩
  have hLinked : (trace step s is).Pairwise fun e e' => R e.1 e'.1 :=
    h.pairwise_trace R hTrans hR
  have hPairs : (trace step s is).Pairwise fun e e' => e = e' ∨ R e.1 e'.1 ∨ R e'.1 e.1 :=
    hLinked.imp fun hLink => .inr (.inl hLink)
  exact hPairs.forall_of_forall (fun _ _ => .inl rfl) he he'

end

/-- The same for an invariant that also speaks about the steps taken so far. -/
theorem invariant_trace (Inv : List (σ × ι) → σ → Prop)
    (hInv : ∀ past s i t, Inv past s → ok s i → step s i = .ok t → Inv (past ++ [(s, i)]) t)
    (h : Steps step ok s is t) (past : List (σ × ι)) (hs : Inv past s) :
    Inv (past ++ trace step s is) t := by
  induction h generalizing past with
  | nil s => simpa [trace] using hs
  | cons hStep hOk _ ih =>
    have hNext := ih _ (hInv _ _ _ _ hs hOk hStep)
    rw [trace_cons_ok hStep]
    simpa using hNext

/-- An invariant that speaks about the inputs so far, when a step may use which inputs of the
    whole run come before and after it. -/
theorem invariant_split (Inv : List ι → σ → Prop) (h : Steps step ok s is t)
    (hInv : ∀ done i rest s t, is = done ++ i :: rest → Inv done s → ok s i → step s i = .ok t →
      Inv (done ++ [i]) t) (hs : Inv [] s) : Inv is t := by
  suffices hGen : ∀ {s t : σ} {rest : List ι}, Steps step ok s rest t → ∀ done, is = done ++ rest →
      Inv done s → Inv is t from hGen h [] rfl hs
  intro s t rest hRest
  induction hRest with
  | nil s =>
    intro done hSplit hDone
    rwa [hSplit, List.append_nil]
  | @cons s u t i rest hStep hOk _ ih =>
    intro done hSplit hDone
    exact ih (done ++ [i]) (by simp [hSplit]) (hInv done i rest s u hSplit hDone hOk hStep)

/-- A transitive relation that every step extends links the states of a trace to the last one. -/
theorem linked_last (R : σ → σ → Prop) (hTrans : ∀ {s t u}, R s t → R t u → R s u)
    (hR : ∀ s i t, step s i = .ok t → R s t) (h : Steps step ok s is t) :
    ∀ e ∈ trace step s is, R e.1 t := by
  refine h.invariant_trace (fun past t => ∀ e ∈ past, R e.1 t)
    (fun past s i t hPast _ hStep e he => ?_)
    [] (by simp)
  rcases List.mem_append.mp he with hOld | hNow
  · exact hTrans (hPast e hOld) (hR s i t hStep)
  · cases List.mem_singleton.mp hNow
    exact hR s i t hStep

/-- What happens at most once: no step has it twice, a step that has it leaves a trace in the
    state, the trace stays, and where the trace is no step has it. -/
theorem countP_trace_le_one {α : Type} {items : σ → ι → List α} {p : α → Bool}
    (Inv Spent : σ → Prop)
    (hInv : ∀ s i t, Inv s → ok s i → step s i = .ok t → Inv t)
    (hOnce : ∀ s i t, Inv s → ok s i → step s i = .ok t → (items s i).countP p ≤ 1)
    (hMark : ∀ s i t, Inv s → ok s i → step s i = .ok t → 0 < (items s i).countP p → Spent t)
    (hKeep : ∀ s i t, Inv s → ok s i → step s i = .ok t → Spent s → Spent t)
    (hSpent : ∀ s i t, Inv s → ok s i → step s i = .ok t → Spent s → (items s i).countP p = 0)
    (h : Steps step ok s is t) (hs : Inv s) :
    ((trace step s is).flatMap fun e => items e.1 e.2).countP p ≤ 1 := by
  refine (h.invariant_trace (fun past s => Inv s ∧
    (past.flatMap fun e => items e.1 e.2).countP p ≤ 1 ∧
    (0 < (past.flatMap fun e => items e.1 e.2).countP p → Spent s)) ?_ [] ⟨hs, ?_⟩).2.1
  · rintro past s i t ⟨hNow, hPast, hTrace⟩ hOk hStep
    refine ⟨hInv s i t hNow hOk hStep, ?_⟩
    rw [List.flatMap_append, List.countP_append, List.flatMap_singleton]
    rcases Nat.eq_zero_or_pos ((past.flatMap fun e => items e.1 e.2).countP p) with hNone | hSome
    · rw [hNone, Nat.zero_add]
      exact ⟨hOnce s i t hNow hOk hStep, hMark s i t hNow hOk hStep⟩
    · have hBefore := hTrace hSome
      rw [hSpent s i t hNow hOk hStep hBefore, Nat.add_zero]
      exact ⟨hPast, fun _ => hKeep s i t hNow hOk hStep hBefore⟩
  · simp

end Steps

/-! ## Loops that cannot fail -/

/-- A relation that links every input to the ones before it. -/
theorem pairwise_of_split {R : ι → ι → Prop} {is : List ι}
    (h : ∀ before i after, is = before ++ i :: after → ∀ j ∈ before, R j i) : is.Pairwise R := by
  induction is with
  | nil => exact .nil
  | cons i is ih =>
    refine List.pairwise_cons.mpr ⟨fun j hj => ?_, ih fun before j after hSplit k hk => ?_⟩
    · obtain ⟨before, after, rfl⟩ := List.append_of_mem hj
      exact h (i :: before) j after rfl i List.mem_cons_self
    · exact h (i :: before) j after (by rw [hSplit, List.cons_append]) k (List.mem_cons_of_mem _ hk)

/-- What one turn of a loop establishes and every turn preserves holds after the loop. -/
theorem foldl_of_mem {turn : σ → ι → σ} {P : σ → Prop} {is : List ι} {i : ι} (hi : i ∈ is) (s : σ)
    (hTurn : ∀ s, P (turn s i)) (hKeep : ∀ s i, P s → P (turn s i)) : P (is.foldl turn s) := by
  induction is generalizing s with
  | nil => cases hi
  | cons j is ih =>
    rcases List.mem_cons.mp hi with rfl | hRest
    · exact List.foldlRecOn is turn (hTurn s) fun s hs i _ => hKeep s i hs
    · exact ih hRest (turn s j)

/-- The turns of a loop with the state before each of them. -/
def withStates (turn : σ → ι → σ) : σ → List ι → List (σ × ι)
  | _, [] => []
  | s, i :: is => (s, i) :: withStates turn (turn s i) is

/-- The state before a turn is the one after the turns that precede. -/
theorem mem_withStates {turn : σ → ι → σ} {is : List ι} {s : σ} {e : σ × ι} :
    e ∈ withStates turn s is ↔
      ∃ before after, is = before ++ e.2 :: after ∧ e.1 = before.foldl turn s := by
  induction is generalizing s with
  | nil => simp [withStates]
  | cons i is ih =>
    rw [withStates, List.mem_cons, ih]
    constructor
    · rintro (rfl | ⟨before, after, rfl, hState⟩)
      · exact ⟨[], is, rfl, rfl⟩
      · exact ⟨i :: before, after, rfl, hState⟩
    · rintro ⟨before, after, hInputs, hState⟩
      cases before with
      | nil =>
        cases hInputs
        exact .inl (Prod.ext hState rfl)
      | cons j before =>
        cases hInputs
        exact .inr ⟨before, after, rfl, hState⟩

/-- An invariant of the turns of a loop holds before each of them. -/
theorem withStates_invariant {turn : σ → ι → σ} {Inv : σ → Prop} (is : List ι) (s : σ)
    (hStart : Inv s) (hTurn : ∀ s, ∀ i ∈ is, Inv s → Inv (turn s i)) :
    ∀ e ∈ withStates turn s is, Inv e.1 ∧ e.2 ∈ is := by
  induction is generalizing s with
  | nil => simp [withStates]
  | cons i is ih =>
    intro e he
    rcases List.mem_cons.mp he with rfl | hRest
    · exact ⟨hStart, List.mem_cons_self⟩
    · obtain ⟨hState, hMem⟩ := ih (turn s i) (hTurn s i List.mem_cons_self hStart)
        (fun s' i' hi' => hTurn s' i' (List.mem_cons_of_mem _ hi')) e hRest
      exact ⟨hState, List.mem_cons_of_mem _ hMem⟩

/-- The same for an invariant that also speaks about the turns so far. -/
theorem withStates_past {turn : σ → ι → σ} (Inv : List (σ × ι) → σ → Prop) (is : List ι) (s : σ)
    (past : List (σ × ι)) (hStart : Inv past s)
    (hTurn : ∀ past, ∀ e ∈ withStates turn s is, Inv past e.1 → Inv (past ++ [e]) (turn e.1 e.2)) :
    Inv (past ++ withStates turn s is) (is.foldl turn s) ∧
      ∀ e ∈ withStates turn s is, ∃ before, before ⊆ withStates turn s is ∧
        Inv (past ++ before) e.1 := by
  induction is generalizing s past with
  | nil => simpa [withStates] using hStart
  | cons i is ih =>
    have hNext := hTurn past (s, i) List.mem_cons_self hStart
    obtain ⟨hEnd, hBefore⟩ := ih (turn s i) (past ++ [(s, i)]) hNext fun past e he =>
      hTurn past e (List.mem_cons_of_mem _ he)
    refine ⟨by simpa [withStates] using hEnd, fun e he => ?_⟩
    rcases List.mem_cons.mp he with rfl | hRest
    · exact ⟨[], List.nil_subset _, by simpa using hStart⟩
    · obtain ⟨before, hSub, hInv⟩ := hBefore e hRest
      exact ⟨(s, i) :: before, List.cons_subset_cons _ hSub, by simpa using hInv⟩

/-! ## Evaluation -/

section Exec

variable [∀ s i, Decidable (ok s i)]

/-- Run over a list of inputs; a step that does not meet the condition is rejected. -/
def exec (step : σ → ι → Except ε σ) (ok : σ → ι → Prop) [∀ s i, Decidable (ok s i)]
    (reject : ε) (s : σ) (is : List ι) : Except ε σ :=
  is.foldlM (fun s i => if ok s i then step s i else .error reject) s

/-- What an evaluation computes is a run. -/
theorem Steps.of_exec {reject : ε} {s t : σ} {is : List ι}
    (h : exec step ok reject s is = .ok t) : Steps step ok s is t := by
  have hSteps : Steps _ (fun _ _ => True) s is t := Steps.of_foldlM h fun _ _ => trivial
  clear h
  induction hSteps with
  | nil s => exact .nil s
  | cons hStep _ _ ih =>
    split at hStep
    · rename_i hOk
      exact .cons hStep hOk ih
    · cases hStep

variable {s : σ} {is : List ι} (reject : ε)

/-- The value of a computation that succeeds. -/
def value (x : Except ε σ) (h : x.isOk = true) : σ :=
  match x, h with
  | .ok t, _ => t

theorem eq_value {x : Except ε σ} (h : x.isOk = true) : x = .ok (value x h) := by
  cases x with
  | ok t => rfl
  | error e => cases h

theorem eq_valueOf {o : Option σ} (h : o.isSome = true) : o = some (o.get h) :=
  (Option.some_get h).symm

/-- A run that is found by evaluation. -/
theorem steps_value (h : (exec step ok reject s is).isOk = true) :
    Steps step ok s is (value _ h) :=
  .of_exec (eq_value h)

theorem exists_run (h : (exec step ok reject s is).isOk = true) : ∃ t, Steps step ok s is t := by
  cases hRun : exec step ok reject s is with
  | ok t => exact ⟨t, .of_exec hRun⟩
  | error e =>
    rw [hRun] at h
    cases h

/-- A run to a state with a property, found by evaluation. -/
theorem exists_steps {P : σ → Prop} (h : ∃ t, exec step ok reject s is = .ok t ∧ P t) :
    ∃ t, Steps step ok s is t ∧ P t :=
  h.imp fun _ hEnd => ⟨.of_exec hEnd.1, hEnd.2⟩

/-- The same with what follows from the property that is evaluated. -/
theorem exists_steps_imp (P : σ → Prop) {Q : σ → Prop}
    (h : ∃ t, exec step ok reject s is = .ok t ∧ P t)
    (hImp : ∀ t, Steps step ok s is t → P t → Q t) : ∃ t, Steps step ok s is t ∧ Q t :=
  (exists_steps reject h).imp fun t hEnd => ⟨hEnd.1, hImp t hEnd.1 hEnd.2⟩

/-- A run and one computation from its last state, found by evaluation. -/
theorem exists_next_imp {τ δ : Type} {next : σ → Except δ τ} (P : σ → τ → Prop) {Q : σ → τ → Prop}
    (h : ∃ t, exec step ok reject s is = .ok t ∧ ∃ u, next t = .ok u ∧ P t u)
    (hImp : ∀ t u, Steps step ok s is t → next t = .ok u → P t u → Q t u) :
    ∃ t u, Steps step ok s is t ∧ next t = .ok u ∧ Q t u := by
  obtain ⟨t, hRun, u, hNext, hP⟩ := exists_steps reject h
  exact ⟨t, u, hRun, hNext, hImp t u hRun hNext hP⟩

end Exec

section Decide

variable {P : σ → Prop} [∀ t, Decidable (P t)]

instance decidableOk {x : Except ε σ} : Decidable (∃ t, x = .ok t ∧ P t) :=
  match x with
  | .ok t => decidable_of_iff (P t) ⟨fun h => ⟨t, rfl, h⟩, fun ⟨_, hEq, h⟩ => by cases hEq; exact h⟩
  | .error _ => .isFalse fun ⟨_, hEq, _⟩ => by cases hEq

instance decidableSome {o : Option σ} : Decidable (∃ t, o = some t ∧ P t) :=
  match o with
  | some t => decidable_of_iff (P t) ⟨fun h => ⟨t, rfl, h⟩,
      fun ⟨_, hEq, h⟩ => by cases hEq; exact h⟩
  | none => .isFalse fun ⟨_, hEq, _⟩ => by cases hEq

end Decide

end Run
