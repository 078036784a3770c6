/-
  Invariants that speak about the past of a run: the list of the transactions
  connected so far, each with the node and the state of the loop before it.
-/

import CloudService.Chain.Node

namespace CloudService

/-- The connection of one transaction, with the state of the loop before it. -/
structure TxEvent where
  node : NodeState
  st : LoopState
  tx : CTransaction

def txEvent : Machine × Input → Option TxEvent
  | (.busy node _ _ st, .tx tx) => some ⟨node, st, tx⟩
  | _ => none

/-- The transactions that a run connects, each with the state before it. -/
def history (env : Env) (inputs : List Input) : List TxEvent :=
  (Run.trace (smallStep env) (.idle (.init env)) inputs).filterMap txEvent

structure HistoryInvariant (env : Env) (p : NodeState → LoopState → CTransaction → Prop)
    (H : List TxEvent → OPoICache → Prop) : Prop where
  onTx : ∀ past node block st tx st', H past st.cache → AcceptedTx env node tx →
    connectTx env {} node.context block st tx = .ok st' → p node st tx →
    H (past ++ [⟨node, st, tx⟩]) st'.cache
  onPasses : ∀ past (node : NodeState) vtx c, H past c →
    H past (connectPasses env node.nextHeight vtx c)

section History

variable {env : Env} {p : NodeState → LoopState → CTransaction → Prop}
  {H : List TxEvent → OPoICache → Prop}

theorem HistoryInvariant.smallStep (h : HistoryInvariant env p H) (past : List (Machine × Input))
    (m : Machine) (input : Input) (m' : Machine)
    (hInv : m.Satisfies env (fun _ _ => True) ∧ H (past.filterMap txEvent) m.cache)
    (hOk : CloudService.onTx p m input) (hStep : CloudService.smallStep env m input = .ok m') :
    m'.Satisfies env (fun _ _ => True) ∧ H ((past ++ [(m, input)]).filterMap txEvent) m'.cache := by
  refine ⟨preserved_true.smallStep m input m' hInv.1 hOk hStep, ?_⟩
  obtain ⟨hSat, hH⟩ := hInv
  rw [List.filterMap_append]
  obtain ⟨node, block, rfl, rfl, _, _, rfl⟩ |
    ⟨node, block, tx, rest, st, st', rfl, rfl, hTurn, rfl⟩ | ⟨node, block, st, rfl, rfl, -, rfl⟩ :=
    smallStep_cases hStep
  · have hNone : [(Machine.idle node, Input.start block)].filterMap txEvent = [] := rfl
    rw [hNone, List.append_nil]
    exact hH
  · obtain ⟨_, _, _, hRest, _⟩ := hSat
    exact h.onTx _ node block st tx st' hH (hRest tx List.mem_cons_self) hTurn hOk
  · simp only [Machine.cache, NodeState.extend_cache] at hH ⊢
    have hNone : [(Machine.busy node block [] st, Input.finish)].filterMap txEvent = [] := rfl
    rw [hNone, List.append_nil]
    by_cases hActive : env.params.opoiActive node.nextHeight = true
    · rw [connectTransitions_of_active hActive]
      exact h.onPasses _ node block.vtx st.cache hH
    · rw [Bool.not_eq_true] at hActive
      rw [connectTransitions_of_inactive hActive]
      exact hH

theorem HistoryInvariant.run (h : HistoryInvariant env p H) {inputs : List Input} {m : Machine}
    (hInit : H [] {})
    (hRun : Run.Steps (CloudService.smallStep env) (CloudService.onTx p) (.idle (.init env))
      inputs m) : H (history env inputs) m.cache := by
  have hInv := hRun.invariant_trace
    (fun past m => m.Satisfies env (fun _ _ => True) ∧ H (past.filterMap txEvent) m.cache)
    h.smallStep [] ⟨trivial, hInit⟩
  exact hInv.2

end History

end CloudService
