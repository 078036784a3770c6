/-
  `OPoIConnectGuard`: what a `ConnectBlock` that fails leaves in the cache.
-/

import CloudService.Chain.Evaluate
import CloudService.Library.Undo
import CloudService.Undo.Inverse

namespace CloudService

section Guard

variable (env : Env) (ctx : ConnectContext) (block : CBlock) (c : OPoICache)

/-- The state in which a loop ends, with or without a failure. -/
def loopEnd : Except (BlockReject × LoopState) LoopState → LoopState
  | .ok st => st
  | .error e => e.2

/-- The transactions that `ConnectBlock` has applied when it returns or fails. -/
def appliedTxs : List CTransaction :=
  match connectPreChecks env {} ctx block c with
  | .error _ => []
  | .ok () => (loopEnd (connectLoop env {} ctx block c)).vAppliedOPoITxs

/-- Every transaction can be undone on the cache that it is applied to. -/
def UndoableAll (txs : List CTransaction) : Prop :=
  Undo.Along (applyOPoITransaction env ctx.chainActive ctx.nHeight)
    (fun c tx => undoable env ctx.nHeight c tx = true) c txs

instance (txs : List CTransaction) : Decidable (UndoableAll env ctx c txs) :=
  Undo.Along.decidable _ _

variable {env ctx block c}

def Recorded (env : Env) (ctx : ConnectContext) (c : OPoICache) (st : LoopState) : Prop :=
  st.cache = st.vAppliedOPoITxs.foldl (applyOPoITransaction env ctx.chainActive ctx.nHeight) c ∧
    ∀ tx ∈ st.vAppliedOPoITxs, tx.nVersion = OPOI_TX_VERSION

theorem Recorded.applyTx {st : LoopState} (h : Recorded env ctx c st) (tx : CTransaction) :
    Recorded env ctx c (connectTxApply env {} ctx st tx) := by
  unfold connectTxApply
  split
  · rename_i hApplies
    have hVersion : tx.nVersion = OPOI_TX_VERSION := by
      simp only [appliesOPoI, CTransaction.isOPoITx, Bool.and_eq_true, beq_iff_eq] at hApplies
      exact hApplies.2
    refine ⟨?_, fun t hMem => ?_⟩
    · simp [processOPoITransaction, hVersion, h.1]
    · rcases List.mem_append.mp hMem with hOld | hNew
      · exact h.2 t hOld
      · rw [List.mem_singleton.mp hNew]
        exact hVersion
  · exact h

theorem Recorded.turn {st : LoopState} (h : Recorded env ctx c st) (tx : CTransaction) :
    Recorded env ctx c (loopEnd (connectTx env {} ctx block st tx)) := by
  unfold connectTx
  split
  · exact h
  · dsimp only
    split
    · exact h.applyTx tx
    · exact h.applyTx tx

theorem recorded_loopEnd (txs : List CTransaction) {st : LoopState} (h : Recorded env ctx c st) :
    Recorded env ctx c (loopEnd (txs.foldlM (connectTx env {} ctx block) st)) := by
  induction txs generalizing st with
  | nil => exact h
  | cons tx txs ih =>
    have hTurn : Recorded env ctx c (loopEnd (connectTx env {} ctx block st tx)) := h.turn tx
    rw [List.foldlM_cons]
    cases hNext : connectTx env {} ctx block st tx with
    | error e =>
      rw [hNext] at hTurn
      exact hTurn
    | ok st' =>
      rw [hNext] at hTurn
      exact ih hTurn

theorem opoiConnectGuard_eq {st : LoopState} (h : Recorded env ctx c st) :
    opoiConnectGuard env ctx st = st.vAppliedOPoITxs.reverse.foldl undoOPoITransaction
        (st.vAppliedOPoITxs.foldl (applyOPoITransaction env ctx.chainActive ctx.nHeight) c) := by
  rw [← h.1]
  refine List.foldl_ext _ _ _ fun b tx hMem => ?_
  simp [processOPoITransaction, h.2 tx (List.mem_reverse.mp hMem)]

theorem connectBlock_failed {e : BlockReject}
    (hFail : (connectBlock env {} ctx block c).verdict = .error e) :
    (connectBlock env {} ctx block c).cache =
      (appliedTxs env ctx block c).reverse.foldl undoOPoITransaction
        ((appliedTxs env ctx block c).foldl
          (applyOPoITransaction env ctx.chainActive ctx.nHeight) c) := by
  have hRecorded : Recorded env ctx c (loopEnd (connectLoop env {} ctx block c)) :=
    recorded_loopEnd block.vtx ⟨rfl, fun _ hMem => by cases hMem⟩
  unfold connectBlock appliedTxs at *
  cases hPre : connectPreChecks env {} ctx block c with
  | error _ => rfl
  | ok _ =>
    cases hLoop : connectLoop env {} ctx block c with
    | error failure =>
      rw [hLoop] at hRecorded
      exact opoiConnectGuard_eq hRecorded
    | ok st =>
      rw [hLoop] at hRecorded
      rw [hPre, hLoop] at hFail
      simp only [connectFinish] at hFail ⊢
      cases hPost : connectPostChecks env ctx block st with
      | error _ => exact opoiConnectGuard_eq hRecorded
      | ok _ => simp [hPost] at hFail

/-- A failed `ConnectBlock` restores the cache if every applied transaction can be undone in
    the state that it was applied in. When one transaction was applied, only then. -/
theorem connectBlock_restores {e : BlockReject}
    (hFail : (connectBlock env {} ctx block c).verdict = .error e) :
    (UndoableAll env ctx c (appliedTxs env ctx block c) →
        (connectBlock env {} ctx block c).cache.consensus = c.consensus) ∧
      ((appliedTxs env ctx block c).length ≤ 1 →
        (connectBlock env {} ctx block c).cache.consensus = c.consensus →
        UndoableAll env ctx c (appliedTxs env ctx block c)) := by
  rw [connectBlock_failed hFail]
  constructor
  · refine Undo.foldl_reverse_restores (fun a b : OPoICache => a.consensus = b.consensus)
      ⟨fun _ => rfl, Eq.symm, Eq.trans⟩ (fun a b tx hSame => ?_) fun a tx hOk => ?_
    · rw [← consensus_undo a, ← consensus_undo b, hSame]
    · exact (undo_apply_iff env ctx.chainActive ctx.nHeight a tx).mpr hOk
  · intro hOne hSame
    match hApplied : appliedTxs env ctx block c with
    | [] => exact trivial
    | [tx] =>
      rw [hApplied] at hSame
      exact ⟨(undo_apply_iff env ctx.chainActive ctx.nHeight c tx).mp hSame, trivial⟩
    | _ :: _ :: _ => simp [hApplied] at hOne

end Guard

/-- A STAKE without an unspent collateral, which is looked at after the STAKE is applied. -/
def unbackedStake : CTransaction := sampleStake "alice" ⟨9999, 0⟩ 3

/-- A block with a new REQUEST and a first STAKE that has no collateral: both are undone. -/
def failingBlock : CBlock := sampleBlock 3 [sampleRequest "r" "alice" 2 1, unbackedStake]

theorem connectBlock_restores_of_first_stake : ∃ node,
    PlainRun sampleNet [sampleFunding] node ∧
    (connectBlock sampleNet {} node.context failingBlock node.cache).verdict =
      .error (.opoi (dos 100 "bad-txns-opoi-stake-no-utxo")) ∧
    (appliedTxs sampleNet node.context failingBlock node.cache).length = 2 ∧
    UndoableAll sampleNet node.context node.cache
      (appliedTxs sampleNet node.context failingBlock node.cache) ∧
    (connectBlock sampleNet {} node.context failingBlock node.cache).cache.consensus =
      node.cache.consensus := by
  refine ⟨_, Run.steps_value .other (by decide +kernel), ?fails, by decide +kernel, ?undoable,
    (connectBlock_restores ?fails).1 ?undoable⟩
  · decide +kernel
  · decide +kernel

/-- The same STAKE of a miner who already has one: its undo erases the stake that was there
    before the block. -/
theorem not_restored_of_second_stake : ∃ node,
    PlainRun sampleNet
      [sampleFunding, sampleBlock 3 [sampleStake "alice" ⟨4002, 1⟩ 1]] node ∧
    (connectBlock sampleNet {} node.context (sampleBlock 4 [unbackedStake])
      node.cache).verdict = .error (.opoi (dos 100 "bad-txns-opoi-stake-no-utxo")) ∧
    (connectBlock sampleNet {} node.context (sampleBlock 4 [unbackedStake])
      node.cache).cache.consensus ≠ node.cache.consensus := by
  refine ⟨_, Run.steps_value .other (by decide +kernel), by decide +kernel, fun hSame => ?_⟩
  have hStakes := congrArg (·.mapStakes.contains "alice") hSame
  exact absurd hStakes (by decide +kernel)

end CloudService
