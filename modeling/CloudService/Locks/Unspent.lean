/-
  Locked outputs are not spent. Every input is tested against the lock table as it is at that
  moment, inside the block.
-/

import CloudService.Chain.Evaluate
import CloudService.Coins.Loop
import CloudService.Locks.Claims

namespace CloudService

open CoinsView

section Unspent

variable {env : Env} {node : NodeState} {block : CBlock} {st st' : LoopState} {tx : CTransaction}
  {x : COutPoint} {c : Coin}

def Machine.locked (x : COutPoint) (m : Machine) : Bool := m.cache.isLockedUTXO x

/-- The transaction locks the outpoint at this moment. -/
def Machine.locks (x : COutPoint) (m : Machine) (tx : CTransaction) : Bool :=
  tx.isOPoITx && (m.cache.lockOf tx).any fun lock => lock.1 == x

/-- The coin is there, and OPoI is active, so that the lock table is consulted. -/
def Machine.Keeps (env : Env) (x : COutPoint) (c : Coin) (m : Machine) : Prop :=
  m.CoinsKnown env ∧ env.params.opoiActive m.node.nextHeight = true ∧ m.view.coin x = some c

theorem not_mem_spentBy_of_locked (h : connectTx env {} node.context block st tx = .ok st')
    (hActive : env.params.opoiActive node.nextHeight = true)
    (hLocked : st.cache.isLockedUTXO x = true) : x ∉ spentBy tx := by
  unfold spentBy
  split
  · simp
  · rename_i hCoinBase
    intro hMem
    obtain ⟨txin, hTxin, rfl⟩ := List.mem_map.mp hMem
    rw [connectTx_unlocked h (by simpa using hCoinBase) hActive txin hTxin] at hLocked
    cases hLocked

theorem ValidTx.spentBy_eq_nil (h : ValidTx tx) (hOPoI : tx.isOPoITx = true) :
    spentBy tx = [] := by
  simp [spentBy, (h.opoi hOPoI).1]

theorem Machine.Keeps.smallStep (m : Machine) (input : Input) (m' : Machine)
    (h : m.Keeps env x c) (hOk : noCollisions env m input ∧ m.locked x = true)
    (hStep : smallStep env m input = .ok m') : m'.Keeps env x c := by
  obtain ⟨hKnown, hActive, hCoin⟩ := h
  refine ⟨hKnown.smallStep m input m' hOk.1 hStep, ?_⟩
  obtain ⟨node, block, rfl, rfl, _, hBlock, rfl⟩ |
    ⟨node, block, tx, rest, st, st', rfl, rfl, hTurn, rfl⟩ | ⟨node, block, st, rfl, rfl, -, rfl⟩ :=
    smallStep_cases hStep
  · exact ⟨hActive, hCoin⟩
  · obtain ⟨hBlock, hFree, done, hVtx, hCoins⟩ := hKnown
    have hNext := NextTx.of_block hBlock.valid hFree hVtx hTurn
    exact ⟨hActive, hCoins.coin_kept hNext hCoin (not_mem_spentBy_of_locked hTurn hActive hOk.2)⟩
  · refine ⟨?_, hCoin⟩
    rw [Machine.node, NodeState.nextHeight_extend]
    exact Params.opoiActive_mono (Nat.le_succ _) hActive

theorem keeps_of_lock {m m₁ : Machine} (hKnown : m.CoinsKnown env)
    (hLock : m.locks x tx = true) (hStep : smallStep env m (.tx tx) = .ok m₁)
    (hCoin : m.view.coin x = some c) : m₁.Keeps env x c := by
  have hOPoI : tx.isOPoITx = true := (Bool.and_eq_true_iff.mp hLock).1
  refine ⟨hKnown.smallStep m (.tx tx) m₁ trivial hStep, ?_⟩
  obtain ⟨_, _, _, hInput, _⟩ | ⟨node, block, tx', rest, st, st', rfl, hInput, hTurn, rfl⟩ |
    ⟨_, _, _, _, hInput, _⟩ := smallStep_cases hStep
  · cases hInput
  · cases hInput
    obtain ⟨hBlock, hFree, done, hVtx, hCoins⟩ := hKnown
    have hNext := NextTx.of_block hBlock.valid hFree hVtx hTurn
    have hAccepted := hBlock.txs tx (by simp [hVtx])
    refine ⟨hAccepted.active hOPoI, hCoins.coin_kept hNext hCoin ?_⟩
    rw [hNext.valid.spentBy_eq_nil hOPoI]
    simp
  · cases hInput

end Unspent

/-- An output that is unspent when a transaction locks it stays unspent for as long as it
    stays locked: in every run from there on in which every step starts with the outpoint
    locked. -/
theorem locked_stays_unspent {env : Env} {inputs inputs' : List Input} {m m₁ m₂ : Machine}
    {tx : CTransaction} {x : COutPoint} {out : CTxOut}
    (hRun : SmallRun env (noCollisions env) inputs m)
    (hStep : smallStep env m (.tx tx) = .ok m₁) (hLock : m.locks x tx = true)
    (hUnspent : m.view.unspent x = some out)
    (hRest : Run.Steps (smallStep env) (fun m input => noCollisions env m input ∧
      m.locked x = true) m₁ inputs' m₂) :
    m₂.view.unspent x = some out := by
  rw [unspent_eq] at hUnspent
  obtain ⟨c, hCoin, hOut⟩ := Option.map_eq_some_iff.mp hUnspent
  have hKnown : m.CoinsKnown env := hRun.invariant Machine.CoinsKnown.smallStep trivial
  have hKeeps : m₂.Keeps env x c :=
    hRest.invariant Machine.Keeps.smallStep (keeps_of_lock hKnown hLock hStep hCoin)
  rw [unspent_eq, hKeeps.2.2, Option.map_some, hOut]

/-- The steps up to a STAKE on an output of the first block, and those after it: the rest of
    its block and the next block. -/
def stakeLockInputs : List Input :=
  blockInputs sampleFunding ++ [.start (sampleBlock 3 [sampleStake "alice" ⟨4002, 1⟩ 1]),
    .tx (sampleCoinbase [("miner", 5)] 3)]
def stakeLockedInputs : List Input := .finish :: blockInputs (sampleBlock 4 [])

theorem stake_stays_unspent : ∃ m m₁ m₂,
    SmallRun sampleNet (noCollisions sampleNet) stakeLockInputs m ∧
    smallStep sampleNet m (.tx (sampleStake "alice" ⟨4002, 1⟩ 1)) = .ok m₁ ∧
    m.locks ⟨4002, 1⟩ (sampleStake "alice" ⟨4002, 1⟩ 1) = true ∧
    Run.Steps (smallStep sampleNet) (fun m input =>
      noCollisions sampleNet m input ∧ m.locked ⟨4002, 1⟩ = true)
      m₁ stakeLockedInputs m₂ ∧
    ∃ out, m.view.unspent ⟨4002, 1⟩ = some out ∧ m₂.view.unspent ⟨4002, 1⟩ = some out := by
  refine ⟨_, _, _, Run.steps_value .other (by decide +kernel), Run.eq_value (by decide +kernel),
    ?locks, Run.steps_value .other (by decide +kernel), _, Run.eq_valueOf (by decide +kernel),
    locked_stays_unspent (Run.steps_value BlockReject.other _) (Run.eq_value _) ?locks
      (Run.eq_valueOf _) (Run.steps_value BlockReject.other _)⟩
  decide +kernel

end CloudService
