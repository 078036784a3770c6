/-
  A node that connects blocks (`ConnectTip`), and the same in small steps, which make the
  states inside a block visible.
-/

import CloudService.Chain.Checked
import CloudService.Library.Run
import CloudService.OPoI.Accepted

namespace CloudService

variable {c : OPoICache} {blocks : List CBlock} {block : CBlock}

/-- The active chain of a node, its OPoI cache and its coins. -/
structure NodeState where
  chain : List CBlock
  cache : OPoICache
  view : CoinsView

namespace NodeState

/-- The genesis block: its coinbase is unspendable and its transactions are not processed. -/
def init (env : Env) : NodeState :=
  { chain := [env.genesis], cache := {}, view := .init env.roots env.genesis.hash }

def chainActive (node : NodeState) : List Uint256 := node.chain.map CBlock.hash

/-- The height of the block that is connected next. -/
def nextHeight (node : NodeState) : Nat := node.chain.length

/-- What the next block is connected on. -/
def context (node : NodeState) : ConnectContext :=
  { chainActive := node.chainActive, nHeight := node.nextHeight, view := node.view }

def extend (node : NodeState) (block : CBlock) (cache : OPoICache) (view : CoinsView) : NodeState :=
  { chain := node.chain ++ [block], cache := cache, view := view }

@[simp] theorem extend_cache (node : NodeState) (block : CBlock) (cache : OPoICache)
    (view : CoinsView) : (node.extend block cache view).cache = cache := rfl

@[simp] theorem nextHeight_extend (node : NodeState) (block : CBlock) (cache : OPoICache)
    (view : CoinsView) : (node.extend block cache view).nextHeight = node.nextHeight + 1 := by
  simp [nextHeight, extend]

end NodeState

/-- The block can be the successor of the tip: it is not in the chain yet, and its
    height is an `int`. -/
def isNextBlock (node : NodeState) (block : CBlock) : Bool :=
  !(node.chain.any (·.hash == block.hash)) && decide (node.nextHeight < 2147483648)

/-- `ConnectTip` for a block that `ConnectBlock` accepts. -/
def connectTip (env : Env) (node : NodeState) (block : CBlock) : Except BlockReject NodeState :=
  if isNextBlock node block then
    let result := connectBlock env {} node.context block node.cache
    match result.verdict with
    | .error e => .error e
    | .ok view => .ok (node.extend block result.cache view)
  else .error .other

/-- A forward run from the genesis block, every step of which meets a condition. -/
def ForwardRun (env : Env) (ok : NodeState → CBlock → Prop) (blocks : List CBlock)
    (node : NodeState) : Prop :=
  Run.Steps (connectTip env) ok (.init env) blocks node

/-- A forward run without a condition on its steps. -/
abbrev PlainRun (env : Env) (blocks : List CBlock) (node : NodeState) : Prop :=
  ForwardRun env (fun _ _ => True) blocks node

/-- The blocks of a run, each with the node that it is connected to. -/
abbrev blockTrace (env : Env) (blocks : List CBlock) : List (NodeState × CBlock) :=
  Run.trace (connectTip env) (.init env) blocks

/-! ## Small steps -/

/-- A node between two blocks, or inside the loop over the transactions of a block. -/
inductive Machine where
  | idle (node : NodeState)
  | busy (node : NodeState) (block : CBlock) (rest : List CTransaction) (st : LoopState)

/-- The events that drive a node. -/
inductive Input where
  | start (block : CBlock)
  | tx (tx : CTransaction)
  | finish

namespace Machine

/-- The node as it is at the last block boundary. -/
def node : Machine → NodeState
  | .idle node => node
  | .busy node _ _ _ => node

def cache : Machine → OPoICache
  | .idle node => node.cache
  | .busy _ _ _ st => st.cache

def view : Machine → CoinsView
  | .idle node => node.view
  | .busy _ _ _ st => st.view

end Machine

/-- `ConnectTip` in steps: the checks before the loop, one transaction, the end of the block. -/
def smallStep (env : Env) : Machine → Input → Except BlockReject Machine
  | .idle node, .start block =>
    if isNextBlock node block then do
      connectPreChecks env {} node.context block node.cache
      return .busy node block block.vtx (loopStart node.context node.cache)
    else .error .other
  | .busy node block (next :: rest) st, .tx tx =>
    if next = tx then
      match connectTx env {} node.context block st tx with
      | .error (e, _) => .error e
      | .ok st => .ok (.busy node block rest st)
    else .error .other
  | .busy node block [] st, .finish => do
    connectPostChecks env node.context block st
    return .idle (node.extend block (connectTransitions env {} node.context block st.cache)
      (connectedView env node.context block st.view))
  | _, _ => .error .other

/-- A run of small steps from the genesis block. -/
abbrev SmallRun (env : Env) (ok : Machine → Input → Prop) (inputs : List Input) (m : Machine) :
    Prop :=
  Run.Steps (smallStep env) ok (.idle (.init env)) inputs m

/-- A condition on the transactions only: it reads the state of the loop before them. -/
def onTx (p : NodeState → LoopState → CTransaction → Prop) : Machine → Input → Prop
  | .busy node _ _ st, .tx tx => p node st tx
  | _, _ => True

/-- The condition on a whole block that a condition on its transactions amounts to. -/
def onBlock (env : Env) (p : NodeState → LoopState → CTransaction → Prop) (node : NodeState)
    (block : CBlock) : Prop :=
  ∀ e ∈ Run.trace (connectTx env {} node.context block) (loopStart node.context node.cache)
    block.vtx, p node e.1 e.2

/-- The small steps of one block. -/
def blockInputs (block : CBlock) : List Input :=
  .start block :: block.vtx.map .tx ++ [.finish]

/-! ## What a step does -/

section Inversion

variable {env : Env} {node node' : NodeState} {block : CBlock} {st st' : LoopState}
  {tx : CTransaction}

/-- The cache after one turn of the loop on a real connect. -/
def loopCache (env : Env) (node : NodeState) (c : OPoICache) (tx : CTransaction) : OPoICache :=
  if appliesOPoI {} tx then applyOPoITransaction env node.chainActive node.nextHeight c tx else c

theorem connectTx_eq_ok (h : connectTx env {} node.context block st tx = .ok st') :
    st'.cache = loopCache env node st.cache tx ∧
      st'.view = st.view.updateCoins (env.getHash tx) tx node.nextHeight ∧
      (tx.isOPoI .stake → env.params.opoiActive node.nextHeight →
        checkStakeCollateral env st.view tx = .ok ()) := by
  have hView := (CoinTurn.of_connectTx h).view
  unfold connectTx at h
  split at h
  · cases h
  · dsimp only at h
    split at h
    · cases h
    · rename_i hAfter
      obtain ⟨_, hCollateral, _⟩ := connectTxAfter_eq_ok hAfter
      rw [connectTxApply_view] at hCollateral
      refine ⟨?_, hView, hCollateral rfl rfl⟩
      cases h
      unfold connectTxApply loopCache
      split
      · rename_i hApplies
        have hVersion : tx.nVersion = OPOI_TX_VERSION := by
          simp only [appliesOPoI, CTransaction.isOPoITx, Bool.and_eq_true, beq_iff_eq] at hApplies
          exact hApplies.2
        simp [processOPoITransaction, hVersion, NodeState.context]
      · rfl

theorem connectTx_unlocked (h : connectTx env {} node.context block st tx = .ok st')
    (hCoinBase : tx.isCoinBase = false) (hActive : env.params.opoiActive node.nextHeight = true) :
    ∀ txin ∈ tx.vin, st.cache.isLockedUTXO txin.prevout = false := by
  unfold connectTx at h
  split at h
  · cases h
  · rename_i hBefore
    unfold connectTxBefore at hBefore
    simp only [check_bind_eq_ok, liftCheck_eq_ok, rejectIf_eq_ok] at hBefore
    have hNone : (tx.vin.any fun txin => st.cache.isLockedUTXO txin.prevout) = false := by
      simpa [hCoinBase, hActive, NodeState.context] using hBefore.2.1
    intro txin hMem
    exact Bool.not_eq_true _ ▸ List.any_eq_false.mp hNone txin hMem

/-- What the checks before the loop establish for a transaction of an accepted block. -/
structure AcceptedTx (env : Env) (node : NodeState) (tx : CTransaction) : Prop where
  checked : checkOPoITransaction env false node.chainActive node.cache tx = .ok ()
  active : tx.isOPoITx = true → env.params.opoiActive node.nextHeight = true

theorem AcceptedTx.not_coinBase (h : AcceptedTx env node tx) (hOPoI : tx.isOPoITx = true) :
    tx.isCoinBase = false := by
  simp [CTransaction.isCoinBase, (opoi_empty_of_check h.checked hOPoI).1]

theorem AcceptedTx.auditor_not_null (h : AcceptedTx env node tx) (hOPoI : tx.isOPoITx = true)
    (hType : tx.opoiType = .auditorVerify) : tx.opoiAuditorCollateralIn.isNull = false := by
  have hBranch := checkOPoITransaction_branch h.checked hOPoI
  rw [hType] at hBranch
  exact (checkAuditorVerify_eq_ok hBranch).1

theorem AcceptedTx.loopCache_eq (h : AcceptedTx env node tx) (c : OPoICache) :
    loopCache env node c tx =
      if tx.isOPoITx then applyOPoITransaction env node.chainActive node.nextHeight c tx
        else c := by
  unfold loopCache appliesOPoI
  cases hOPoI : tx.isOPoITx with
  | false => simp
  | true => simp [h.not_coinBase hOPoI]

/-- What the checks before the loop establish for a block. -/
structure AcceptedBlock (env : Env) (node : NodeState) (block : CBlock) : Prop where
  shape : ∃ coinbase rest, block.vtx = coinbase :: rest ∧ coinbase.isCoinBase = true ∧
    ∀ tx ∈ rest, tx.isCoinBase = false
  txs : ∀ tx ∈ block.vtx, AcceptedTx env node tx
  valid : ValidBlock env node.context block
  fluxnodes : env.startFluxnodePayments ≤ node.nextHeight →
    checkFluxnodePayout env node.chainActive node.nextHeight (block.vtx.headD {}) = true
  payments : env.params.opoiActive node.nextHeight = true →
    checkOPoIPayments env node.cache block.vtx node.chainActive node.nextHeight = .ok ()
  rewards : env.params.opoiActive node.nextHeight = true →
    checkOPoIChallengerRewards env node.cache block.vtx = .ok ()

theorem checkBlockTx_eq_ok (h : checkBlockTx env {} node.context c tx = .ok ()) :
    checkOPoITransaction env false node.chainActive c tx = .ok () ∧
      (tx.isOPoITx = true → env.params.opoiActive node.nextHeight = true) := by
  unfold checkBlockTx at h
  simp only [check_bind_eq_ok, liftCheck_eq_ok, rejectIf_eq_ok] at h
  obtain ⟨_, _, hChecked, _, _, hActive⟩ := h
  refine ⟨hChecked, fun hOPoI => ?_⟩
  simpa [hOPoI, NodeState.context] using hActive

theorem AcceptedBlock.of_preChecks
    (h : connectPreChecks env {} node.context block node.cache = .ok ()) :
    AcceptedBlock env node block := by
  have hValid := ValidBlock.of_preChecks h
  unfold connectPreChecks at h
  simp only [check_bind_eq_ok] at h
  obtain ⟨hBlock, _, _, hFluxnodes, h⟩ := h
  obtain ⟨hShape, hTxs⟩ := checkBlock_eq_ok hBlock
  have hOwed : env.params.opoiActive node.nextHeight = true →
      checkOPoIPayments env node.cache block.vtx node.chainActive node.nextHeight = .ok () ∧
        checkOPoIChallengerRewards env node.cache block.vtx = .ok () := by
    intro hActive
    simp only [NodeState.context, hActive, if_true, check_bind_eq_ok, liftCheck_eq_ok,
      Bool.not_false, Bool.true_and] at h
    obtain ⟨_, hPayments, hRewards, _⟩ := h
    exact ⟨hPayments, hRewards⟩
  exact
    { shape := hShape
      txs := fun tx hMem =>
        ⟨(checkBlockTx_eq_ok (hTxs tx hMem)).1, (checkBlockTx_eq_ok (hTxs tx hMem)).2⟩
      valid := hValid
      fluxnodes := fun hStart => by
        rw [liftCheck_eq_ok, rejectIf_eq_ok] at hFluxnodes
        simpa [NodeState.context, hStart] using hFluxnodes
      payments := fun hActive => (hOwed hActive).1
      rewards := fun hActive => (hOwed hActive).2 }

theorem smallStep_cases {m m' : Machine} {input : Input} (h : smallStep env m input = .ok m') :
    (∃ node block, m = .idle node ∧ input = .start block ∧ isNextBlock node block = true ∧
      AcceptedBlock env node block ∧
      m' = .busy node block block.vtx (loopStart node.context node.cache)) ∨
    (∃ node block tx rest st st', m = .busy node block (tx :: rest) st ∧ input = .tx tx ∧
      connectTx env {} node.context block st tx = .ok st' ∧ m' = .busy node block rest st') ∨
    (∃ node block st, m = .busy node block [] st ∧ input = .finish ∧
      connectPostChecks env node.context block st = .ok () ∧
      m' = .idle (node.extend block (connectTransitions env {} node.context block st.cache)
        (connectedView env node.context block st.view))) := by
  unfold smallStep at h
  split at h
  · rename_i node block
    split at h
    · rename_i hNext
      rw [check_bind_eq_ok] at h
      obtain ⟨hPre, h⟩ := h
      cases h
      exact .inl ⟨node, block, rfl, rfl, hNext, .of_preChecks hPre, rfl⟩
    · cases h
  · rename_i node block next rest st tx
    split at h
    · rename_i hEq
      subst hEq
      split at h
      · cases h
      · rename_i st' hTurn
        cases h
        exact .inr (.inl ⟨node, block, next, rest, st, st', rfl, rfl, hTurn, rfl⟩)
    · cases h
  · rename_i node block st
    rw [check_bind_eq_ok] at h
    obtain ⟨hPost, h⟩ := h
    cases h
    exact .inr (.inr ⟨node, block, st, rfl, rfl, hPost, rfl⟩)
  · cases h

theorem connectTip_eq_ok (h : connectTip env node block = .ok node') :
    ∃ st, isNextBlock node block = true ∧
      connectPreChecks env {} node.context block node.cache = .ok () ∧
      connectLoop env {} node.context block node.cache = .ok st ∧
      connectPostChecks env node.context block st = .ok () ∧
      node' = node.extend block (connectTransitions env {} node.context block st.cache)
        (connectedView env node.context block st.view) := by
  unfold connectTip at h
  split at h
  · rename_i hNext
    unfold connectBlock at h
    cases hPre : connectPreChecks env {} node.context block node.cache with
    | error e =>
      rw [hPre] at h
      cases h
    | ok _ =>
      cases hLoop : connectLoop env {} node.context block node.cache with
      | error e =>
        rw [hPre, hLoop] at h
        cases h
      | ok st =>
        rw [hPre, hLoop] at h
        dsimp only [connectFinish] at h
        cases hPost : connectPostChecks env node.context block st with
        | error e =>
          rw [hPost] at h
          cases h
        | ok _ =>
          simp only [hPost, Bool.false_eq_true, if_false, Except.ok.injEq] at h
          exact ⟨st, hNext, rfl, rfl, hPost, h.symm⟩
  · cases h

section

variable {p : NodeState → LoopState → CTransaction → Prop}

theorem steps_of_connectLoop (h : connectLoop env {} node.context block c = .ok st)
    (hOk : ∀ e ∈ Run.trace (connectTx env {} node.context block) (loopStart node.context c)
      block.vtx, p node e.1 e.2) :
    Run.Steps (connectTx env {} node.context block) (p node) (loopStart node.context c)
      block.vtx st :=
  Run.Steps.of_foldlM h hOk

theorem smallSteps_of_loop {txs : List CTransaction}
    (h : Run.Steps (connectTx env {} node.context block) (p node) st txs st') :
    Run.Steps (smallStep env) (onTx p) (.busy node block txs st) (txs.map .tx)
      (.busy node block [] st') := by
  induction h with
  | nil st => exact .nil _
  | cons hStep hOk _ ih =>
    refine .cons ?_ hOk ih
    simp only [smallStep, if_true, hStep]

theorem smallSteps_of_connectTip (h : connectTip env node block = .ok node')
    (hOk : onBlock env p node block) :
    ∃ st, connectLoop env {} node.context block node.cache = .ok st ∧
      Run.Steps (smallStep env) (onTx p) (.idle node)
        (.start block :: block.vtx.map .tx) (.busy node block [] st) ∧
      smallStep env (.busy node block [] st) .finish = .ok (.idle node') ∧
      node' = node.extend block (connectTransitions env {} node.context block st.cache)
        (connectedView env node.context block st.view) := by
  obtain ⟨st, hNext, hPre, hLoop, hPost, hNode⟩ := connectTip_eq_ok h
  refine ⟨st, hLoop, ?_, ?_, hNode⟩
  · refine .cons ?_ trivial (smallSteps_of_loop (steps_of_connectLoop hLoop hOk))
    simp only [smallStep, hNext, if_true, hPre]
    rfl
  · simp only [smallStep, hPost, hNode]
    rfl

theorem smallSteps_of_blocks (h : Run.Steps (connectTip env) (onBlock env p) node blocks node') :
    Run.Steps (smallStep env) (onTx p) (.idle node) (blocks.flatMap blockInputs)
      (.idle node') := by
  induction h with
  | nil s => exact .nil _
  | cons hStep hOk _ ih =>
    obtain ⟨st, _, hLoop, hFinish, _⟩ := smallSteps_of_connectTip hStep hOk
    exact (hLoop.snoc hFinish trivial).append ih

end

end Inversion

section Invariant

variable {env : Env} {p : NodeState → LoopState → CTransaction → Prop}
  {J : NodeState → OPoICache → Prop}

/-- A relation between the last block boundary and the current cache, in every state of
    the machine. -/
def Machine.Satisfies (env : Env) (J : NodeState → OPoICache → Prop) : Machine → Prop
  | .idle node => J node node.cache
  | .busy node block rest st =>
    J node st.cache ∧ J node node.cache ∧ isNextBlock node block = true ∧
      (∀ tx ∈ rest, AcceptedTx env node tx) ∧
      (env.params.opoiActive node.nextHeight = false → st.cache = node.cache)

/-- An invariant: accepted transactions keep it inside a block, the passes and blocks before
    activation turn it into the one of the next boundary. -/
structure Preserved (env : Env) (p : NodeState → LoopState → CTransaction → Prop)
    (J : NodeState → OPoICache → Prop) : Prop where
  onTx : ∀ node st tx, J node node.cache → J node st.cache → AcceptedTx env node tx →
    tx.isOPoITx = true → p node st tx →
    J node (applyOPoITransaction env node.chainActive node.nextHeight st.cache tx)
  onPasses : ∀ node block c view, J node node.cache → J node c →
    isNextBlock node block = true →
    J (node.extend block (connectPasses env node.nextHeight block.vtx c) view)
      (connectPasses env node.nextHeight block.vtx c)
  onQuiet : ∀ node block view, J node node.cache →
    J (node.extend block node.cache view) node.cache

theorem connectTransitions_of_active {node : NodeState}
    (h : env.params.opoiActive node.nextHeight = true) :
    connectTransitions env {} node.context block c =
      connectPasses env node.nextHeight block.vtx c := by
  simp [connectTransitions, NodeState.context, h]

theorem connectTransitions_of_inactive {node : NodeState}
    (h : env.params.opoiActive node.nextHeight = false) :
    connectTransitions env {} node.context block c = c := by
  simp [connectTransitions, NodeState.context, h]

theorem Preserved.smallStep (h : Preserved env p J) (m : Machine) (input : Input) (m' : Machine)
    (hInv : m.Satisfies env J) (hOk : CloudService.onTx p m input)
    (hStep : smallStep env m input = .ok m') : m'.Satisfies env J := by
  obtain ⟨node, block, rfl, rfl, hNext, hBlock, rfl⟩ |
    ⟨node, block, tx, rest, st, st', rfl, rfl, hTurn, rfl⟩ | ⟨node, block, st, rfl, rfl, -, rfl⟩ :=
    smallStep_cases hStep
  · exact ⟨hInv, hInv, hNext, hBlock.txs, fun _ => rfl⟩
  · obtain ⟨hCur, hPre, hNext, hRest, hQuiet⟩ := hInv
    have hTx : AcceptedTx env node tx := hRest tx List.mem_cons_self
    have hCache := (connectTx_eq_ok hTurn).1
    rw [hTx.loopCache_eq] at hCache
    refine ⟨?_, hPre, hNext, fun t hMem => hRest t (List.mem_cons_of_mem _ hMem), ?_⟩
    · rw [hCache]
      split
      · rename_i hOPoI
        exact h.onTx node st tx hPre hCur hTx hOPoI hOk
      · exact hCur
    · intro hInactive
      rw [hCache]
      split
      · rename_i hOPoI
        rw [hTx.active hOPoI] at hInactive
        cases hInactive
      · exact hQuiet hInactive
  · obtain ⟨hCur, hPre, hNext, _, hQuiet⟩ := hInv
    simp only [Machine.Satisfies, NodeState.extend_cache]
    by_cases hActive : env.params.opoiActive node.nextHeight = true
    · rw [connectTransitions_of_active hActive]
      exact h.onPasses node block st.cache _ hPre hCur hNext
    · rw [Bool.not_eq_true] at hActive
      rw [connectTransitions_of_inactive hActive, hQuiet hActive]
      exact h.onQuiet node block _ hPre

theorem Preserved.run (h : Preserved env p J) {m m' : Machine} {inputs : List Input}
    (hRun : Run.Steps (CloudService.smallStep env) (CloudService.onTx p) m inputs m')
    (hInv : m.Satisfies env J) : m'.Satisfies env J :=
  hRun.invariant h.smallStep hInv

theorem Preserved.mono {q : NodeState → LoopState → CTransaction → Prop} (h : Preserved env p J)
    (hImp : ∀ node st tx, q node st tx → p node st tx) : Preserved env q J where
  onTx node st tx hPre hCur hTx hOPoI hOk := h.onTx node st tx hPre hCur hTx hOPoI (hImp _ _ _ hOk)
  onPasses := h.onPasses
  onQuiet := h.onQuiet

theorem Preserved.forwardRun (h : Preserved env p J) {node : NodeState}
    (hInit : J (.init env) {}) (hRun : ForwardRun env (onBlock env p) blocks node) :
    J node node.cache :=
  h.run (smallSteps_of_blocks hRun) hInit

theorem Preserved.everyRun (h : Preserved env (fun _ _ _ => True) J)
    {node : NodeState} (hInit : J (.init env) {})
    (hRun : PlainRun env blocks node) : J node node.cache :=
  h.forwardRun hInit (hRun.weaken fun _ _ _ _ _ => trivial)

theorem preserved_true : Preserved env p fun _ _ => True where
  onTx _ _ _ _ _ _ _ _ := trivial
  onPasses _ _ _ _ _ _ _ := trivial
  onQuiet _ _ _ _ := trivial

theorem cache_of_inactive {node node' : NodeState} (hTip : connectTip env node block = .ok node')
    (hInactive : env.params.opoiActive node.nextHeight = false) : node'.cache = node.cache := by
  obtain ⟨st, _, hSteps, _, hNode⟩ := smallSteps_of_connectTip (p := fun _ _ _ => True) hTip
    fun _ _ => trivial
  have hQuiet := (preserved_true.run hSteps trivial).2.2.2.2 hInactive
  rw [hNode, NodeState.extend_cache, connectTransitions_of_inactive hInactive, hQuiet]

/-- A relation that holds from some state on, given an invariant of all states. -/
structure PreservedUnder (env : Env) (p : NodeState → LoopState → CTransaction → Prop)
    (J K : NodeState → OPoICache → Prop) : Prop where
  onTx : ∀ node st tx, J node node.cache → J node st.cache → K node st.cache →
    AcceptedTx env node tx → tx.isOPoITx = true → p node st tx →
    K node (applyOPoITransaction env node.chainActive node.nextHeight st.cache tx)
  onPasses : ∀ node block c view, J node node.cache → J node c → K node c →
    isNextBlock node block = true →
    K (node.extend block (connectPasses env node.nextHeight block.vtx c) view)
      (connectPasses env node.nextHeight block.vtx c)
  onQuiet : ∀ node block view, J node node.cache → K node node.cache →
    K (node.extend block node.cache view) node.cache

theorem PreservedUnder.smallStep {K : NodeState → OPoICache → Prop} (hJ : Preserved env p J)
    (h : PreservedUnder env p J K) (m : Machine) (input : Input) (m' : Machine)
    (hInv : m.Satisfies env J ∧ K m.node m.cache) (hOk : CloudService.onTx p m input)
    (hStep : CloudService.smallStep env m input = .ok m') :
    m'.Satisfies env J ∧ K m'.node m'.cache := by
  refine ⟨hJ.smallStep m input m' hInv.1 hOk hStep, ?_⟩
  obtain ⟨hSat, hK⟩ := hInv
  obtain ⟨node, block, rfl, rfl, _, _, rfl⟩ |
    ⟨node, block, tx, rest, st, st', rfl, rfl, hTurn, rfl⟩ | ⟨node, block, st, rfl, rfl, -, rfl⟩ :=
    smallStep_cases hStep
  · exact hK
  · obtain ⟨hCur, hPre, _, hRest, _⟩ := hSat
    have hTx : AcceptedTx env node tx := hRest tx List.mem_cons_self
    have hCache := (connectTx_eq_ok hTurn).1
    rw [hTx.loopCache_eq] at hCache
    simp only [Machine.node, Machine.cache, hCache] at hK ⊢
    split
    · rename_i hOPoI
      exact h.onTx node st tx hPre hCur hK hTx hOPoI hOk
    · exact hK
  · obtain ⟨hCur, hPre, hNext, _, hQuiet⟩ := hSat
    simp only [Machine.node, Machine.cache, NodeState.extend_cache] at hK ⊢
    by_cases hActive : env.params.opoiActive node.nextHeight = true
    · rw [connectTransitions_of_active hActive]
      exact h.onPasses node block st.cache _ hPre hCur hK hNext
    · rw [Bool.not_eq_true] at hActive
      rw [connectTransitions_of_inactive hActive, hQuiet hActive]
      rw [hQuiet hActive] at hK
      exact h.onQuiet node block _ hPre hK

theorem PreservedUnder.run {K : NodeState → OPoICache → Prop} (hJ : Preserved env p J)
    (h : PreservedUnder env p J K) {m m' : Machine} {inputs : List Input}
    (hRun : Run.Steps (CloudService.smallStep env) (CloudService.onTx p) m inputs m')
    (hInv : m.Satisfies env J) (hK : K m.node m.cache) : K m'.node m'.cache :=
  (hRun.invariant (h.smallStep hJ) ⟨hInv, hK⟩).2

end Invariant

end CloudService
