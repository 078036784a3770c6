/-
  `ConnectBlock` and `DisconnectBlock` with both global caches. The CSApp cache is changed
  under any flags and is not guarded.
-/

import CloudService.CSApp.Cache
import CloudService.Chain.Disconnect
import CloudService.Library.Effect
import CloudService.Undo.Guard

namespace CloudService

section Connect

variable (env : Env) (flags : ConnectFlags) (ctx : ConnectContext) (block : CBlock)

/-- The CSApp part of a turn of the loop. -/
def connectTxApps (nHeight : Nat) (apps : CSAppCache) (tx : CTransaction) : CSAppCache :=
  if !tx.isCoinBase && tx.isCSAppTx then processCSAppTransaction env tx nHeight false apps else apps

/-- One turn of the loop with the CSApp cache, which is changed after the first checks. -/
def connectTxCaches (s : CSAppCache × LoopState) (tx : CTransaction) :
    Except ((BlockReject × LoopState) × CSAppCache) (CSAppCache × LoopState) :=
  match connectTxBefore env flags ctx block s.2 tx with
  | .error e => .error ((e, s.2), s.1)
  | .ok () =>
    let apps := connectTxApps env ctx.nHeight s.1 tx
    match connectTx env flags ctx block s.2 tx with
    | .error failure => .error (failure, apps)
    | .ok st => .ok (apps, st)

/-- The verdict of `ConnectBlock`, and the two global caches afterwards. -/
structure CachesResult where
  verdict : Except BlockReject CoinsView
  apps : CSAppCache
  cache : OPoICache

/-- `ConnectBlock` with the CSApp cache. -/
def connectBlockCaches (apps : CSAppCache) (c : OPoICache) : CachesResult :=
  match connectPreChecks env flags ctx block c with
  | .error e => ⟨.error e, apps, c⟩
  | .ok () =>
    match block.vtx.foldlM (connectTxCaches env flags ctx block) (apps, loopStart ctx c) with
    | .error ((e, st), apps) => ⟨.error e, apps, opoiConnectGuard env ctx st⟩
    | .ok (apps, st) =>
      let result := connectFinish env flags ctx block st
      ⟨result.verdict, apps, result.cache⟩

def startsApp (e : LoopState × CTransaction) : Bool :=
  (connectTxBefore env flags ctx block e.1 e.2).isOk && (!e.2.isCoinBase && e.2.isCSAppTx)

/-- The CSApp transactions that a call of `ConnectBlock` processes. -/
def startedApps (c : OPoICache) : List CTransaction :=
  match connectPreChecks env flags ctx block c with
  | .error _ => []
  | .ok () => ((Run.trace (connectTx env flags ctx block) (loopStart ctx c) block.vtx).filter
      (startsApp env flags ctx block)).map Prod.snd

variable {env flags ctx block}

theorem connectTxCaches_eq :
    connectTxCaches env flags ctx block =
      Run.withEffect (connectTx env flags ctx block) fun st apps tx =>
        if startsApp env flags ctx block (st, tx) then
          processCSAppTransaction env tx ctx.nHeight false apps
        else apps := by
  funext s tx
  unfold connectTxCaches Run.withEffect startsApp connectTxApps
  cases hBefore : connectTxBefore env flags ctx block s.2 tx with
  | error e =>
    have hTurn : connectTx env flags ctx block s.2 tx = .error (e, s.2) := by
      simp [connectTx, hBefore]
    simp [hTurn, hBefore, Except.isOk, Except.toBool]
  | ok _ =>
    cases hTurn : connectTx env flags ctx block s.2 tx with
    | error failure => simp [hBefore, Except.isOk, Except.toBool]
    | ok st => simp [hBefore, Except.isOk, Except.toBool]

/-- The CSApp cache does not influence the rest of `ConnectBlock`, and it is changed by the
    transactions that were processed, whatever the verdict is. -/
theorem connectBlockCaches_eq (apps : CSAppCache) (c : OPoICache) :
    connectBlockCaches env flags ctx block apps c =
      { verdict := (connectBlock env flags ctx block c).verdict
        apps := (startedApps env flags ctx block c).foldl
          (fun apps tx => processCSAppTransaction env tx ctx.nHeight false apps) apps
        cache := (connectBlock env flags ctx block c).cache } := by
  unfold connectBlockCaches connectBlock startedApps
  cases connectPreChecks env flags ctx block c with
  | error e => rfl
  | ok _ =>
    have hApps (turns : List (LoopState × CTransaction)) :
        ((turns.filter (startsApp env flags ctx block)).map Prod.snd).foldl
            (fun apps tx => processCSAppTransaction env tx ctx.nHeight false apps) apps =
          turns.foldl (fun apps e => if startsApp env flags ctx block e then
            processCSAppTransaction env e.2 ctx.nHeight false apps else apps) apps := by
      rw [List.foldl_map, List.foldl_filter]
    rw [connectTxCaches_eq, Run.foldlM_withEffect, hApps]
    unfold connectLoop
    cases block.vtx.foldlM (connectTx env flags ctx block) (loopStart ctx c) with
    | error failure => rfl
    | ok st => rfl

end Connect

section ReadOnly

variable {env : Env} {flags : ConnectFlags} {ctx : ConnectContext} {block : CBlock}
  {st : LoopState} {c : OPoICache}

section

variable (h : flags.fJustCheck = true ∨ flags.fIsVerifying = true)

include h

theorem connectTxApply_eq_self (tx : CTransaction) : connectTxApply env flags ctx st tx = st := by
  have hNot : appliesOPoI flags tx = false := by
    rcases h with h | h
    · simp [appliesOPoI, h]
    · simp [appliesOPoI, h]
  simp [connectTxApply, hNot]

theorem loopEnd_untouched (txs : List CTransaction) :
    (loopEnd (txs.foldlM (connectTx env flags ctx block) st)).cache = st.cache ∧
      (loopEnd (txs.foldlM (connectTx env flags ctx block) st)).vAppliedOPoITxs =
        st.vAppliedOPoITxs := by
  induction txs generalizing st with
  | nil => exact ⟨rfl, rfl⟩
  | cons tx txs ih =>
    have hTurn : (loopEnd (connectTx env flags ctx block st tx)).cache = st.cache ∧
        (loopEnd (connectTx env flags ctx block st tx)).vAppliedOPoITxs = st.vAppliedOPoITxs := by
      unfold connectTx
      split
      · exact ⟨rfl, rfl⟩
      · dsimp only
        rw [connectTxApply_eq_self h]
        split
        · exact ⟨rfl, rfl⟩
        · exact ⟨rfl, rfl⟩
    rw [List.foldlM_cons]
    cases hNext : connectTx env flags ctx block st tx with
    | error e =>
      rw [hNext] at hTurn
      exact hTurn
    | ok st' =>
      rw [hNext] at hTurn
      have hRest : (loopEnd (txs.foldlM (connectTx env flags ctx block) st')).cache = st'.cache ∧
          (loopEnd (txs.foldlM (connectTx env flags ctx block) st')).vAppliedOPoITxs =
            st'.vAppliedOPoITxs := ih
      exact ⟨hRest.1.trans hTurn.1, hRest.2.trans hTurn.2⟩

theorem connectBlock_cache_eq : (connectBlock env flags ctx block c).cache = c := by
  have hEnd : (loopEnd (connectLoop env flags ctx block c)).cache = c ∧
      (loopEnd (connectLoop env flags ctx block c)).vAppliedOPoITxs = [] :=
    loopEnd_untouched h block.vtx
  have hGuard : ∀ st : LoopState, st.cache = c ∧ st.vAppliedOPoITxs = [] →
      opoiConnectGuard env ctx st = c := by
    rintro st ⟨hCache, hApplied⟩
    simp [opoiConnectGuard, hCache, hApplied]
  unfold connectBlock
  split
  · rfl
  · cases hLoop : connectLoop env flags ctx block c with
    | error failure =>
      rw [hLoop] at hEnd
      exact hGuard failure.2 hEnd
    | ok st =>
      rw [hLoop] at hEnd
      dsimp only [connectFinish]
      split
      · exact hGuard st hEnd
      · split
        · exact hGuard st hEnd
        · rename_i hReal
          have hVerifying : flags.fIsVerifying = true := h.resolve_left hReal
          simp only [connectTransitions, hVerifying, Bool.not_true, Bool.false_and,
            Bool.false_eq_true, if_false]
          exact hEnd.1

end

end ReadOnly

section Disconnect

variable (env : Env) (fIsVerifying : Bool) (nHeight : Nat)

def undoTxCaches (caches : CSAppCache × OPoICache) (tx : CTransaction) : CSAppCache × OPoICache :=
  (if tx.isCSAppTx then processCSAppTransaction env tx nHeight true caches.1 else caches.1,
    if tx.isOPoITx && !fIsVerifying then processOPoITransaction env [] tx nHeight true caches.2
    else caches.2)

/-- The undo of one transaction; the caches are changed before the undo data is looked at. -/
def disconnectTxCaches (s : (CSAppCache × OPoICache) × DisconnectState)
    (e : CTransaction × Option CTxUndo) :
    Except (Unit × (CSAppCache × OPoICache)) ((CSAppCache × OPoICache) × DisconnectState) :=
  let caches := undoTxCaches env fIsVerifying nHeight s.1 e.1
  match disconnectTx env nHeight e s.2 with
  | some t => .ok (caches, t)
  | none => .error ((), caches)

/-- The two caches after `DisconnectBlock`. -/
def disconnectBlockCaches (block : CBlock) (undo : CBlockUndo) (view : CoinsView)
    (caches : CSAppCache × OPoICache) : CSAppCache × OPoICache :=
  if view.hashBlock ≠ block.hash then caches
  else if undo.vtxundo.length + 1 ≠ block.vtx.length then caches
  else
    match (block.vtx.zip (none :: undo.vtxundo.map some)).reverse.foldlM
        (disconnectTxCaches env fIsVerifying nHeight) (caches, { view }) with
    | .ok s => s.1
    | .error failure => failure.2

/-- The undo of one transaction on the view, as a step that may fail. -/
def disconnectStep (s : DisconnectState) (e : CTransaction × Option CTxUndo) :
    Except Unit DisconnectState :=
  match disconnectTx env nHeight e s with
  | some t => .ok t
  | none => .error ()

/-- The transactions that a call of `DisconnectBlock` undoes, the last one first. -/
def undoneTxs (block : CBlock) (undo : CBlockUndo) (view : CoinsView) : List CTransaction :=
  if view.hashBlock ≠ block.hash then []
  else if undo.vtxundo.length + 1 ≠ block.vtx.length then []
  else (Run.trace (disconnectStep env nHeight) { view }
    (block.vtx.zip (none :: undo.vtxundo.map some)).reverse).map fun e => e.2.1

variable {env fIsVerifying nHeight}

theorem disconnectTxCaches_eq :
    disconnectTxCaches env fIsVerifying nHeight =
      Run.withEffect (disconnectStep env nHeight) fun _ caches e =>
        undoTxCaches env fIsVerifying nHeight caches e.1 := by
  funext s e
  unfold disconnectTxCaches Run.withEffect disconnectStep
  cases disconnectTx env nHeight e s.2 with
  | none => rfl
  | some t => rfl

theorem disconnectBlockCaches_eq (block : CBlock) (undo : CBlockUndo) (view : CoinsView)
    (caches : CSAppCache × OPoICache) :
    disconnectBlockCaches env fIsVerifying nHeight block undo view caches =
      (undoneTxs env nHeight block undo view).foldl (undoTxCaches env fIsVerifying nHeight)
        caches := by
  unfold disconnectBlockCaches undoneTxs
  split
  · rfl
  · split
    · rfl
    · rw [disconnectTxCaches_eq, Run.foldlM_withEffect, List.foldl_map]
      split
      · rename_i hResult
        split at hResult
        · cases hResult
          rfl
        · cases hResult
      · rename_i hResult
        split at hResult
        · cases hResult
        · cases hResult
          rfl

theorem foldl_undoTxCaches_verifying (txs : List CTransaction) (apps : CSAppCache) (c : OPoICache) :
    txs.foldl (undoTxCaches env true nHeight) (apps, c) =
      (txs.foldl (fun apps tx => processCSAppTransaction env tx nHeight true apps) apps, c) := by
  induction txs generalizing apps with
  | nil => rfl
  | cons tx txs ih =>
    have hUndo : undoTxCaches env true nHeight (apps, c) tx =
        (processCSAppTransaction env tx nHeight true apps, c) := by
      unfold undoTxCaches processCSAppTransaction CTransaction.isCSAppTx
      by_cases hVersion : tx.nVersion = CSAPP_TX_VERSION
      · simp [hVersion]
      · simp [hVersion]
    rw [List.foldl_cons, hUndo, ih, List.foldl_cons]

end Disconnect

/-- A `ConnectBlock` that does not end in a connected block leaves the caches alone exactly when
    the CSApp records already say what the transactions that it reaches write, and a
    `DisconnectBlock` while the database is verified when there is nothing to undo. The OPoI
    cache stays the same, except that a failed real connect has the guard. -/
theorem caches_unchanged_iff (env : Env) (flags : ConnectFlags) (ctx : ConnectContext)
    (block : CBlock) (nHeight : Nat) (undo : CBlockUndo) (view : CoinsView) (apps : CSAppCache)
    (c : OPoICache) :
    (flags.fJustCheck = true ∨ flags.fIsVerifying = true ∨
        (∃ e, (connectBlockCaches env flags ctx block apps c).verdict = .error e) →
      ((connectBlockCaches env flags ctx block apps c).apps = apps ∧
          (flags.fJustCheck = true ∨ flags.fIsVerifying = true →
            (connectBlockCaches env flags ctx block apps c).cache = c) ↔
        AppsWritten env ctx.nHeight (startedApps env flags ctx block c) apps)) ∧
      (disconnectBlockCaches env true nHeight block undo view (apps, c) = (apps, c) ↔
        AppsUndone (undoneTxs env nHeight block undo view) apps) := by
  rw [← appsWritten_iff, ← appsUndone_iff env nHeight]
  constructor
  · intro _
    rw [connectBlockCaches_eq]
    exact ⟨And.left, fun hApps => ⟨hApps, connectBlock_cache_eq⟩⟩
  · rw [disconnectBlockCaches_eq, foldl_undoTxCaches_verifying, Prod.mk.injEq]
    exact ⟨And.left, fun hApps => ⟨hApps, rfl⟩⟩

/-- A REGISTER, an UPDATE (`nType` 2) or a STOP (`nType` 3) of an app. -/
def sampleCSApp (nType : Int) (id owner : String) (sigTime : Nat) (sig : Bytes) : CTransaction :=
  { nVersion := 7, nType := nType, csappDeploymentId := id, csappOwner := owner
    csappSpecJson := "spec", csappSig := sig, opoiSigTime := sigTime }

def sampleAppContext : ConnectContext := (NodeState.init sampleNet).context

def sampleAppBlock (txs : List CTransaction) : CBlock :=
  ⟨2, sampleCoinbase [("miner", 100)] 1 :: txs⟩

/-- Checking a block with an UPDATE of an unknown app changes nothing. -/
theorem caches_unchanged_of_unknown_app :
    startedApps sampleNet { fJustCheck := true } sampleAppContext
        (sampleAppBlock [sampleCSApp 2 "app" "alice" 2 []]) {} =
      [sampleCSApp 2 "app" "alice" 2 []] ∧
    (connectBlockCaches sampleNet { fJustCheck := true } sampleAppContext
      (sampleAppBlock [sampleCSApp 2 "app" "alice" 2 []]) {} {}).apps = {} := by
  have hStarted : startedApps sampleNet { fJustCheck := true } sampleAppContext
      (sampleAppBlock [sampleCSApp 2 "app" "alice" 2 []]) {} =
        [sampleCSApp 2 "app" "alice" 2 []] := by decide +kernel
  have hLeaves : AppsWritten sampleNet sampleAppContext.nHeight
      [sampleCSApp 2 "app" "alice" 2 []] {} := by
    intro tx hTx
    cases List.mem_singleton.mp hTx
    rfl
  exact ⟨hStarted, (((caches_unchanged_iff sampleNet { fJustCheck := true }
    sampleAppContext (sampleAppBlock [sampleCSApp 2 "app" "alice" 2 []]) 1 ⟨[], 1⟩
    sampleAppContext.view {} {}).1 (.inl rfl)).mpr (hStarted ▸ hLeaves)).1⟩

/-- A block with a REGISTER that is only checked, one that fails, and one that is disconnected
    while the database is verified change the CSApp cache. -/
theorem app_changed_by_check :
    ((connectBlockCaches sampleNet { fJustCheck := true } sampleAppContext
        (sampleAppBlock [sampleCSApp 1 "app" "alice" 2 []]) {} {}).verdict.isOk = true ∧
      (connectBlockCaches sampleNet { fJustCheck := true } sampleAppContext
        (sampleAppBlock [sampleCSApp 1 "app" "alice" 2 []]) {} {}).apps ≠ {}) ∧
    ((connectBlockCaches sampleNet {} sampleAppContext
        (sampleAppBlock [sampleCSApp 1 "app" "alice" 2 [],
          { vin := [⟨⟨7, 0⟩⟩], vout := [⟨1, []⟩] }]) {} {}).verdict.isOk = false ∧
      (connectBlockCaches sampleNet {} sampleAppContext
        (sampleAppBlock [sampleCSApp 1 "app" "alice" 2 [],
          { vin := [⟨⟨7, 0⟩⟩], vout := [⟨1, []⟩] }]) {} {}).apps ≠ {}) ∧
    (disconnectBlockCaches sampleNet true 1
      (sampleAppBlock [sampleCSApp 1 "app" "alice" 2 []]) ⟨[[]], 1⟩
      { sampleAppContext.view with hashBlock := 2 } ((CSAppCache.addApp {} (registeredApp sampleNet
        (sampleCSApp 1 "app" "alice" 2 []) 1)), {})).1 = {} := by
  decide +kernel

end CloudService
