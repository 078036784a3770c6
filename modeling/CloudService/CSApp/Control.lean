/-
  Who controls an app. Neither the signature of a CSApp transaction nor the owner of the
  record is looked at.
-/

import CloudService.CSApp.Caches

namespace CloudService

/-- The message that the wallet signs (`registercsapp`, `updatecsapp`, `stopcsapp`). -/
def csappMessage (tx : CTransaction) : String :=
  if tx.nType = CSAPP_REGISTER_TX_TYPE then
    tx.csappDeploymentId ++ tx.csappOwner ++ tx.csappSpecJson ++ tx.csappIp ++
      toString tx.csappLockedAmount
  else if tx.nType = CSAPP_UPDATE_TX_TYPE then
    tx.csappDeploymentId ++ tx.csappOwner ++ tx.csappSpecJson ++ "update"
  else tx.csappDeploymentId ++ tx.csappOwner ++ "stop"

def CSAppSignedBy (env : Env) (owner : String) (tx : CTransaction) : Prop :=
  (env.verifyOPoISig owner (csappMessage tx) tx.csappSig).isSome = true
deriving Decidable

def stepApps (env : Env) : Machine → CSAppCache → Input → CSAppCache
  | .busy node _ _ _, apps, .tx tx => connectTxApps env node.nextHeight apps tx
  | _, apps, _ => apps

/-- A step of the node with its effect on `g_csappCache`, also when the step fails. -/
def appsStep (env : Env) : CSAppCache × Machine → Input →
    Except (BlockReject × CSAppCache) (CSAppCache × Machine) :=
  Run.withEffect (smallStep env) (stepApps env)

instance {env : Env} {nHeight : Nat} {txs : List CTransaction} {id : String} {d : CSAppData} :
    Decidable (d.Written env nHeight txs id) :=
  decidable_of_iff _ rewritten_eq_self_iff

/-- The transaction carries the owner of the record and a valid signature, or the record already
    says what it writes. -/
def AuthorisedFor (env : Env) (nHeight : Nat) (tx : CTransaction) (record : CSAppData) : Prop :=
  (tx.csappOwner = record.owner ∧ CSAppSignedBy env record.owner tx) ∨
    record.Written env nHeight [tx] tx.csappDeploymentId
deriving Decidable

/-- A CSApp transaction is authorised for the record of the deployment that it names. -/
def appsAuthorised (env : Env) : CSAppCache × Machine → Input → Prop
  | (apps, .busy node _ _ _), .tx tx =>
    tx.isCSAppTx = true → ∀ record ∈ apps.mapApps[tx.csappDeploymentId]?,
      AuthorisedFor env node.nextHeight tx record
  | _, _ => True

instance {env : Env} (s : CSAppCache × Machine) (input : Input) :
    Decidable (appsAuthorised env s input) :=
  match s, input with
  | (apps, .busy node _ _ _), .tx tx =>
    inferInstanceAs (Decidable (tx.isCSAppTx = true →
      ∀ record ∈ apps.mapApps[tx.csappDeploymentId]?, AuthorisedFor env node.nextHeight tx record))
  | (_, .busy _ _ _ _), .start _ | (_, .busy _ _ _ _), .finish | (_, .idle _), _ =>
    inferInstanceAs (Decidable True)

section Record

variable {env : Env} {nHeight : Nat} {tx : CTransaction} {record : CSAppData}

theorem processedRecord_some (env : Env) (nHeight : Nat) (tx : CTransaction) (record : CSAppData) :
    processedRecord env tx nHeight false (some record) =
      some (record.rewritten env nHeight [tx] tx.csappDeploymentId) := by
  have hSplit : processedRecords env nHeight false [tx] tx.csappDeploymentId (some record) =
      processedRecord env tx nHeight false (some record) := processedRecords_split [] [] rfl
  exact hSplit.symm.trans (processedRecords_some env nHeight [tx] _ record)

theorem rewritten_owner (env : Env) (nHeight : Nat) (txs : List CTransaction) (id : String)
    (record : CSAppData) :
    (record.rewritten env nHeight txs id).owner = record.owner ∨
      ∃ tx ∈ txs, (record.rewritten env nHeight txs id).owner = tx.csappOwner := by
  simp only [CSAppData.rewritten]
  cases hLast : lastNaming txs id (·.isApp CSAPP_REGISTER_TX_TYPE) with
  | none => exact .inl rfl
  | some tx => exact .inr ⟨tx, List.mem_of_mem_filter (List.mem_of_getLast? hLast), rfl⟩

theorem AuthorisedFor.keeps_owner (h : AuthorisedFor env nHeight tx record) :
    ∃ record', processedRecord env tx nHeight false (some record) = some record' ∧
      record'.owner = record.owner ∧
      (record' ≠ record → tx.csappOwner = record.owner ∧ CSAppSignedBy env record.owner tx) := by
  refine ⟨_, processedRecord_some env nHeight tx record, ?_⟩
  rcases h with hOwn | hWritten
  · refine ⟨(rewritten_owner env nHeight [tx] _ record).elim id ?_, fun _ => hOwn⟩
    rintro ⟨_, hTx, hOwner⟩
    rw [hOwner, List.mem_singleton.mp hTx, hOwn.1]
  · rw [rewritten_eq_self_iff.mpr hWritten]
    exact ⟨rfl, fun hNe => absurd rfl hNe⟩

end Record

/-- The input is a CSApp transaction that the owner of the record has signed. -/
def ChangedByOwner (env : Env) (input : Input) (id : String) (record : CSAppData) : Prop :=
  ∃ tx, input = .tx tx ∧ tx.isCSAppTx = true ∧ tx.csappDeploymentId = id ∧
    tx.csappOwner = record.owner ∧ CSAppSignedBy env record.owner tx

theorem connectTxApps_record {env : Env} {nHeight : Nat} {apps : CSAppCache} {tx : CTransaction}
    {id : String} {record : CSAppData} (hRecord : apps.mapApps[id]? = some record)
    (h : tx.isCSAppTx = true → ∀ record ∈ apps.mapApps[tx.csappDeploymentId]?,
      AuthorisedFor env nHeight tx record) :
    ∃ record', (connectTxApps env nHeight apps tx).mapApps[id]? = some record' ∧
      record'.owner = record.owner ∧
      (record' ≠ record → ChangedByOwner env (.tx tx) id record) := by
  have hSame : record ≠ record → ChangedByOwner env (.tx tx) id record := fun hNe => absurd rfl hNe
  unfold connectTxApps
  by_cases hApp : (!tx.isCoinBase && tx.isCSAppTx) = true
  · rw [if_pos hApp, getElem?_processCSAppTransaction]
    by_cases hName : tx.csappDeploymentId = id
    · have hCSApp := (Bool.and_eq_true_iff.mp hApp).2
      obtain ⟨record', hAfter, hOwner, hChanged⟩ :=
        (h hCSApp record (hName ▸ hRecord)).keeps_owner
      rw [if_pos hName, hRecord]
      refine ⟨record', hAfter, hOwner, fun hNe => ?_⟩
      obtain ⟨hTxOwner, hSigned⟩ := hChanged hNe
      exact ⟨tx, rfl, hCSApp, hName, hTxOwner, hSigned⟩
    · rw [if_neg hName]
      exact ⟨record, hRecord, rfl, hSame⟩
  · rw [if_neg hApp]
    exact ⟨record, hRecord, rfl, hSame⟩

theorem appsStep_record {env : Env} {s t : CSAppCache × Machine} {input : Input} {id : String}
    {record : CSAppData} (hStep : appsStep env s input = .ok t) (hOk : appsAuthorised env s input)
    (hRecord : s.1.mapApps[id]? = some record) :
    ∃ record', t.1.mapApps[id]? = some record' ∧ record'.owner = record.owner ∧
      (record' ≠ record → ChangedByOwner env input id record) := by
  have hApps : t.1 = stepApps env s.2 s.1 input := by
    unfold appsStep Run.withEffect at hStep
    split at hStep
    · cases hStep
      rfl
    · cases hStep
  rw [hApps]
  obtain ⟨apps, m⟩ := s
  match m, input, hOk with
  | .idle _, _, _ => exact ⟨record, hRecord, rfl, fun hNe => absurd rfl hNe⟩
  | .busy _ _ _ _, .start _, _ => exact ⟨record, hRecord, rfl, fun hNe => absurd rfl hNe⟩
  | .busy _ _ _ _, .finish, _ => exact ⟨record, hRecord, rfl, fun hNe => absurd rfl hNe⟩
  | .busy _ _ _ _, .tx _, hOk => exact connectTxApps_record hRecord hOk

/-- Only its owner controls an app: in every run whose CSApp transactions are authorised for
    the records that they name, a registered app stays with its owner, and a step that changes
    it is a CSApp transaction that names it, carries its owner and has a valid signature. -/
theorem app_changed_by_owner {env : Env} {inputs : List Input} {s : CSAppCache × Machine}
    (h : Run.Steps (appsStep env) (appsAuthorised env) ({}, .idle (.init env)) inputs s) :
    ∀ e ∈ Run.trace (appsStep env) ({}, .idle (.init env)) inputs, ∀ id record,
      e.1.1.mapApps[id]? = some record →
      ∃ t record', appsStep env e.1 e.2 = .ok t ∧ t.1.mapApps[id]? = some record' ∧
        record'.owner = record.owner ∧
        (record' ≠ record → ChangedByOwner env e.2 id record) := by
  intro e hMem id record hRecord
  obtain ⟨_, _, t, _, _, hStep, _⟩ := h.split_trace e hMem
  obtain ⟨record', hAfter, hOwner, hChanged⟩ :=
    appsStep_record hStep (h.of_mem_trace e hMem) hRecord
  exact ⟨t, record', hStep, hAfter, hOwner, hChanged⟩

def sampleAppInputs (stop : CTransaction) : List Input :=
  blockInputs (sampleAppBlock [sampleCSApp 1 "app" "alice" 2 (strBytes "alice")]) ++
    [.start ⟨3, [sampleCoinbase [("miner", 100)] 3, stop]⟩, .tx (sampleCoinbase [("miner", 100)] 3)]

theorem app_stopped_by_owner :
    ∃ s, Run.Steps (appsStep sampleNet) (appsAuthorised sampleNet)
        ({}, .idle (.init sampleNet))
        (sampleAppInputs (sampleCSApp 3 "app" "alice" 4 (strBytes "alice")) ++
          [.tx (sampleCSApp 3 "app" "alice" 4 (strBytes "alice"))]) s ∧
      (s.1.mapApps["app"]?.map CSAppData.status) = some .stopped ∧
      ∀ e ∈ Run.trace (appsStep sampleNet)
          ({}, .idle (.init sampleNet))
          (sampleAppInputs (sampleCSApp 3 "app" "alice" 4 (strBytes "alice")) ++
            [.tx (sampleCSApp 3 "app" "alice" 4 (strBytes "alice"))]),
        ∀ id record, e.1.1.mapApps[id]? = some record →
        ∃ t record', appsStep sampleNet e.1 e.2 = .ok t ∧
          t.1.mapApps[id]? = some record' ∧ record'.owner = record.owner ∧
          (record' ≠ record → ChangedByOwner sampleNet e.2 id record) := by
  exact Run.exists_steps_imp (.other, {}) (fun s =>
      (s.1.mapApps["app"]?.map CSAppData.status) = some .stopped) (by decide +kernel)
    fun _ hRun hStopped => ⟨hStopped, app_changed_by_owner hRun⟩

/-- Somebody else stops the app without a signature, and the block is accepted. -/
theorem app_stopped_by_stranger :
    ∃ s t u record record',
      Run.Steps (appsStep sampleNet) (fun _ _ => True)
        ({}, .idle (.init sampleNet))
        (sampleAppInputs (sampleCSApp 3 "app" "mallory" 4 [])) s ∧
      appsStep sampleNet s (.tx (sampleCSApp 3 "app" "mallory" 4 [])) = .ok t ∧
      appsStep sampleNet t .finish = .ok u ∧
      s.1.mapApps["app"]? = some record ∧ record.owner = "alice" ∧ record.status = .running ∧
      t.1.mapApps["app"]? = some record' ∧ record'.status = .stopped ∧
      ¬ ChangedByOwner sampleNet (.tx (sampleCSApp 3 "app" "mallory" 4 [])) "app"
        record := by
  refine ⟨_, _, _, _, _, Run.steps_value (.other, {}) (by decide +kernel),
    Run.eq_value (by decide +kernel), Run.eq_value (by decide +kernel),
    Run.eq_valueOf (by decide +kernel), by decide +kernel, by decide +kernel,
    Run.eq_valueOf (by decide +kernel), by decide +kernel, ?_⟩
  rintro ⟨tx, hTx, -, -, hTxOwner, -⟩
  cases hTx
  exact absurd hTxOwner (by decide +kernel)

/-! ## The replay -/

/-- `RebuildCSAppCache`. -/
def rebuildCSAppCache (env : Env) (chain : List CBlock) : CSAppCache :=
  chain.zipIdx.foldl (fun apps entry => entry.1.vtx.foldl (fun apps tx =>
    if tx.isCSAppTx then processCSAppTransaction env tx entry.2 false apps else apps) apps) {}

/-- With the rest of the block processed, the apps are those of the replay. -/
def Replayed (env : Env) (apps : CSAppCache) : Machine → Prop
  | .idle node => apps = rebuildCSAppCache env node.chain
  | .busy node block rest _ => rest.foldl (connectTxApps env node.nextHeight) apps =
      rebuildCSAppCache env (node.chain ++ [block])

theorem Replayed.step {env : Env} {s t : CSAppCache × Machine} {input : Input}
    (h : Replayed env s.1 s.2) (hStep : appsStep env s input = .ok t) : Replayed env t.1 t.2 := by
  obtain ⟨apps, m⟩ := s
  unfold appsStep Run.withEffect at hStep
  split at hStep
  · rename_i hSmall
    cases hStep
    obtain ⟨node, block, rfl, rfl, _, hBlock, rfl⟩ | ⟨_, _, _, _, _, _, rfl, rfl, _, rfl⟩ |
      ⟨_, _, _, rfl, rfl, _, rfl⟩ := smallStep_cases hSmall
    · have hApps : apps = rebuildCSAppCache env node.chain := h
      simp only [Replayed, stepApps, hApps, rebuildCSAppCache, List.zipIdx_append,
        List.foldl_append]
      refine List.foldl_ext _ _ _ fun apps tx hMem => ?_
      -- a CSApp transaction has no inputs, so it is not the coinbase
      have hVin : tx.isCSAppTx = true → tx.vin = [] := fun hApp =>
        ((hBlock.valid.txs tx hMem).inputless_empty (by simp [CTransaction.isInputless, hApp])).1
      grind [connectTxApps, CTransaction.isCoinBase, NodeState.nextHeight]
    · exact h
    · exact h
  · cases hStep

/-- On every run the apps are those of a replay of the active chain. -/
theorem replayed_of_run {env : Env} {inputs : List Input} {s : CSAppCache × Machine}
    (hGenesis : ∀ tx ∈ env.genesis.vtx, tx.isCSAppTx = false)
    (hRun : Run.Steps (appsStep env) (fun _ _ => True) ({}, .idle (.init env)) inputs s) :
    Replayed env s.1 s.2 := by
  refine Run.Steps.invariant (I := fun s => Replayed env s.1 s.2)
    (fun _ _ _ h _ hStep => h.step hStep) hRun ?_
  change ({} : CSAppCache) = env.genesis.vtx.foldl _ _
  refine List.foldlRecOn (motive := Eq _) _ _ rfl fun _ h tx hMem => ?_
  rw [hGenesis tx hMem]
  exact h

theorem replayed_of_register : ∃ s,
    Run.Steps (appsStep sampleNet) (fun _ _ => True)
      ({}, .idle (.init sampleNet))
      (blockInputs (sampleAppBlock [sampleCSApp 1 "app" "alice" 2 []])) s ∧
    s.1.mapApps.size = 1 ∧ Replayed sampleNet s.1 s.2 :=
  Run.exists_steps_imp (.other, {}) (fun s => s.1.mapApps.size = 1) (by decide +kernel)
    fun _ hRun hSize => ⟨hSize, replayed_of_run (by decide +kernel) hRun⟩

end CloudService
