/-
  The registered apps (`csapp.h`, `csapp.cpp`). A CSApp transaction only touches the record of
  the deployment that it names.
-/

import CloudService.Consensus.Params
import Mathlib.Data.List.Infix

namespace CloudService

open List

/-- `CSAPP_STATUS_*`. -/
inductive CSAppStatus where
  | running
  | stopped
  | expired
deriving Repr, DecidableEq

structure CSAppData where
  deploymentId : String
  owner : String
  specJson : String
  ip : String
  registeredAt : Nat
  updatedAt : Nat
  status : CSAppStatus
  lockedCscoin : CAmount
  txHash : Uint256
  lastTxHash : Uint256
deriving Repr, DecidableEq

/-- `CSAppCache`: the records by deployment. -/
structure CSAppCache where
  mapApps : Std.ExtTreeMap String CSAppData := ∅
deriving DecidableEq

/-- `std::string::find`, for whether the text occurs. -/
def containsText (s text : String) : Bool := decide (text.toList <:+: s.toList)

/-- The marks in the specification of an app that claim it for a new tenant. -/
def resumes (specJson : String) : Bool :=
  containsText specJson "\"csapp_resume\":true" || containsText specJson "\"csapp_resume\": true"

namespace CSAppData

/-- The change of `UpdateApp` to a record. -/
def update (d : CSAppData) (specJson : String) (blockHeight : Nat) (txHash : Uint256) : CSAppData :=
  { d with
    specJson := specJson
    updatedAt := blockHeight
    lastTxHash := txHash
    status := if resumes specJson then .running else d.status }

/-- The change of `StopApp` to a record. -/
def stop (d : CSAppData) (blockHeight : Nat) (txHash : Uint256) (expired : Bool) : CSAppData :=
  { d with
    status := if expired then .expired else .stopped
    updatedAt := blockHeight
    lastTxHash := txHash }

end CSAppData

namespace CSAppCache

variable (apps : CSAppCache)

def addApp (data : CSAppData) : CSAppCache :=
  { mapApps := apps.mapApps.insert data.deploymentId data }

def updateApp (deploymentId specJson : String) (blockHeight : Nat) (txHash : Uint256) :
    CSAppCache :=
  { mapApps := apps.mapApps.modify deploymentId (·.update specJson blockHeight txHash) }

def stopApp (deploymentId : String) (blockHeight : Nat) (txHash : Uint256) (expired : Bool) :
    CSAppCache :=
  { mapApps := apps.mapApps.modify deploymentId (·.stop blockHeight txHash expired) }

end CSAppCache

section Process

variable (env : Env) (tx : CTransaction) (blockHeight : Nat)

def registeredApp : CSAppData where
  deploymentId := tx.csappDeploymentId
  owner := tx.csappOwner
  specJson := tx.csappSpecJson
  ip := tx.csappIp
  registeredAt := blockHeight
  updatedAt := blockHeight
  status := .running
  lockedCscoin := tx.csappLockedAmount
  txHash := env.getHash tx
  lastTxHash := env.getHash tx

/-- The undo of an UPDATE or STOP does not know the old record and marks the app as running. -/
def processCSAppTransaction (fUndo : Bool) (apps : CSAppCache) : CSAppCache :=
  if tx.nVersion ≠ CSAPP_TX_VERSION then apps
  else if fUndo then
    if tx.nType = CSAPP_REGISTER_TX_TYPE then
      { mapApps := apps.mapApps.erase tx.csappDeploymentId }
    else if tx.nType = CSAPP_UPDATE_TX_TYPE ∨ tx.nType = CSAPP_STOP_TX_TYPE then
      { mapApps := apps.mapApps.modify tx.csappDeploymentId ({ · with status := .running }) }
    else apps
  else if tx.nType = CSAPP_REGISTER_TX_TYPE then apps.addApp (registeredApp env tx blockHeight)
  else if tx.nType = CSAPP_UPDATE_TX_TYPE then
    apps.updateApp tx.csappDeploymentId tx.csappSpecJson blockHeight (env.getHash tx)
  else if tx.nType = CSAPP_STOP_TX_TYPE then
    apps.stopApp tx.csappDeploymentId blockHeight (env.getHash tx) false
  else apps

/-- What `ProcessCSAppTransaction` does to the record of the deployment that the transaction
    names. -/
def processedRecord (fUndo : Bool) (record : Option CSAppData) : Option CSAppData :=
  if tx.nVersion ≠ CSAPP_TX_VERSION then record
  else if fUndo then
    if tx.nType = CSAPP_REGISTER_TX_TYPE then none
    else if tx.nType = CSAPP_UPDATE_TX_TYPE ∨ tx.nType = CSAPP_STOP_TX_TYPE then
      record.map ({ · with status := .running })
    else record
  else if tx.nType = CSAPP_REGISTER_TX_TYPE then some (registeredApp env tx blockHeight)
  else if tx.nType = CSAPP_UPDATE_TX_TYPE then
    record.map (·.update tx.csappSpecJson blockHeight (env.getHash tx))
  else if tx.nType = CSAPP_STOP_TX_TYPE then
    record.map (·.stop blockHeight (env.getHash tx) false)
  else record

theorem getElem?_processCSAppTransaction (fUndo : Bool) (apps : CSAppCache) (id : String) :
    (processCSAppTransaction env tx blockHeight fUndo apps).mapApps[id]? =
      if tx.csappDeploymentId = id then
        processedRecord env tx blockHeight fUndo apps.mapApps[id]?
      else apps.mapApps[id]? := by
  unfold processCSAppTransaction processedRecord CSAppCache.addApp CSAppCache.updateApp
    CSAppCache.stopApp
  have hName : (registeredApp env tx blockHeight).deploymentId = tx.csappDeploymentId := rfl
  by_cases hVersion : tx.nVersion ≠ CSAPP_TX_VERSION
  · simp [hVersion]
  · cases fUndo with
    | true =>
      simp only [hVersion, if_false, if_true]
      split
      · simp
      · split
        · simp
        · simp
    | false =>
      simp only [hVersion, Bool.false_eq_true, if_false]
      split
      · simp [hName]
      · split
        · simp
        · split
          · simp
          · simp

end Process

/-! ## Lists of transactions -/

namespace CTransaction

/-- A CSApp transaction of one kind. -/
def isApp (tx : CTransaction) (nType : Int) : Bool :=
  tx.nVersion == CSAPP_TX_VERSION && tx.nType == nType

/-- A transaction that `ProcessCSAppTransaction` acts on. -/
def touchesApp (tx : CTransaction) : Bool :=
  tx.isApp CSAPP_REGISTER_TX_TYPE || tx.isApp CSAPP_UPDATE_TX_TYPE || tx.isApp CSAPP_STOP_TX_TYPE

def writesSpec (tx : CTransaction) : Bool :=
  tx.isApp CSAPP_REGISTER_TX_TYPE || tx.isApp CSAPP_UPDATE_TX_TYPE

/-- A REGISTER, a STOP, or an UPDATE that claims the app for a new tenant. -/
def writesStatus (tx : CTransaction) : Bool :=
  tx.isApp CSAPP_REGISTER_TX_TYPE || tx.isApp CSAPP_STOP_TX_TYPE ||
    (tx.isApp CSAPP_UPDATE_TX_TYPE && resumes tx.csappSpecJson)

end CTransaction

/-- The last transaction of a kind that names a deployment. -/
def lastNaming (txs : List CTransaction) (id : String) (kind : CTransaction → Bool) :
    Option CTransaction :=
  (txs.filter fun tx => kind tx && tx.csappDeploymentId == id).getLast?

/-- The record of a deployment already says what the transactions write: the last REGISTER its
    terms, the last REGISTER or UPDATE its specification, the last REGISTER, STOP or resuming
    UPDATE its status, and the last one of all its height and hash. -/
structure CSAppData.Written (env : Env) (blockHeight : Nat) (txs : List CTransaction) (id : String)
    (d : CSAppData) : Prop where
  terms : ∀ tx ∈ lastNaming txs id (·.isApp CSAPP_REGISTER_TX_TYPE),
    (tx.csappDeploymentId, tx.csappOwner, tx.csappIp, blockHeight, tx.csappLockedAmount,
      env.getHash tx) = (d.deploymentId, d.owner, d.ip, d.registeredAt, d.lockedCscoin, d.txHash)
  spec : ∀ tx ∈ lastNaming txs id (·.writesSpec), tx.csappSpecJson = d.specJson
  status : ∀ tx ∈ lastNaming txs id (·.writesStatus),
    (if tx.isApp CSAPP_STOP_TX_TYPE then .stopped else .running) = d.status
  latest : ∀ tx ∈ lastNaming txs id (·.touchesApp), (blockHeight, env.getHash tx) =
    (d.updatedAt, d.lastTxHash)

/-- The transactions write nothing new: no REGISTER names an unknown deployment, and the record
    of a known one is as they write it. -/
def AppsWritten (env : Env) (blockHeight : Nat) (txs : List CTransaction) (apps : CSAppCache) :
    Prop :=
  ∀ tx ∈ txs, match apps.mapApps[tx.csappDeploymentId]? with
    | none => tx.isApp CSAPP_REGISTER_TX_TYPE = false
    | some d => d.Written env blockHeight txs tx.csappDeploymentId

/-- The undo finds no record of a registered app, and running apps for the others. -/
def AppsUndone (txs : List CTransaction) (apps : CSAppCache) : Prop :=
  ∀ tx ∈ txs, ∀ d ∈ apps.mapApps[tx.csappDeploymentId]?,
    tx.isApp CSAPP_REGISTER_TX_TYPE = false ∧ (tx.touchesApp = true → d.status = .running)

section Lists

variable {env : Env} {blockHeight : Nat} {txs : List CTransaction} {tx : CTransaction}
  {id : String} {d : CSAppData} {record : Option CSAppData} {fUndo : Bool} {apps : CSAppCache}

/-- The record of a deployment after transactions that name it. -/
def processedRecords (env : Env) (blockHeight : Nat) (fUndo : Bool) (txs : List CTransaction)
    (id : String) (record : Option CSAppData) : Option CSAppData :=
  (txs.filter fun tx => tx.csappDeploymentId == id).foldl
    (fun record tx => processedRecord env tx blockHeight fUndo record) record

theorem getElem?_foldl_processCSAppTransaction (env : Env) (blockHeight : Nat) (fUndo : Bool)
    (txs : List CTransaction) (apps : CSAppCache) (id : String) :
    (txs.foldl (fun apps tx => processCSAppTransaction env tx blockHeight fUndo apps)
        apps).mapApps[id]? = processedRecords env blockHeight fUndo txs id apps.mapApps[id]? := by
  induction txs generalizing apps with
  | nil => rfl
  | cons tx txs ih =>
    rw [foldl_cons, ih, getElem?_processCSAppTransaction]
    unfold processedRecords
    by_cases hName : tx.csappDeploymentId = id
    · rw [if_pos hName, filter_cons_of_pos (by simpa using hName), foldl_cons]
    · rw [if_neg hName, filter_cons_of_neg (by simpa using hName)]

/-- Deployments that no transaction names keep their record. -/
theorem foldl_processCSAppTransaction_eq_self_iff :
    txs.foldl (fun apps tx => processCSAppTransaction env tx blockHeight fUndo apps) apps = apps ↔
      ∀ tx ∈ txs, processedRecords env blockHeight fUndo txs tx.csappDeploymentId
        apps.mapApps[tx.csappDeploymentId]? = apps.mapApps[tx.csappDeploymentId]? := by
  simp only [← getElem?_foldl_processCSAppTransaction]
  constructor
  · intro hSame tx _
    rw [hSame]
  · intro hSame
    refine congrArg CSAppCache.mk (Std.ExtTreeMap.ext_getElem? fun id => ?_)
    by_cases hNamed : ∃ tx ∈ txs, tx.csappDeploymentId = id
    · obtain ⟨tx, hTx, rfl⟩ := hNamed
      exact hSame tx hTx
    · rw [getElem?_foldl_processCSAppTransaction, processedRecords, filter_eq_nil_iff.mpr]
      · rfl
      · exact fun tx hTx hName => hNamed ⟨tx, hTx, beq_iff_eq.mp hName⟩

theorem processedRecords_split (before after : List CTransaction)
    (hName : tx.csappDeploymentId = id) :
    processedRecords env blockHeight fUndo (before ++ tx :: after) id record =
      processedRecords env blockHeight fUndo after id (processedRecord env tx blockHeight fUndo
        (processedRecords env blockHeight fUndo before id record)) := by
  have hFilter : (tx :: after).filter (fun tx => tx.csappDeploymentId == id) =
      tx :: after.filter fun tx => tx.csappDeploymentId == id :=
    filter_cons_of_pos (beq_iff_eq.mpr hName)
  simp only [processedRecords, filter_append, foldl_append, hFilter, foldl_cons]

/-! ### Forward -/

theorem lastNaming_append (kind : CTransaction → Bool) :
    lastNaming (txs ++ [tx]) id kind =
      if kind tx && tx.csappDeploymentId == id then some tx else lastNaming txs id kind := by
  rw [lastNaming, filter_append, filter_cons, filter_nil]
  split
  · exact getLast?_concat
  · rw [append_nil, lastNaming]

/-- What the transactions leave of a record. -/
def CSAppData.rewritten (env : Env) (blockHeight : Nat) (txs : List CTransaction) (id : String)
    (d : CSAppData) : CSAppData :=
  let register := lastNaming txs id (·.isApp CSAPP_REGISTER_TX_TYPE)
  let latest := lastNaming txs id (·.touchesApp)
  { deploymentId := (register.map (·.csappDeploymentId)).getD d.deploymentId
    owner := (register.map (·.csappOwner)).getD d.owner
    specJson := ((lastNaming txs id (·.writesSpec)).map (·.csappSpecJson)).getD d.specJson
    ip := (register.map (·.csappIp)).getD d.ip
    registeredAt := (register.map fun _ => blockHeight).getD d.registeredAt
    updatedAt := (latest.map fun _ => blockHeight).getD d.updatedAt
    status := ((lastNaming txs id (·.writesStatus)).map fun tx =>
      if tx.isApp CSAPP_STOP_TX_TYPE then .stopped else .running).getD d.status
    lockedCscoin := (register.map (·.csappLockedAmount)).getD d.lockedCscoin
    txHash := (register.map env.getHash).getD d.txHash
    lastTxHash := (latest.map env.getHash).getD d.lastTxHash }

theorem processedRecords_some (env : Env) (blockHeight : Nat) (txs : List CTransaction)
    (id : String) (d : CSAppData) :
    processedRecords env blockHeight false txs id (some d) =
      some (d.rewritten env blockHeight txs id) := by
  -- The last transaction decides over the fields that it writes.
  induction txs using reverseRecOn with
  | nil => rfl
  | append_singleton txs tx ih =>
    by_cases hName : tx.csappDeploymentId = id
    · rw [processedRecords_split txs [] hName, ih]
      simp only [processedRecords, filter_nil, foldl_nil, CSAppData.rewritten,
        lastNaming_append, hName, beq_self_eq_true, Bool.and_true]
      unfold processedRecord
      by_cases hVersion : tx.nVersion = CSAPP_TX_VERSION
      · simp only [hVersion, ne_eq, not_true_eq_false, Bool.false_eq_true, if_false,
          CTransaction.touchesApp, CTransaction.writesSpec, CTransaction.writesStatus,
          CTransaction.isApp, beq_self_eq_true, Bool.true_and, beq_iff_eq]
        split
        · rename_i hRegister
          simp [hRegister, registeredApp, hName, CSAPP_REGISTER_TX_TYPE, CSAPP_STOP_TX_TYPE]
        · rename_i hRegister
          split
          · rename_i hUpdate
            cases hResumes : resumes tx.csappSpecJson with
            | false => simp [hUpdate, hResumes, CSAppData.update, CSAPP_REGISTER_TX_TYPE,
                CSAPP_UPDATE_TX_TYPE, CSAPP_STOP_TX_TYPE]
            | true => simp [hVersion, hUpdate, hResumes, CSAppData.update, CSAPP_REGISTER_TX_TYPE,
                CSAPP_UPDATE_TX_TYPE, CSAPP_STOP_TX_TYPE]
          · rename_i hUpdate
            split
            · rename_i hStop
              simp [hVersion, hStop, CSAppData.stop, CSAPP_REGISTER_TX_TYPE,
                CSAPP_UPDATE_TX_TYPE, CSAPP_STOP_TX_TYPE]
            · rename_i hStop
              simp [hRegister, hUpdate, hStop]
      · simp [hVersion, CTransaction.touchesApp, CTransaction.writesSpec, CTransaction.writesStatus,
          CTransaction.isApp]
    · have hOther : (tx.csappDeploymentId == id) = false := beq_eq_false_iff_ne.mpr hName
      simp only [CSAppData.rewritten, lastNaming_append, hOther, Bool.and_false,
        Bool.false_eq_true, if_false]
      rw [← CSAppData.rewritten.eq_def, ← ih, processedRecords, filter_append,
        filter_singleton, hOther]
      simp [processedRecords]

theorem getD_map_eq_iff {α β : Type} {o : Option α} {f : α → β} {b : β} :
    (o.map f).getD b = b ↔ ∀ a ∈ o, f a = b := by
  cases o with
  | none => simp
  | some a => simp

theorem rewritten_eq_self_iff :
    d.rewritten env blockHeight txs id = d ↔ d.Written env blockHeight txs id := by
  obtain ⟨deploymentId, owner, specJson, ip, registeredAt, updatedAt, status, locked, txHash,
    lastTxHash⟩ := d
  simp only [CSAppData.rewritten, CSAppData.mk.injEq, getD_map_eq_iff]
  constructor
  · rintro ⟨hId, hOwner, hSpec, hIp, hAt, hUpdated, hStatus, hLocked, hHash, hLast⟩
    exact ⟨fun tx hTx => by
        simp only [hId tx hTx, hOwner tx hTx, hIp tx hTx, hAt tx hTx, hLocked tx hTx, hHash tx hTx],
      hSpec, hStatus, fun tx hTx => by simp only [hUpdated tx hTx, hLast tx hTx]⟩
  · rintro ⟨hTerms, hSpec, hStatus, hLatest⟩
    simp only [Prod.mk.injEq] at hTerms hLatest
    exact ⟨fun tx h => (hTerms tx h).1, fun tx h => (hTerms tx h).2.1, hSpec,
      fun tx h => (hTerms tx h).2.2.1, fun tx h => (hTerms tx h).2.2.2.1,
      fun tx h => (hLatest tx h).1, hStatus, fun tx h => (hTerms tx h).2.2.2.2.1,
      fun tx h => (hTerms tx h).2.2.2.2.2, fun tx h => (hLatest tx h).2⟩

theorem processedRecords_none_iff :
    processedRecords env blockHeight false txs id none = none ↔
      ∀ tx ∈ txs, tx.csappDeploymentId = id → tx.isApp CSAPP_REGISTER_TX_TYPE = false := by
  constructor
  · intro hNone tx hTx hName
    by_contra hRegister
    simp only [Bool.not_eq_false, CTransaction.isApp, Bool.and_eq_true, beq_iff_eq] at hRegister
    obtain ⟨before, after, rfl⟩ := append_of_mem hTx
    rw [processedRecords_split before after hName, processedRecord,
      if_neg (not_not.mpr hRegister.1),
      if_neg Bool.false_ne_true, if_pos hRegister.2, processedRecords_some] at hNone
    cases hNone
  · intro hOther
    refine foldlRecOn (motive := fun record => record = none) _ _ rfl fun record h tx hTx => ?_
    obtain ⟨hMem, hName⟩ := mem_filter.mp hTx
    have hNot := hOther tx hMem (beq_iff_eq.mp hName)
    simp only [CTransaction.isApp, Bool.and_eq_false_iff, beq_eq_false_iff_ne] at hNot
    subst h
    unfold processedRecord
    split
    · rfl
    · rename_i hVersion
      simp [hNot.resolve_left hVersion]

theorem appsWritten_iff :
    txs.foldl (fun apps tx => processCSAppTransaction env tx blockHeight false apps) apps = apps ↔
      AppsWritten env blockHeight txs apps := by
  rw [foldl_processCSAppTransaction_eq_self_iff]
  unfold AppsWritten
  constructor
  · intro h tx hTx
    have hSame := h tx hTx
    split
    · rename_i hNone
      rw [hNone] at hSame
      exact processedRecords_none_iff.mp hSame tx hTx rfl
    · rename_i d hSome
      rw [hSome, processedRecords_some, Option.some.injEq] at hSame
      exact rewritten_eq_self_iff.mp hSame
  · intro h tx hTx
    cases hGet : apps.mapApps[tx.csappDeploymentId]? with
    | none =>
      refine processedRecords_none_iff.mpr fun tx' hTx' hName => ?_
      have hWritten := h tx' hTx'
      rw [hName, hGet] at hWritten
      exact hWritten
    | some d =>
      have hWritten := h tx hTx
      rw [hGet] at hWritten
      rw [processedRecords_some, rewritten_eq_self_iff.mpr hWritten]

/-! ### Backward -/

theorem processedRecord_undo (tx : CTransaction) :
    processedRecord env tx blockHeight true record =
      if tx.isApp CSAPP_REGISTER_TX_TYPE then none
      else if tx.touchesApp then record.map ({ · with status := .running }) else record := by
  unfold processedRecord CTransaction.touchesApp CTransaction.isApp
  by_cases hVersion : tx.nVersion = CSAPP_TX_VERSION
  · by_cases hRegister : tx.nType = CSAPP_REGISTER_TX_TYPE
    · simp [hVersion, hRegister]
    · simp [hVersion, hRegister]
  · simp [hVersion]

theorem processedRecords_undo {P : Option CSAppData → Prop} (hNone : P none)
    (hRunning : ∀ record, P record → P (record.map ({ · with status := .running })))
    (h : P record) : P (processedRecords env blockHeight true txs id record) := by
  refine foldlRecOn _ _ h fun record hRecord tx _ => ?_
  rw [processedRecord_undo]
  split
  · exact hNone
  · split
    · exact hRunning record hRecord
    · exact hRecord

theorem appsUndone_iff (env : Env) (blockHeight : Nat) :
    txs.foldl (fun apps tx => processCSAppTransaction env tx blockHeight true apps) apps = apps ↔
      AppsUndone txs apps := by
  rw [foldl_processCSAppTransaction_eq_self_iff]
  constructor
  · intro h tx hTx d hd
    have hSame := h tx hTx
    rw [hd] at hSame
    obtain ⟨before, after, rfl⟩ := append_of_mem hTx
    rw [processedRecords_split before after rfl, processedRecord_undo] at hSame
    constructor
    · by_contra hRegister
      rw [if_pos (Bool.not_eq_false _ ▸ hRegister), processedRecords_undo (P := (· = none)) rfl
        (by rintro _ rfl; rfl) rfl] at hSame
      cases hSame
    · -- What is once set to running is not set to anything else.
      intro hTouches
      have hKept : ∀ d' ∈ processedRecords env blockHeight true after tx.csappDeploymentId
          (if tx.isApp CSAPP_REGISTER_TX_TYPE then none else if tx.touchesApp then
            (processedRecords env blockHeight true before tx.csappDeploymentId (some d)).map
              ({ · with status := .running })
            else processedRecords env blockHeight true before tx.csappDeploymentId (some d)),
          d'.status = .running := by
        refine processedRecords_undo (P := fun record => ∀ d ∈ record, d.status = .running)
          (by simp) (by simp) ?_
        rw [hTouches]
        split
        · simp
        · simp
      exact hKept d hSame
  · intro h tx hTx
    refine foldlRecOn (motive := fun record => record =
      apps.mapApps[tx.csappDeploymentId]?) _ _ rfl fun record hRecord tx' hTx' => ?_
    obtain ⟨hMem, hName⟩ := mem_filter.mp hTx'
    have hUndone := h tx' hMem
    rw [beq_iff_eq.mp hName] at hUndone
    rw [hRecord, processedRecord_undo]
    cases hGet : apps.mapApps[tx.csappDeploymentId]? with
    | none => simp
    | some d =>
      obtain ⟨hRegister, hRunning⟩ := hUndone d hGet
      rw [if_neg (Bool.not_eq_true _ ▸ hRegister)]
      split
      · rename_i hTouches
        rw [Option.map_some, ← hRunning hTouches]
      · rfl

end Lists

end CloudService
