/-
  Who controls a locked output. `ConnectBlock` looks it up for a STAKE only, and never
  compares its script with the address that locks it.
-/

import CloudService.Locks.Step
import CloudService.Stakes.Backing

namespace CloudService

open OPoICache

/-! ## Locks only come from transactions -/

section Shrink

variable {env : Env} {blockHeight : Nat} {c c₁ : OPoICache}

def LocksFrom (c₁ c : OPoICache) : Prop := ∀ x a, c.lockedBy x = some a → c₁.lockedBy x = some a

theorem LocksFrom.trans_eq {c' : OPoICache} (h : LocksFrom c₁ c)
    (hEq : c'.mapLockedUTXOs = c.mapLockedUTXOs) : LocksFrom c₁ c' := by
  intro x a hLocked
  refine h x a ?_
  rw [lockedBy, ← hEq]
  exact hLocked

theorem LocksFrom.trans_erase {c' : OPoICache} {y : COutPoint} (h : LocksFrom c₁ c)
    (hEq : c'.mapLockedUTXOs = c.mapLockedUTXOs.erase y) : LocksFrom c₁ c' := by
  intro x a hLocked
  refine h x a ?_
  rw [lockedBy, hEq, TreeMap.getElem?_erase_eq] at hLocked
  split at hLocked
  · cases hLocked
  · exact hLocked

theorem modifyResponderStake_mapLockedUTXOs (requestId : String) (f : OPoIStake → OPoIStake) :
    (modifyResponderStake c requestId f).mapLockedUTXOs = c.mapLockedUTXOs := by
  rw [modifyResponderStake_eq]

section

variable (h : LocksFrom c₁ c)

include h

theorem LocksFrom.expireChallenge (key : String) :
    LocksFrom c₁ (expireChallenge env blockHeight c key) := by
  unfold CloudService.expireChallenge
  split
  · exact h
  · rename_i ch _
    split
    · split
      · exact h
      · exact h.trans_eq rfl
    · split
      · split
        · refine h.trans_erase (y := ch.challengerCollateral) ?_
          change (modifyResponderStake c ch.requestId slashStake).mapLockedUTXOs.erase _ = _
          rw [modifyResponderStake_mapLockedUTXOs]
        · exact h.trans_eq rfl
        · exact h
      · exact h

theorem LocksFrom.releaseStake (key : String) :
    LocksFrom c₁ (releaseStake env blockHeight c key) := by
  unfold CloudService.releaseStake
  split
  · exact h
  · split
    · exact h.trans_erase rfl
    · exact h

theorem LocksFrom.unlockMajority (majority : Nat) (verifs : List AuditorVerification) :
    LocksFrom c₁ (unlockMajority majority c verifs) := by
  obtain ⟨locked, locking, hEq, hGet⟩ := unlockMajority_eq c majority verifs
  rw [hEq]
  intro x a hLocked
  refine h x a ?_
  change locked[x]? = some a at hLocked
  rw [hGet x] at hLocked
  split at hLocked
  · cases hLocked
  · exact hLocked

theorem LocksFrom.assignCanary : LocksFrom c₁ (assignCanary env blockHeight c) := by
  obtain ⟨stakes, hEq⟩ := assignCanary_eq env blockHeight c
  rw [hEq]
  exact h.trans_eq rfl

theorem LocksFrom.resolveCanary (majority : Nat) (requestId : String) :
    LocksFrom c₁ (resolveCanary majority c requestId) := by
  obtain ⟨stakes, hEq⟩ := resolveCanary_eq c majority requestId
  rw [hEq]
  exact h.trans_eq rfl

theorem LocksFrom.resolveAuditors (requestId : String) :
    LocksFrom c₁ (resolveAuditors env c requestId) := by
  unfold CloudService.resolveAuditors
  split
  · exact h
  · split
    · exact h
    · rename_i majority _
      refine LocksFrom.resolveCanary ?_ majority requestId
      exact (h.unlockMajority majority (c.getAuditorVerifications requestId)).trans_eq rfl

theorem LocksFrom.resolveShardAuditors (key : String) :
    LocksFrom c₁ (resolveShardAuditors env c key) := by
  unfold CloudService.resolveShardAuditors
  split
  · exact h
  · rename_i verifs _
    split
    · exact h
    · split
      · exact h
      · split
        · exact h
        · rename_i majority _
          exact (h.unlockMajority majority verifs).trans_eq rfl

end

theorem passPreserved_locksFrom : PassPreserved env blockHeight (LocksFrom c₁) where
  rewardPaid _ _ h := h.trans_eq rfl
  expireChallenge _ key h := h.expireChallenge key
  releaseStake _ key h := h.releaseStake key
  expireRequests _ h := h.trans_eq rfl
  closeWindows _ h := h.trans_eq rfl
  suspendOverdue _ h := h.trans_eq rfl
  strikeMissed _ h := h.trans_eq rfl
  assignCanary _ h := h.assignCanary
  manifestStatus _ _ _ _ h := h.trans_eq rfl
  shardPaid _ _ _ h := h.trans_eq rfl
  responsePaid _ _ h := h.trans_eq rfl
  resolveAuditors _ r h := h.resolveAuditors r
  resolveShardAuditors _ key h := h.resolveShardAuditors key

end Shrink

/-! ## Controlled locks -/

def paysTo (env : Env) (view : CoinsView) (x : COutPoint) (a : String) : Bool :=
  (view.unspent x).any fun out =>
    out.scriptPubKey == getScriptForDestination (env.decodeDestination a)

/-- The lock that a transaction takes, if any, is on an output that pays the locking address. -/
def locksOwnOutput (env : Env) (view : CoinsView) (c : OPoICache) (tx : CTransaction) : Bool :=
  match c.lockOf tx with
  | none => true
  | some (x, a) =>
    paysTo env view x a || (tx.opoiType == .stake && (view.unspent x).isNone)

/-- `locksOwnOutput` at the turn of an OPoI transaction. -/
def OwnLocks (env : Env) (_ : NodeState) (st : LoopState) (tx : CTransaction) : Prop :=
  tx.isOPoITx = true → locksOwnOutput env st.view st.cache tx = true
deriving Decidable

def TxEvent.lock (e : TxEvent) : Option (COutPoint × String) :=
  if e.tx.isOPoITx then e.st.cache.lockOf e.tx else none

/-- The last lock of the outpoint was under the address, on an unspent output that pays it. -/
def TakenFrom (env : Env) (past : List TxEvent) (x : COutPoint) (a : String) : Prop :=
  ∃ before e after, past = before ++ e :: after ∧ e.lock = some (x, a) ∧
    (∀ e' ∈ after, ∀ b, e'.lock ≠ some (x, b)) ∧ paysTo env e.st.view x a = true

/-- Every lock on record was taken under the address that the output pays. -/
def LocksControlled (env : Env) (past : List TxEvent) (c : OPoICache) : Prop :=
  ∀ (x : COutPoint) (a : String), c.mapLockedUTXOs[x]? = some a → TakenFrom env past x a

section Control

variable {env : Env} {node : NodeState} {block : CBlock} {st st' : LoopState} {tx : CTransaction}
  {past : List TxEvent} {x : COutPoint} {a : String}

theorem TakenFrom.extend (h : TakenFrom env past x a) {e : TxEvent}
    (hOther : ∀ b, e.lock ≠ some (x, b)) : TakenFrom env (past ++ [e]) x a := by
  obtain ⟨before, e₀, after, hPast, hLock, hAfter, hPays⟩ := h
  refine ⟨before, e₀, after ++ [e], by simp [hPast], hLock, ?_, hPays⟩
  intro e' hMem
  rcases List.mem_append.mp hMem with hOld | hNew
  · exact hAfter e' hOld
  · rw [List.mem_singleton] at hNew
    rw [hNew]
    exact hOther

theorem paysTo_of_lock (hTurn : connectTx env {} node.context block st tx = .ok st')
    (hTx : AcceptedTx env node tx) (hOPoI : tx.isOPoITx = true)
    (hOk : locksOwnOutput env st.view st.cache tx = true)
    (hLock : st.cache.lockOf tx = some (x, a)) : paysTo env st.view x a = true := by
  simp only [locksOwnOutput, hLock, Bool.or_eq_true, Bool.and_eq_true, beq_iff_eq] at hOk
  rcases hOk with hPays | ⟨hType, hSpent⟩
  · exact hPays
  · -- The collateral of a connected STAKE is unspent.
    have hStake : tx.isOPoI .stake = true := by simp [CTransaction.isOPoI, hOPoI, hType]
    obtain ⟨out, hUnspent⟩ := unspent_of_connectTx hTurn hTx hStake
    have hCollateral : tx.opoiCollateralIn = x := by
      simp only [lockOf, hType, Option.some.injEq, Prod.mk.injEq] at hLock
      exact hLock.1
    rw [hCollateral] at hUnspent
    rw [hUnspent] at hSpent
    cases hSpent

theorem historyInvariant_controlled :
    HistoryInvariant env (OwnLocks env) (LocksControlled env) where
  onTx past node block st tx st' hPast hTx hTurn hOk x a hLocked := by
    rw [(connectTx_eq_ok hTurn).1, hTx.loopCache_eq] at hLocked
    split at hLocked
    · rename_i hOPoI
      have hEvent : ∀ b, (⟨node, st, tx⟩ : TxEvent).lock = some (x, b) ↔
          st.cache.lockOf tx = some (x, b) := by
        intro b
        simp [TxEvent.lock, hOPoI]
      have hTable : (applyOPoITransaction env node.chainActive node.nextHeight st.cache
          tx).lockedBy x = _ := lockedBy_applyOPoITransaction (hTx.auditor_not_null hOPoI) x
      rw [lockedBy, hLocked] at hTable
      cases hOf : st.cache.lockOf tx with
      | some lock =>
        simp only [hOf] at hTable
        by_cases hx : lock.1 = x
        · -- The transaction takes this lock.
          rw [if_pos hx] at hTable
          cases hTable
          have hNew : st.cache.lockOf tx = some (x, lock.2) := by rw [hOf, ← hx]
          exact ⟨past, ⟨node, st, tx⟩, [], rfl, (hEvent _).mpr hNew, by simp,
            paysTo_of_lock hTurn hTx hOPoI (hOk hOPoI) hNew⟩
        · rw [if_neg hx] at hTable
          refine (hPast x a hTable.symm).extend fun b hb => ?_
          rw [hEvent, hOf] at hb
          cases hb
          exact hx rfl
      | none =>
        simp only [hOf] at hTable
        split at hTable
        · cases hTable
        · refine (hPast x a hTable.symm).extend fun b hb => ?_
          rw [hEvent, hOf] at hb
          cases hb
    · rename_i hOther
      refine (hPast x a hLocked).extend fun b hb => ?_
      simp [TxEvent.lock, hOther] at hb
  onPasses past node vtx c hPast x a hLocked := by
    have hFrom : LocksFrom c (connectPasses env node.nextHeight vtx c) :=
      passPreserved_locksFrom.connectPasses (fun _ _ h => h) vtx
    exact hPast x a (hFrom x a hLocked)

/-- In every run in which every lock is taken on an output that pays the locking address,
    every locked outpoint was locked by its owner, in every state. -/
theorem locksControlled_of_run {inputs : List Input} {m : Machine}
    (hRun : SmallRun env (onTx (OwnLocks env)) inputs m) :
    LocksControlled env (history env inputs) m.cache := by
  refine historyInvariant_controlled.run ?_ hRun
  intro x a hNone
  cases hNone

end Control

def sampleStakeOfAlice (address : String) : List CBlock :=
  [sampleFunding, sampleBlock 3 [sampleStake address ⟨4002, 1⟩ 1]]

/-- The STAKE of alice. -/
theorem locksControlled_of_own_stake : ∃ m,
    SmallRun sampleNet (onTx (OwnLocks sampleNet))
      ((sampleStakeOfAlice "alice").flatMap blockInputs) m ∧
    m.cache.isLockedUTXO ⟨4002, 1⟩ = true ∧
    LocksControlled sampleNet
      (history sampleNet ((sampleStakeOfAlice "alice").flatMap blockInputs))
      m.cache := by
  exact Run.exists_steps_imp .other (fun m => m.cache.isLockedUTXO ⟨4002, 1⟩ = true)
    (by decide +kernel) fun _ hRun hLocked => ⟨hLocked, locksControlled_of_run hRun⟩

/-- The STAKE of bob on the output of alice is accepted, and locks it. -/
theorem not_locksControlled_of_foreign_stake : ∃ m,
    SmallRun sampleNet (fun _ _ => True)
      ((sampleStakeOfAlice "bob").flatMap blockInputs) m ∧
    ¬ LocksControlled sampleNet
      (history sampleNet ((sampleStakeOfAlice "bob").flatMap blockInputs))
      m.cache := by
  refine Run.exists_steps_imp .other (fun m =>
      m.cache.mapLockedUTXOs[(⟨4002, 1⟩ : COutPoint)]? = some "bob") (by decide +kernel)
    fun _ _ hLocked hControlled => ?_
  obtain ⟨before, e, after, hPast, _, _, hPays⟩ := hControlled ⟨4002, 1⟩ "bob" hLocked
  -- In no state of this run the output pays bob.
  have hNever : (history sampleNet ((sampleStakeOfAlice "bob").flatMap blockInputs)).all (fun e =>
        !paysTo sampleNet e.st.view ⟨4002, 1⟩ "bob") = true := by
    decide +kernel
  have hMem : e ∈ history sampleNet
      ((sampleStakeOfAlice "bob").flatMap blockInputs) := by
    rw [hPast]
    simp
  have hNot := List.all_eq_true.mp hNever e hMem
  rw [hPays] at hNot
  cases hNot

end CloudService
