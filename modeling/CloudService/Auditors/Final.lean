/-
  A resolution of the auditors is final. Votes on what is resolved are still accepted, but the
  resolution runs once only.
-/

import CloudService.Auditors.Majority
import CloudService.Coinbase.Merge
import CloudService.Coinbase.Passes
import CloudService.Locks.Burned

namespace CloudService

open TreeMap

/-- What auditors vote on: a whole response, or one shard of it. -/
inductive VoteTarget where
  | request (requestId : String)
  | shard (requestId : String) (shardIndex : Nat)
deriving Repr, DecidableEq

namespace VoteTarget

def key : VoteTarget → Bool × String
  | .request r => (false, r)
  | .shard r i => (true, OPoICache.shardKey r i)

end VoteTarget

namespace OPoICache

variable (c : OPoICache)

/-- The votes on a target, whether they are resolved, and their majority. -/
def votes : VoteTarget → Option (List AuditorVerification)
  | .request r => c.mapAuditorVerifications[r]?
  | .shard r i => c.mapShardAuditorVerifications[shardKey r i]?
def resolved : VoteTarget → Bool
  | .request r => c.isAuditorResolved r
  | .shard r i => c.isShardAuditorResolved r i
/-- The result of the votes on a response or a shard. -/
def verdict (least : Int) : VoteTarget → Option Nat
  | .request r => c.getAuditorMajorityResult r least
  | .shard r i => c.getShardAuditorMajorityResult r i least

def completeVotes : List AuditorVerification :=
  ((vals c.mapAuditorVerifications).flatten ++
    (vals c.mapShardAuditorVerifications).flatten).filter (·.status == .complete)

/-- The vote is COMPLETE with its collateral unlocked, or SLASHED with its collateral locked. -/
def VoteSettled (v : AuditorVerification) : Prop :=
  (v.status = .complete ∧ c.isLockedUTXO v.auditorCollateral = false) ∨
    (v.status = .slashed ∧ c.isLockedUTXO v.auditorCollateral = true)
deriving Decidable

end OPoICache

def targetOf (tx : CTransaction) : VoteTarget :=
  if tx.opoiShardIndex = OPOI_AUDITOR_VERIFY_NO_SHARD then .request tx.opoiRequestId
  else .shard tx.opoiRequestId tx.opoiShardIndex

def votesInTime (c : OPoICache) (tx : CTransaction) : Bool :=
  tx.opoiType != .auditorVerify || !c.resolved (targetOf tx) ||
    (c.votesFor tx).any (·.auditorAddress == tx.opoiAuditorAddress)

/-- The transaction does not lock the collateral of a COMPLETE vote. -/
def sparesReturned (c : OPoICache) (tx : CTransaction) : Bool :=
  (c.lockOf tx).all fun lock => !c.completeVotes.any (·.auditorCollateral == lock.1)

/-- `BurnSafe`, no new vote on what is resolved and no lock on a returned collateral. -/
def ResolutionSafe (env : Env) (node : NodeState) (st : LoopState) (tx : CTransaction) : Prop :=
  BurnSafe env node st tx ∧
    (tx.isOPoITx = true → votesInTime st.cache tx = true ∧ sparesReturned st.cache tx = true)
deriving Decidable

def beforeVerdicts (env : Env) (node : NodeState) (block : CBlock) : OPoICache :=
  markPayments env node.nextHeight
    (beforePayments env node.nextHeight block.vtx (afterTxs env node block.vtx)) block.vtx

/-- `ProcessAuditorVerifications` marks a target as resolved in a block, with a majority. -/
def MarkedWith (env : Env) (node : NodeState) (block : CBlock) (t : VoteTarget) (m : Nat) : Prop :=
  env.params.opoiActive node.nextHeight = true ∧
    (beforeVerdicts env node block).resolved t = false ∧
    (processAuditorVerifications env (beforeVerdicts env node block)).resolved t = true ∧
    (beforeVerdicts env node block).verdict env.params.nOPoIMinAuditors t = some m
deriving Decidable

/-- No vote on a resolved target is PENDING, and COMPLETE votes have their collateral back. -/
structure VerdictsSettled (c : OPoICache) : Prop where
  closed : ∀ t verifs, c.resolved t = true → c.votes t = some verifs →
    ∀ v ∈ verifs, v.status ≠ .pending
  returned : ∀ t verifs, c.votes t = some verifs → ∀ v ∈ verifs, v.status = .complete →
    c.lockedBy v.auditorCollateral = none

/-- The votes on the targets that are resolved in a cache are the same in a later one. -/
def VerdictsKept (c c' : OPoICache) : Prop :=
  ∀ t, c.resolved t = true → c'.resolved t = true ∧ c'.votes t = c.votes t

/-- The votes on an unresolved target get their status, and the majority gets its
    collateral back. -/
structure Resolution (c c' : OPoICache) (t₀ : VoteTarget) (majority : Nat) : Prop where
  unresolved : c.resolved t₀ = false
  votes : ∀ t, c'.votes t = if t.key = t₀.key then (c.votes t).map (·.map (resolveVote majority))
    else c.votes t
  resolved : ∀ t, c'.resolved t = if t.key = t₀.key then true else c.resolved t
  returned : ∀ verifs, c.votes t₀ = some verifs → ∀ v ∈ verifs, v.result = majority →
    c'.lockedBy v.auditorCollateral = none

section Final

variable {env : Env} {node : NodeState} {c c' c₁ : OPoICache} {tx : CTransaction}
  {t t₀ : VoteTarget}
  {blockHeight majority m : Nat} {chainActive : List Uint256} {verifs : List AuditorVerification}
  {v : AuditorVerification}

/-! ## Targets -/

theorem verdict_eq (least : Int) : c.verdict least t = (c.votes t).bind
    (computeAuditorMajority · least) := by
  cases t with
  | request r => exact getAuditorMajorityResult_eq r least
  | shard r i => exact getShardAuditorMajorityResult_eq r i least

theorem VoteTarget.eq_of_key (h : t.key = t₀.key) : t = t₀ := by
  cases t with
  | request r =>
    cases t₀ with
    | request r₀ =>
      cases h
      rfl
    | shard r₀ i₀ => cases h
  | shard r i =>
    cases t₀ with
    | request r₀ => cases h
    | shard r₀ i₀ =>
      obtain ⟨rfl, rfl⟩ := shardKey_inj (congrArg Prod.snd h)
      rfl

theorem mem_completeVotes (hVotes : c.votes t = some verifs) (hv : v ∈ verifs)
    (hComplete : v.status = .complete) : v ∈ c.completeVotes := by
  refine List.mem_filter.mpr ⟨List.mem_append.mpr ?_, by rw [hComplete]; rfl⟩
  cases t with
  | request r => exact .inl (List.mem_flatten.mpr ⟨verifs, mem_vals.mpr ⟨r, hVotes⟩, hv⟩)
  | shard r i => exact .inr (List.mem_flatten.mpr ⟨verifs, mem_vals.mpr ⟨_, hVotes⟩, hv⟩)

theorem burned_of_votes (hVotes : c.votes t = some verifs) (hv : v ∈ verifs)
    (hSlashed : v.status = .slashed) : Burned c v.auditorCollateral := by
  cases t with
  | request r =>
    have hList : c.getAuditorVerifications r = verifs := getD_of_get hVotes
    exact .vote (hList ▸ hv) hSlashed
  | shard r i =>
    have hList : c.shardVerifications (OPoICache.shardKey r i) = verifs :=
      getD_of_get hVotes
    exact .shardVote (hList ▸ hv) hSlashed

/-! ## One transaction -/

theorem votes_apply (t : VoteTarget) :
    (applyOPoITransaction env chainActive blockHeight c tx).votes t = c.votes t ∨
      (tx.opoiType = .auditorVerify ∧ t.key = (targetOf tx).key ∧
        c.votesFor tx = (c.votes t).getD [] ∧
        (applyOPoITransaction env chainActive blockHeight c tx).votes t =
          some (OPoICache.addVote (c.votesFor tx) (newVote env blockHeight tx))) := by
  rcases votes_cases env chainActive blockHeight c tx with ⟨hType, hWhole, hMap, hShards⟩ |
    ⟨hType, hShard, hMap, hShards⟩ | ⟨_, hMap, hShards⟩
  · cases t with
    | request r =>
      simp only [OPoICache.votes, hMap, getElem?_insert_eq, targetOf, OPoICache.votesFor,
        if_pos hWhole, VoteTarget.key]
      split
      · rename_i hKey
        cases hKey
        exact .inr ⟨hType, rfl, Std.ExtTreeMap.getD_eq_getD_getElem?, rfl⟩
      · exact .inl rfl
    | shard r i => exact .inl (by simp only [OPoICache.votes, hShards])
  · cases t with
    | request r => exact .inl (by simp only [OPoICache.votes, hMap])
    | shard r i =>
      simp only [OPoICache.votes, hShards, getElem?_insert_eq, targetOf,
        OPoICache.votesFor, if_neg hShard, VoteTarget.key]
      split
      · rename_i hKey
        rw [hKey]
        exact .inr ⟨hType, rfl, Std.ExtTreeMap.getD_eq_getD_getElem?, rfl⟩
      · exact .inl rfl
  · cases t with
    | request r => exact .inl (by simp only [OPoICache.votes, hMap])
    | shard r i => exact .inl (by simp only [OPoICache.votes, hShards])

theorem resolved_apply (t : VoteTarget) :
    (applyOPoITransaction env chainActive blockHeight c tx).resolved t = c.resolved t := by
  obtain ⟨hWhole, hShards⟩ := (applyOPoITransaction_txFrame env blockHeight c tx
    chainActive).resolved
  cases t with
  | request r => simp only [OPoICache.resolved, OPoICache.isAuditorResolved, hWhole]
  | shard r i => simp only [OPoICache.resolved, OPoICache.isShardAuditorResolved, hShards]

theorem verdictsKept_apply (hTime : votesInTime c tx = true) :
    VerdictsKept c (applyOPoITransaction env chainActive blockHeight c tx) := by
  intro t hResolved
  refine ⟨(resolved_apply t).trans hResolved, ?_⟩
  rcases @votes_apply env c tx blockHeight chainActive t with hSame | ⟨hType, hKey, hFor, hNew⟩
  · exact hSame
  · rw [VoteTarget.eq_of_key hKey] at hResolved
    have hVoted : (c.votesFor tx).any (·.auditorAddress == tx.opoiAuditorAddress) = true := by
      simpa [votesInTime, hType, hResolved] using hTime
    -- The second vote of an auditor is dropped, and the list is stored again.
    have hDropped : OPoICache.addVote (c.votesFor tx) (newVote env blockHeight tx) =
      c.votesFor tx :=
      if_pos hVoted
    rw [hNew, hDropped]
    cases hVotes : c.votes t with
    | none =>
      rw [hFor, hVotes] at hVoted
      cases hVoted
    | some verifs =>
      rw [hFor, hVotes]
      rfl

theorem lockedBy_free {x : COutPoint}
    (hNull : tx.opoiType = .auditorVerify → tx.opoiAuditorCollateralIn.isNull = false)
    (hFree : c.lockedBy x = none) (hApart : ∀ lock, c.lockOf tx = some lock → lock.1 ≠ x) :
    (applyOPoITransaction env chainActive blockHeight c tx).lockedBy x = none := by
  rw [lockedBy_applyOPoITransaction hNull]
  cases hOf : c.lockOf tx with
  | some lock =>
    dsimp only
    rw [if_neg (hApart lock hOf)]
    exact hFree
  | none =>
    dsimp only
    split
    · rfl
    · exact hFree

theorem VerdictsSettled.apply (h : VerdictsSettled c)
    (hNull : tx.opoiType = .auditorVerify → tx.opoiAuditorCollateralIn.isNull = false)
    (hTime : votesInTime c tx = true) (hSpare : sparesReturned c tx = true) :
    VerdictsSettled (applyOPoITransaction env chainActive blockHeight c tx) where
  closed t verifs hResolved hVotes := by
    rw [resolved_apply] at hResolved
    rw [(verdictsKept_apply hTime t hResolved).2] at hVotes
    exact h.closed t verifs hResolved hVotes
  returned t verifs hVotes v hv hComplete := by
    -- A complete vote is an old one, since a new vote is pending.
    have hOld : ∃ old, c.votes t = some old ∧ v ∈ old := by
      rcases @votes_apply env c tx blockHeight chainActive t with hSame | ⟨_, _, hFor, hNew⟩
      · exact ⟨verifs, hSame ▸ hVotes, hv⟩
      · rw [hNew] at hVotes
        cases hVotes
        have hMem : v ∈ c.votesFor tx := by
          unfold OPoICache.addVote at hv
          split at hv
          · exact hv
          · rcases List.mem_append.mp hv with hOld | hLast
            · exact hOld
            · rw [List.mem_singleton.mp hLast] at hComplete
              cases hComplete
        rw [hFor] at hMem
        cases hVotes : c.votes t with
        | none =>
          rw [hVotes] at hMem
          cases hMem
        | some old =>
          rw [hVotes] at hMem
          exact ⟨old, rfl, hMem⟩
    obtain ⟨old, hOld, hMem⟩ := hOld
    refine lockedBy_free hNull (h.returned t old hOld v hMem hComplete) fun lock hLock hEq => ?_
    rw [sparesReturned, hLock, Option.all_some, Bool.not_eq_true'] at hSpare
    rw [List.any_eq_false] at hSpare
    exact hSpare v (mem_completeVotes hOld hMem hComplete) (by rw [hEq]; exact beq_self_eq_true _)

/-! ## Resolutions -/

theorem resolution_resolveAuditors (env : Env) (c : OPoICache) (r : String) :
    resolveAuditors env c r = c ∨
      ∃ majority, Resolution c (resolveAuditors env c r) (.request r) majority := by
  rcases resolveAuditors_cases env c r with hEq | ⟨majority, locked, locking, hUnresolved,
    hLocked, hEq⟩
  · exact .inl hEq
  · obtain ⟨stakes, hCanary⟩ := resolveCanary_eq { c with
      mapLockedUTXOs := locked
      mapLockingTxHash := locking
      mapAuditorVerifications := c.mapAuditorVerifications.modify r (·.map (resolveVote majority))
      setResolvedAuditorVerifications := c.setResolvedAuditorVerifications.insert r } majority r
    rw [hEq, hCanary]
    refine .inr ⟨majority, hUnresolved, fun t => ?_, fun t => ?_,
      fun verifs hVotes v hv hResult => ?_⟩
    · cases t with
      | request r' =>
        simp only [OPoICache.votes, getElem?_modify_eq, VoteTarget.key, Prod.mk.injEq, true_and,
          eq_comm]
      | shard r' i => simp [OPoICache.votes, VoteTarget.key]
    · cases t with
      | request r' =>
        simp only [OPoICache.resolved, OPoICache.isAuditorResolved, VoteTarget.key, Prod.mk.injEq,
          true_and]
        split
        · rename_i hSame
          simp [hSame]
        · rename_i hOther
          simp [Ne.symm hOther]
      | shard r' i =>
        simp [OPoICache.resolved, OPoICache.isShardAuditorResolved, VoteTarget.key]
    · rw [OPoICache.lockedBy, hLocked, if_pos]
      rw [List.any_eq_true]
      refine ⟨v, ?_, by simp [hResult]⟩
      have hList : c.getAuditorVerifications r = verifs := getD_of_get hVotes
      exact hList ▸ hv

theorem resolution_resolveShardAuditors (env : Env) (h : LockDiscipline c) (key : String) :
    resolveShardAuditors env c key = c ∨
      ∃ t₀ majority, Resolution c (resolveShardAuditors env c key) t₀ majority := by
  rcases resolveShardAuditors_cases env c key with
    hEq | ⟨majority, verifs, front, locked, locking, hVerifs, hFront, hUnresolved, hLocked, hEq⟩
  · exact .inl hEq
  · have hKey : OPoICache.shardKey front.requestId front.shardIndex = key := by
      refine h.shardKeyed key front ?_
      rw [OPoICache.shardVerifications, getD_of_get hVerifs]
      exact List.mem_of_head? hFront
    rw [hEq]
    refine .inr ⟨.shard front.requestId front.shardIndex, majority, hUnresolved, fun t => ?_,
      fun t => ?_, fun verifs' hVotes v hv hResult => ?_⟩
    · cases t with
      | request r' => simp [OPoICache.votes, VoteTarget.key]
      | shard r' i =>
        simp only [OPoICache.votes, getElem?_modify_eq, VoteTarget.key, Prod.mk.injEq,
          true_and, hKey, eq_comm]
    · cases t with
      | request r' => simp [OPoICache.resolved, OPoICache.isAuditorResolved, VoteTarget.key]
      | shard r' i =>
        simp only [OPoICache.resolved, OPoICache.isShardAuditorResolved, VoteTarget.key,
          Prod.mk.injEq, true_and, hKey]
        split
        · rename_i hSame
          simp [hSame]
        · rename_i hOther
          simp [Ne.symm hOther]
    · simp only [OPoICache.votes, hKey, hVerifs, Option.some.injEq] at hVotes
      subst hVotes
      rw [OPoICache.lockedBy, hLocked, if_pos]
      rw [List.any_eq_true]
      exact ⟨v, hv, by simp [hResult]⟩

theorem Resolution.verdictsKept (h : Resolution c c' t₀ majority) : VerdictsKept c c' := by
  intro t hResolved
  have hOther : t.key ≠ t₀.key := by
    intro hKey
    rw [VoteTarget.eq_of_key hKey, h.unresolved] at hResolved
    cases hResolved
  rw [h.resolved, h.votes, if_neg hOther, if_neg hOther]
  exact ⟨hResolved, rfl⟩

theorem LockDrop.lockedBy_none (h : LockDrop c c') {x : COutPoint} (hFree : c.lockedBy x = none) :
    c'.lockedBy x = none := by
  rcases h.locked x with hSame | ⟨hNone, _⟩
  · rw [hSame]
    exact hFree
  · exact hNone

theorem Resolution.settled (h : Resolution c c' t₀ majority) (hSettled : VerdictsSettled c)
    (hDrop : LockDrop c c') : VerdictsSettled c' where
  closed t verifs hResolved hVotes v hv := by
    rw [h.votes] at hVotes
    rw [h.resolved] at hResolved
    split at hVotes
    · obtain ⟨old, _, rfl⟩ := Option.map_eq_some_iff.mp hVotes
      obtain ⟨w, _, rfl⟩ := List.mem_map.mp hv
      unfold resolveVote
      split
      · simp
      · simp
    · rename_i hOther
      rw [if_neg hOther] at hResolved
      exact hSettled.closed t verifs hResolved hVotes v hv
  returned t verifs hVotes v hv hComplete := by
    rw [h.votes] at hVotes
    split at hVotes
    · rename_i hKey
      rw [VoteTarget.eq_of_key hKey] at hVotes
      obtain ⟨old, hOld, rfl⟩ := Option.map_eq_some_iff.mp hVotes
      obtain ⟨w, hw, rfl⟩ := List.mem_map.mp hv
      unfold resolveVote at hComplete ⊢
      dsimp only at hComplete ⊢
      split at hComplete
      · rename_i hResult
        exact h.returned old hOld w hw hResult
      · cases hComplete
    · exact hDrop.lockedBy_none (hSettled.returned t verifs hVotes v hv hComplete)

/-! ## The passes -/

/-- The discipline of the locks, settled verdicts, and the verdicts of an earlier cache. -/
structure VerdictsFrom (c₁ c : OPoICache) : Prop where
  discipline : LockDiscipline c
  settled : VerdictsSettled c
  kept : VerdictsKept c₁ c

theorem VerdictsFrom.quiet (h : VerdictsFrom c₁ c) (hDrop : LockDrop c c')
    (hSame : c'.verdicts = c.verdicts) : VerdictsFrom c₁ c' := by
  simp only [OPoICache.verdicts, Prod.mk.injEq] at hSame
  obtain ⟨hWhole, hShards, hResolved⟩ := hSame
  have hSameVotes : ∀ t, c'.votes t = c.votes t := by
    intro t
    cases t with
    | request r => simp only [OPoICache.votes, hWhole]
    | shard r i => simp only [OPoICache.votes, hShards]
  have hSameResolved : ∀ t, c'.resolved t = c.resolved t := by
    intro t
    cases t with
    | request r => simp only [OPoICache.resolved, OPoICache.isAuditorResolved, hResolved.1]
    | shard r i => simp only [OPoICache.resolved, OPoICache.isShardAuditorResolved, hResolved.2]
  refine ⟨hDrop.discipline h.discipline, ⟨fun t verifs hr hv => ?_,
    fun t verifs hv v hMem hc => ?_⟩, fun t hr => ?_⟩
  · rw [hSameResolved] at hr
    rw [hSameVotes] at hv
    exact h.settled.closed t verifs hr hv
  · rw [hSameVotes] at hv
    exact hDrop.lockedBy_none (h.settled.returned t verifs hv v hMem hc)
  · rw [hSameResolved, hSameVotes]
    exact h.kept t hr

theorem VerdictsFrom.resolve (h : VerdictsFrom c₁ c) (hDrop : LockDrop c c')
    (hRes : Resolution c c' t₀ majority) : VerdictsFrom c₁ c' where
  discipline := hDrop.discipline h.discipline
  settled := hRes.settled h.settled hDrop
  kept t hResolved := by
    obtain ⟨hStill, hVotes⟩ := h.kept t hResolved
    obtain ⟨hNow, hSame⟩ := hRes.verdictsKept t hStill
    exact ⟨hNow, hSame.trans hVotes⟩

theorem passPreserved_verdictsFrom : PassPreserved env blockHeight (VerdictsFrom c₁) := by
  refine passPreserved_of_lockDrop (fun h hDrop hVotes _ => h.quiet hDrop hVotes)
    (fun c key h => ?_) (fun c r h => ?_) fun c key h => ?_
  · obtain ⟨_, _, _, _, hEq⟩ := expireChallenge_eq env blockHeight c key
    refine h.quiet (lockDrop_expireChallenge key) ?_
    rw [hEq]
    rfl
  · rcases resolution_resolveAuditors env c r with hEq | ⟨majority, hRes⟩
    · rw [hEq]
      exact h
    · exact h.resolve (lockDrop_resolveAuditors r) hRes
  · rcases resolution_resolveShardAuditors env h.discipline key with hEq | ⟨t₀, majority, hRes⟩
    · rw [hEq]
      exact h
    · exact h.resolve (lockDrop_resolveShardAuditors h.discipline key) hRes

/-! ## Runs -/

/-- Burned outpoints are locked and verdicts are settled, inside a block as well. -/
def VerdictInvariant (node : NodeState) (c : OPoICache) : Prop :=
  BurnInvariant node c ∧ VerdictsSettled c

theorem verdictsFrom_connectPasses (hDiscipline : LockDiscipline c) (hSettled : VerdictsSettled c)
    (vtx : List CTransaction) : VerdictsFrom c (connectPasses env blockHeight vtx c) :=
  passPreserved_verdictsFrom.connectPasses ⟨hDiscipline, hSettled, fun _ h => ⟨h, rfl⟩⟩ vtx

theorem preserved_verdictInvariant : Preserved env (ResolutionSafe env) VerdictInvariant where
  onTx node st tx hPre hCur hTx hOPoI hSafe := by
    obtain ⟨hTime, hSpare⟩ := hSafe.2 hOPoI
    exact ⟨preserved_burnInvariant.onTx node st tx hPre.1 hCur.1 hTx hOPoI hSafe.1,
      hCur.2.apply (hTx.auditor_not_null hOPoI) hTime hSpare⟩
  onPasses node block c view hPre hCur hNext :=
    ⟨preserved_burnInvariant.onPasses node block c view hPre.1 hCur.1 hNext,
      (verdictsFrom_connectPasses hCur.1.1.toLockDiscipline hCur.2 block.vtx).settled⟩
  onQuiet node block view h := ⟨(@preserved_burnInvariant env).onQuiet node block view h.1, h.2⟩

theorem preservedUnder_verdict : PreservedUnder env (ResolutionSafe env) VerdictInvariant
    fun _ c => c.resolved t = true ∧ c.votes t = some verifs where
  onTx _ st tx _ _ hK _ hOPoI hSafe := by
    obtain ⟨hResolved, hVotes⟩ := verdictsKept_apply (hSafe.2 hOPoI).1 t hK.1
    exact ⟨hResolved, hVotes.trans hK.2⟩
  onPasses node block c _ _ hCur hK _ := by
    obtain ⟨hResolved, hVotes⟩ :=
      (verdictsFrom_connectPasses hCur.1.1.toLockDiscipline hCur.2 block.vtx).kept t hK.1
    exact ⟨hResolved, hVotes.trans hK.2⟩
  onQuiet _ _ _ _ hK := hK

theorem verdictInvariant_init : VerdictInvariant (.init env) {} := by
  refine ⟨burnInvariant_init, ⟨fun t verifs _ hVotes => ?_, fun t verifs hVotes => ?_⟩⟩
  · cases t with
    | request r => cases hVotes
    | shard r i => cases hVotes
  · cases t with
    | request r => cases hVotes
    | shard r i => cases hVotes

theorem VerdictInvariant.voteSettled (h : VerdictInvariant node c) (hResolved : c.resolved t = true)
    (hVotes : c.votes t = some verifs) (hv : v ∈ verifs) : c.VoteSettled v := by
  cases hStatus : v.status with
  | pending => exact absurd hStatus (h.2.closed t verifs hResolved hVotes v hv)
  | complete =>
    exact .inl ⟨hStatus, c.isLockedUTXO_eq_false.mpr (h.2.returned t verifs hVotes v hv hStatus)⟩
  | slashed =>
    obtain ⟨a, hFor⟩ := h.1.2 _ (burned_of_votes hVotes hv hStatus)
    have hLocked := hFor.locked
    rw [OPoICache.lockedBy] at hLocked
    refine .inr ⟨hStatus, ?_⟩
    rw [OPoICache.isLockedUTXO, Std.ExtTreeMap.contains_eq_isSome_getElem?, hLocked]
    rfl

theorem marked_after {block : CBlock} {node' : NodeState}
    (hTip : connectTip env node block = .ok node')
    (hMarked : MarkedWith env node block t m) :
    node'.cache.resolved t = true ∧ ∃ verifs, node'.cache.votes t = some verifs ∧
      computeAuditorMajority verifs env.params.nOPoIMinAuditors = some m := by
  obtain ⟨hActive, _, hResolved, hVerdict⟩ := hMarked
  have hCache := (connectTip_cache hTip).2.2
  rw [if_pos hActive, connectPasses_eq, ← beforeVerdicts] at hCache
  generalize beforeVerdicts env node block = c at *
  have hSame : SameMajorities c (processAuditorVerifications env c) :=
    (SameMajorities.passPreserved env node.nextHeight c).processAuditorVerifications (.refl c)
  rw [hCache]
  refine ⟨hResolved, ?_⟩
  have hMajority : (processAuditorVerifications env c).verdict env.params.nOPoIMinAuditors t =
      some m := by
    rw [← hVerdict]
    cases t with
    | request r => exact hSame.getAuditorMajorityResult r _
    | shard r i =>
      simp only [OPoICache.verdict, getShardAuditorMajorityResult_eq]
      exact hSame.shards _ _
  rw [verdict_eq] at hMajority
  exact Option.bind_eq_some_iff.mp hMajority

end Final

/-- In every run in which no new auditor votes on a resolved target, no lock is taken twice or
    on returned collateral, and no challenge is settled twice: once a block has marked a target
    as resolved with a majority, that is its majority in every later state, and every vote on it
    is COMPLETE and unlocked or SLASHED and locked. -/
theorem verdict_final (env : Env) (blocks : List CBlock) (node : NodeState)
    (hRun : ForwardRun env (onBlock env (ResolutionSafe env)) blocks node)
    (block : CBlock) (node' : NodeState) (hTip : connectTip env node block = .ok node')
    (hSafe : onBlock env (ResolutionSafe env) node block)
    (t : VoteTarget) (m : Nat) (hMarked : MarkedWith env node block t m)
    (inputs : List Input) (late : Machine)
    (hLate : Run.Steps (smallStep env) (onTx (ResolutionSafe env)) (.idle node') inputs late) :
    late.cache.verdict env.params.nOPoIMinAuditors t = some m ∧
      ∀ verifs, late.cache.votes t = some verifs → ∀ v ∈ verifs, late.cache.VoteSettled v := by
  obtain ⟨hResolved, verifs, hVotes, hMajority⟩ := marked_after hTip hMarked
  have hBlock : Run.Steps (connectTip env) (onBlock env (ResolutionSafe env)) node [block] node' :=
    .cons hTip hSafe (.nil _)
  have hSat : (Machine.idle node').Satisfies env VerdictInvariant :=
    preserved_verdictInvariant.run (smallSteps_of_blocks hBlock)
      (preserved_verdictInvariant.forwardRun verdictInvariant_init hRun)
  have hLateSat := preserved_verdictInvariant.run hLate hSat
  have hInvariant : VerdictInvariant late.node late.cache := by
    cases late with
    | idle _ => exact hLateSat
    | busy _ _ _ _ => exact hLateSat.1
  obtain ⟨hStill, hSame⟩ := preservedUnder_verdict.run preserved_verdictInvariant hLate hSat
    ⟨hResolved, hVotes⟩
  refine ⟨?_, fun verifs' hVotes' v hv => hInvariant.voteSettled hStill hVotes' hv⟩
  rw [verdict_eq, hSame]
  exact hMajority

def sampleAsked : List CBlock := [sampleFunding, sampleBlock 3 [sampleRequest "r" "alice" 2 1]]

def sampleResolving : CBlock := sampleBlock 4 [sampleVote "r" "alice"
    ⟨4002, 1⟩ 3 AUDITOR_VERIFY_PASS]
def sampleOutvoted : CBlock :=
  sampleBlock 4 [sampleVote "r" "alice" ⟨4002, 1⟩ 3 AUDITOR_VERIFY_PASS,
    sampleVote "r" "bob" ⟨4002, 2⟩ 4 AUDITOR_VERIFY_PASS,
    sampleVote "r" "carol" ⟨4002, 3⟩ 5 AUDITOR_VERIFY_FAIL]

theorem verdict_final_of_outvoted : ∃ node node' late,
    ForwardRun sampleNet
      (onBlock sampleNet (ResolutionSafe sampleNet)) sampleAsked node ∧
    connectTip sampleNet node sampleOutvoted = .ok node' ∧
    MarkedWith sampleNet node sampleOutvoted (.request "r") AUDITOR_VERIFY_PASS ∧
    Run.Steps (smallStep sampleNet) (onTx (ResolutionSafe sampleNet))
      (.idle node') (blockInputs (sampleBlock 5 [])) late ∧
    late.cache.verdict 1 (.request "r") = some AUDITOR_VERIFY_PASS ∧
    ∀ verifs, late.cache.votes (.request "r") = some verifs → ∀ v ∈ verifs,
      late.cache.VoteSettled v := by
  refine ⟨_, _, _, Run.steps_value .other (by decide +kernel), Run.eq_value (by decide +kernel),
    ?marked, Run.steps_value .other (by decide +kernel),
    verdict_final _ _ _ (Run.steps_value .other _) _ _ (Run.eq_value _) ?safe _ _ ?marked _ _
      (Run.steps_value .other _)⟩
  · decide +kernel
  · decide +kernel

def sampleLateVotes : CBlock :=
  sampleBlock 5 [sampleVote "r" "bob" ⟨4002, 2⟩ 4 AUDITOR_VERIFY_FAIL,
    sampleVote "r" "carol" ⟨4002, 3⟩ 5 AUDITOR_VERIFY_FAIL]

def sampleStakeReturned : CBlock := sampleBlock 5 [sampleStake "alice" ⟨4002, 1⟩ 4]

/-- Late votes turn the majority and stay PENDING; and a COMPLETE vote has its collateral locked
    again when it is used for a STAKE. -/
theorem not_final_of_late_votes :
    (∃ node node' late, PlainRun sampleNet sampleAsked node ∧
      connectTip sampleNet node sampleResolving = .ok node' ∧
      MarkedWith sampleNet node sampleResolving (.request "r") AUDITOR_VERIFY_PASS ∧
      connectTip sampleNet node' sampleLateVotes = .ok late ∧
      late.cache.verdict 1 (.request "r") = some AUDITOR_VERIFY_FAIL ∧
      ∃ v ∈ late.cache.getAuditorVerifications "r", v.status = .pending) ∧
    ∃ node node' late, PlainRun sampleNet sampleAsked node ∧
      connectTip sampleNet node sampleResolving = .ok node' ∧
      MarkedWith sampleNet node sampleResolving (.request "r") AUDITOR_VERIFY_PASS ∧
      connectTip sampleNet node' sampleStakeReturned = .ok late ∧
      ∃ v ∈ late.cache.getAuditorVerifications "r", ¬late.cache.VoteSettled v := by
  constructor
  · exact ⟨_, _, _, Run.steps_value .other (by decide +kernel), Run.eq_value (by decide +kernel),
      by decide +kernel, Run.eq_value (by decide +kernel), by decide +kernel⟩
  · exact ⟨_, _, _, Run.steps_value .other (by decide +kernel), Run.eq_value (by decide +kernel),
      by decide +kernel, Run.eq_value (by decide +kernel), by decide +kernel⟩

end CloudService
