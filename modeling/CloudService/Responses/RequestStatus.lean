/-
  The status of a request. A REVEAL fulfils it, the pass over the requests lets it expire, and
  both only while it is pending.
-/

import CloudService.Responses.Reveals

namespace CloudService

open OPoICache OPoIRequest List

def OPoIRequest.stage (q : OPoIRequest) : Nat × RequestStatus := (q.blockHeight, q.status)

def OPoICache.requestStage (c : OPoICache) (r : String) : Option (Nat × RequestStatus) :=
  (c.mapRequests[r]?).map stage

def requestsFor (r : String) (tx : CTransaction) : Bool :=
  tx.opoiType == .request && tx.opoiRequestId == r

def revealsFor (r : String) (tx : CTransaction) : Bool := isReveal tx && tx.opoiRequestId == r

/-- An earlier block, up to a height, holds a RESPONSE REVEAL of the request. -/
def RevealedBy (past : List (NodeState × CBlock)) (r : String) (bound : Nat) : Prop :=
  ∃ e ∈ past, e.1.nextHeight ≤ bound ∧ (opoiTxs e.2.vtx).any (revealsFor r) = true

section Stages

variable {env : Env} {chainActive : List Uint256} {height b : Nat} {c : OPoICache}
  {tx : CTransaction} {txs : List CTransaction} {node node' : NodeState} {block : CBlock}
  {r : String} {s : RequestStatus} {st : Nat × RequestStatus}

/-! ## Transactions -/

theorem requestStage_apply :
    (applyOPoITransaction env chainActive height c tx).requestStage r =
      if requestsFor r tx then some (height, .pending)
      else (c.requestStage r).map fun st => if revealsFor r tx then (st.1, .fulfilled) else st := by
  have hOther : tx.opoiType ≠ .request → tx.opoiType ≠ .response →
      (applyOPoITransaction env chainActive height c tx).requestStage r = c.requestStage r :=
    fun hReq hResp => by
      rw [requestStage, requestStage,
        (applyOPoITransaction_txFrame env height c tx chainActive).requests hReq hResp]
  by_cases hReq : tx.opoiType = .request
  · by_cases hId : tx.opoiRequestId = r <;> cases hOld : c.mapRequests[r]? <;>
      simp [applyOPoITransaction, requestStage, requestsFor, revealsFor, isReveal, hReq, hId,
        hOld, applyRequest, addRequest, stage]
  by_cases hResp : tx.opoiType = .response
  · by_cases hPhase : tx.opoiResponsePhase = 0
    · have hSame : (applyResponseCommit env height c tx).requestStage r = c.requestStage r := by
        show Option.map _ (Std.ExtTreeMap.modify _ _ _)[r]? = _
        rw [TreeMap.getElem?_modify_eq]
        split
        · rw [Option.map_map]
          rfl
        · rfl
      simp [applyOPoITransaction, hResp, hPhase, hSame, requestsFor, revealsFor, isReveal]
    · have hRequests : (applyResponseReveal env chainActive height c tx).mapRequests =
          c.mapRequests.modify tx.opoiRequestId (Persists.revealedRequest tx) :=
            TreeMap.modify_modify
      by_cases hId : tx.opoiRequestId = r <;> cases hOld : c.mapRequests[r]? <;>
        simp [applyOPoITransaction, hResp, hPhase, requestStage, hRequests, requestsFor,
          revealsFor, isReveal, hId, hOld, Persists.revealedRequest, stage]
  · rw [hOther hReq hResp]
    simp [requestsFor, revealsFor, isReveal, hReq, hResp]

theorem requestStage_foldl_known (hOld : ∀ tx ∈ txs, requestsFor r tx = false) :
    (txs.foldl (applyOPoITransaction env chainActive height) c).requestStage r =
      (c.requestStage r).map fun st => if txs.any (revealsFor r) then
        (st.1, .fulfilled) else st := by
  induction txs generalizing c with
  | nil => simp
  | cons tx txs ih =>
    rw [foldl_cons, ih fun t ht => hOld t (mem_cons_of_mem _ ht), requestStage_apply,
      hOld tx mem_cons_self, any_cons]
    cases c.requestStage r <;> cases revealsFor r tx <;> simp

theorem requestStage_foldl_new (hNo : ∀ tx ∈ txs, revealsFor r tx = false) :
    (txs.foldl (applyOPoITransaction env chainActive height) c).requestStage r =
      if txs.any (requestsFor r) then some (height, .pending) else c.requestStage r := by
  induction txs generalizing c with
  | nil => rfl
  | cons tx txs ih =>
    rw [foldl_cons, ih fun t ht => hNo t (mem_cons_of_mem _ ht), requestStage_apply,
      hNo tx mem_cons_self, any_cons]
    cases requestsFor r tx <;> cases c.requestStage r <;> simp

/-! ## Passes -/

def expireStage (env : Env) (height : Nat) (st : Nat × RequestStatus) : Nat × RequestStatus :=
  if st.2 = .pending ∧ env.params.nOPoIRequestExpiryBlocks ≤ asInt32 (subU32 height st.1) then
    (st.1, .expired)
  else st

theorem stage_expireRequest (q : OPoIRequest) :
    (expireRequest env height q).stage = expireStage env height q.stage := by
  unfold expireRequest expireStage
  simp only [isPending, stage, Bool.and_eq_true, beq_iff_eq, decide_eq_true_eq]
  split
  · rename_i hDue
    exact (if_pos hDue).symm
  · rename_i hNotDue
    exact (if_neg hNotDue).symm

theorem stage_closeCommitWindow (q : OPoIRequest) : (closeCommitWindow env height q).stage =
    q.stage := by
  unfold closeCommitWindow
  split <;> rfl

theorem expireStage_idem (st : Nat × RequestStatus) :
    expireStage env height (expireStage env height st) = expireStage env height st := by
  unfold expireStage
  by_cases h : st.2 = .pending ∧ env.params.nOPoIRequestExpiryBlocks ≤ asInt32 (subU32 height st.1)
  · simp [h]
  · rw [if_neg h, if_neg h]

theorem passPreserved_stages {Q : Option (Nat × RequestStatus) → Prop}
    (hQ : ∀ o, Q o → Q (o.map (expireStage env height))) :
    PassPreserved env height fun c => Q (c.requestStage r) where
  releaseStake c key h := by
    obtain ⟨_, _, hEq⟩ := releaseStake_eq env height c key
    rw [hEq]
    exact h
  expireRequests c h := by
    have hMap := hQ _ h
    simp only [requestStage, Option.map_map] at hMap ⊢
    simpa [Function.comp_def, stage_expireRequest] using hMap
  closeWindows c h := by
    simpa [requestStage, Function.comp_def, stage_closeCommitWindow] using h
  suspendOverdue _ h := h
  strikeMissed _ h := h
  assignCanary c h := by
    obtain ⟨_, hEq⟩ := assignCanary_eq env height c
    rw [hEq]
    exact h
  manifestStatus _ _ _ _ h := h
  shardPaid _ _ _ h := h
  responsePaid _ _ h := h
  resolveAuditors c key h := by
    obtain ⟨_, _, _, _, _, hEq⟩ := resolveAuditors_eq env c key
    rw [hEq]
    exact h
  resolveShardAuditors c key h := by
    obtain ⟨_, _, _, _, hEq⟩ := resolveShardAuditors_eq env c key
    rw [hEq]
    exact h
  rewardPaid _ _ h := h
  expireChallenge c key h := by
    obtain ⟨_, _, _, _, hEq⟩ := expireChallenge_eq env height c key
    rw [hEq]
    exact h

theorem requestStage_connectPasses (hPos : 0 < env.params.nOPoIRequestExpiryBlocks)
    (vtx : List CTransaction) :
    (connectPasses env height vtx c).requestStage r =
      (c.requestStage r).map (expireStage env height) := by
  -- what the pass makes of a stage is the same all the time
  have hKept : ((connectPasses env height vtx c).requestStage r).map (expireStage env height) =
      (c.requestStage r).map (expireStage env height) := by
    refine (passPreserved_stages (Q := fun o => o.map (expireStage env height) =
      (c.requestStage r).map (expireStage env height)) fun o ho => ?_).connectPasses rfl vtx
    rw [← ho, Option.map_map]
    exact congrArg (Option.map · o) (funext expireStage_idem)
  -- and it has no more to do once it has run
  have hPass : PassPreserved env height fun c =>
      (c.requestStage r).map (expireStage env height) = c.requestStage r :=
    passPreserved_stages (Q := fun o => o.map (expireStage env height) = o) fun o ho => by
      rw [ho, ho]
  have hDone : ((connectPasses env height vtx c).requestStage r).map (expireStage env height) =
      (connectPasses env height vtx c).requestStage r := by
    rw [connectPasses, blockPasses_eq, latePasses, earlyPasses, upkeepPasses]
    refine hPass.toSettlePreserved.processAuditorVerifications
      (hPass.toSettlePreserved.markPayments (hPass.toEarlyPreserved.processModelVotingWindows
        (hPass.toUpkeepPreserved.processStakes ?_)) vtx)
    have hExpired : ∀ d : OPoICache,
        ((processExpiredRequests env height d).requestStage r).map (expireStage env height) =
          (processExpiredRequests env height d).requestStage r := by
      intro d
      rw [processExpiredRequests, if_neg (Int.not_le.mpr hPos)]
      simp only [requestStage]
      cases hOld : d.mapRequests[r]? <;> simp [hOld, stage_expireRequest, expireStage_idem]
    unfold processResponseCommitWindows
    split
    · exact hExpired _
    · exact hPass.closeWindows _ (hExpired _)
  exact hDone.symm.trans hKept

/-! ## A block -/

section

variable (hBlock : AcceptedBlock env node block)

include hBlock

theorem AcceptedBlock.requests_new (hTx : tx ∈ opoiTxs block.vtx) (hFor : requestsFor r tx = true) :
    env.params.opoiActive node.nextHeight = true ∧ node.cache.requestStage r = none := by
  obtain ⟨hMem, hOPoI⟩ := mem_opoiTxs.mp hTx
  simp only [requestsFor, Bool.and_eq_true, beq_iff_eq] at hFor
  have hBranch := checkOPoITransaction_branch (hBlock.txs tx hMem).checked hOPoI
  rw [hFor.1] at hBranch
  refine ⟨(hBlock.txs tx hMem).active hOPoI, ?_⟩
  rw [requestStage, ← hFor.2, (checkRequest_eq_ok hBranch).1]
  rfl

theorem AcceptedBlock.requestStage_of_known (hStage : node.cache.requestStage r = some (b, s))
    (hTxs : ∀ tx ∈ txs, tx ∈ opoiTxs block.vtx) :
    (txs.foldl (applyOPoITransaction env node.chainActive node.nextHeight)
        node.cache).requestStage r =
      some (b, if txs.any (revealsFor r) then .fulfilled else s) := by
  rw [requestStage_foldl_known, hStage]
  · cases txs.any (revealsFor r) <;> rfl
  · intro tx hTx
    by_contra hFor
    rw [(hBlock.requests_new (hTxs tx hTx) (Bool.not_eq_false _ ▸ hFor)).2] at hStage
    cases hStage

theorem AcceptedBlock.requestStage_of_new (hStage : node.cache.requestStage r = none) :
    (opoiTxs block.vtx).any (revealsFor r) = false ∧
      (afterTxs env node block.vtx).requestStage r =
        if (opoiTxs block.vtx).any (requestsFor r) then some
          (node.nextHeight, .pending) else none := by
  have hNo : ∀ tx ∈ opoiTxs block.vtx, revealsFor r tx = false := by
    intro tx hTx
    obtain ⟨hMem, hOPoI⟩ := mem_opoiTxs.mp hTx
    by_contra hFor
    simp only [revealsFor, Bool.not_eq_false, Bool.and_eq_true, beq_iff_eq] at hFor
    obtain ⟨⟨req, hReq, _⟩, _⟩ := reveal_of_accepted (hBlock.txs tx hMem).checked hOPoI hFor.1
    rw [requestStage, ← hFor.2, hReq] at hStage
    cases hStage
  refine ⟨by simpa [any_eq_false] using hNo, ?_⟩
  rw [afterTxs, requestStage_foldl_new hNo, hStage]

theorem AcceptedBlock.not_expired (hReveal : (opoiTxs block.vtx).any (revealsFor r) = true)
    (hStage : node.cache.requestStage r = some (b, s)) : s ≠ .expired := by
  rintro rfl
  obtain ⟨tx, hTx, hFor⟩ := any_eq_true.mp hReveal
  obtain ⟨hMem, hOPoI⟩ := mem_opoiTxs.mp hTx
  simp only [revealsFor, isReveal, Bool.and_eq_true, beq_iff_eq, bne_iff_ne] at hFor
  have hBranch := checkOPoITransaction_branch (hBlock.txs tx hMem).checked hOPoI
  simp only [hFor.1.1, checkResponse, check_bind_eq_ok, rejectIf_eq_ok, Bool.false_eq_true,
    if_false]
    at hBranch
  obtain ⟨_, _, _, hPending, _⟩ := hBranch
  obtain ⟨q, hGet, hSame⟩ := Option.map_eq_some_iff.mp hStage
  rw [hFor.2, hGet, Option.any_some, isExpired, (Prod.mk.inj hSame).2] at hPending
  cases hPending

end

theorem requestStage_of_connectTip (hPos : 0 < env.params.nOPoIRequestExpiryBlocks)
    (hTip : connectTip env node block = .ok node') :
    node'.cache.requestStage r =
      if env.params.opoiActive node.nextHeight then
        ((afterTxs env node block.vtx).requestStage r).map (expireStage env node.nextHeight)
      else node.cache.requestStage r := by
  rw [(connectTip_cache hTip).2.2]
  split
  · exact requestStage_connectPasses hPos block.vtx
  · rfl

end Stages

/-! ## Runs -/

open Classical in
/-- The status that the past of a run says: was there a REVEAL in time, and is the time over? -/
noncomputable def pastStatus (E : Nat) (past : List (NodeState × CBlock)) (node : NodeState)
    (r : String) (b : Nat) : RequestStatus :=
  if RevealedBy past r (b + E) then .fulfilled
  else if b + E < node.nextHeight then .expired else .pending

structure StatusKept (env : Env) (E : Nat) (past : List (NodeState × CBlock)) (node : NodeState) :
    Prop where
  confirmed : ∀ e ∈ past, ∀ r, (opoiTxs e.2.vtx).any (requestsFor r) = true →
    ∃ s, node.cache.requestStage r = some (e.1.nextHeight, s)
  status : ∀ r b s, node.cache.requestStage r = some (b, s) →
    env.params.opoiActive b = true ∧ b < node.nextHeight ∧ s = pastStatus E past node r b
  unknown : ∀ r, node.cache.requestStage r = none → ∀ bound, ¬RevealedBy past r bound

section Runs

variable {env : Env} {E b : Nat} {past : List (NodeState × CBlock)} {node node' : NodeState}
  {block : CBlock} {r : String} {bound : Nat} {s : RequestStatus}

theorem revealedBy_snoc : RevealedBy (past ++ [(node, block)]) r bound ↔ RevealedBy past r bound ∨
      node.nextHeight ≤ bound ∧ (opoiTxs block.vtx).any (revealsFor r) = true := by
  simp [RevealedBy, or_and_right, exists_or]

theorem expireStage_eq {height : Nat} (hE : env.params.nOPoIRequestExpiryBlocks = E)
    (hHeight : height < 2147483648) (hb : b ≤ height) (s : RequestStatus) :
    expireStage env height (b, s) =
      (b, if s = .pending ∧ b + E ≤ height then .expired else s) := by
  have hSub : asInt32 (subU32 height b) = ((height - b : Nat) : Int) := by
    unfold asInt32 subU32
    omega
  unfold expireStage
  rw [hE, hSub]
  by_cases hDue : b + E ≤ height
  · cases s <;> simp [hDue, show (E : Int) ≤ ((height - b : Nat) : Int) by omega]
  · cases s <;> simp [hDue, show ¬(E : Int) ≤ ((height - b : Nat) : Int) by omega]

section

variable (hE : env.params.nOPoIRequestExpiryBlocks = E) (hPos : 0 < E)
  (hTip : connectTip env node block = .ok node')

include hE hPos hTip

theorem stage_of_known (hActive : env.params.opoiActive b = true) (hLow : b < node.nextHeight)
    (hStage : node.cache.requestStage r = some (b, s)) :
    node'.cache.requestStage r =
      some (b, if (opoiTxs block.vtx).any (revealsFor r) then .fulfilled
        else if s = .pending ∧ b + E ≤ node.nextHeight then .expired else s) := by
  rw [requestStage_of_connectTip (by omega) hTip, if_pos (Params.opoiActive_mono hLow.le hActive),
    afterTxs, (connectTip_cache hTip).1.requestStage_of_known hStage fun _ h => h, Option.map_some,
    expireStage_eq hE (connectTip_height hTip).1 hLow.le]
  cases (opoiTxs block.vtx).any (revealsFor r) <;> simp

theorem stage_of_new (hStage : node.cache.requestStage r = none) :
    node'.cache.requestStage r =
      if (opoiTxs block.vtx).any (requestsFor r) then some
        (node.nextHeight, .pending) else none := by
  have hBlock := (connectTip_cache hTip).1
  rw [requestStage_of_connectTip (by omega) hTip, (hBlock.requestStage_of_new hStage).2]
  split
  · cases (opoiTxs block.vtx).any (requestsFor r) with
    | true =>
      rw [if_pos rfl, Option.map_some, expireStage_eq hE (connectTip_height hTip).1 (Nat.le_refl _),
        if_neg (by omega)]
    | false => rfl
  · rename_i hInactive
    rw [opoiTxs_of_inactive hBlock (by simpa using hInactive), hStage]
    rfl

end

theorem StatusKept.connectTip (h : StatusKept env E past node)
    (hE : env.params.nOPoIRequestExpiryBlocks = E) (hPos : 0 < E)
    (hTip : connectTip env node block = .ok node') :
    StatusKept env E (past ++ [(node, block)]) node' := by
  have hBlock := (connectTip_cache hTip).1
  have hNext := (connectTip_height hTip).2
  refine ⟨fun e he r hAny => ?_, fun r b s hStage => ?_, fun r hStage bound => ?_⟩
  · rcases mem_append.mp he with hOld | hNew
    · obtain ⟨s, hStage⟩ := h.confirmed e hOld r hAny
      obtain ⟨hActive, hLow, _⟩ := h.status r _ s hStage
      exact ⟨_, stage_of_known hE hPos hTip hActive hLow hStage⟩
    · cases mem_singleton.mp hNew
      obtain ⟨tx, hTx, hFor⟩ := any_eq_true.mp hAny
      exact ⟨_, (stage_of_new hE hPos hTip (hBlock.requests_new hTx hFor).2).trans (if_pos hAny)⟩
  · cases hOld : node.cache.requestStage r with
    | none =>
      rw [stage_of_new hE hPos hTip hOld] at hStage
      split at hStage
      · rename_i hAny
        cases hStage
        obtain ⟨tx, hTx, hFor⟩ := any_eq_true.mp hAny
        refine ⟨(hBlock.requests_new hTx hFor).1, by omega, ?_⟩
        rw [pastStatus, revealedBy_snoc, (hBlock.requestStage_of_new hOld).1,
          if_neg (by simp [h.unknown r hOld]), if_neg (by omega)]
      · cases hStage
    | some st =>
      obtain ⟨hActive, hLow, hPast⟩ := h.status r st.1 st.2 hOld
      rw [stage_of_known hE hPos hTip hActive hLow hOld] at hStage
      cases hStage
      refine ⟨hActive, by omega, ?_⟩
      rw [pastStatus, revealedBy_snoc, hNext]
      -- a REVEAL comes while the request is pending, or after another one
      cases hReveal : (opoiTxs block.vtx).any (revealsFor r) with
      | true =>
        have hNot := hBlock.not_expired hReveal hOld
        rw [hPast, pastStatus] at hNot
        by_cases hIn : RevealedBy past r (st.1 + E)
        · simp [hIn]
        · have hTime : node.nextHeight ≤ st.1 + E :=
            Nat.not_lt.mp fun hLate => hNot (by rw [if_neg hIn, if_pos hLate])
          simp [hTime]
      | false =>
        rw [hPast, pastStatus]
        by_cases hIn : RevealedBy past r (st.1 + E)
        · simp [hIn]
        · by_cases hOver : st.1 + E < node.nextHeight
          · simp [hIn, hOver, hOver.trans (Nat.lt_succ_self _)]
          · simp only [Nat.lt_succ_iff]
            simp [hIn, hOver]
  · have hOld : node.cache.requestStage r = none := by
      cases hOld : node.cache.requestStage r with
      | none => rfl
      | some st =>
        obtain ⟨hActive, hLow, _⟩ := h.status r st.1 st.2 hOld
        rw [stage_of_known hE hPos hTip hActive hLow hOld] at hStage
        cases hStage
    rw [revealedBy_snoc, (hBlock.requestStage_of_new hOld).1]
    simp [h.unknown r hOld]

end Runs

/-- On every forward run with an expiry time: a REQUEST that was confirmed is on record with its
    height; it is expired at the end of a block exactly when its time is over and no REVEAL came
    in time; a block changes the status of pending requests only, and applies no REVEAL for an
    expired one. -/
theorem requests_move_one_way (env : Env) (E : Nat) (hE : env.params.nOPoIRequestExpiryBlocks = E)
    (hPos : 0 < E) (blocks : List CBlock) (node : NodeState)
    (hRun : PlainRun env blocks node) :
    (∀ e ∈ blockTrace env blocks, ∀ tx ∈ opoiTxs e.2.vtx,
      tx.opoiType = .request → ∃ q, node.cache.mapRequests[tx.opoiRequestId]? = some q ∧
        q.blockHeight = e.1.nextHeight) ∧
    (∀ (r : String) (q : OPoIRequest), node.cache.mapRequests[r]? = some q →
      (q.status = .expired ↔ q.blockHeight + E < node.nextHeight ∧
        ¬RevealedBy (blockTrace env blocks) r (q.blockHeight + E))) ∧
    ∀ block node', connectTip env node block = .ok node' →
      (∀ (r : String) (q : OPoIRequest), node.cache.mapRequests[r]? = some q →
        ∃ q', node'.cache.mapRequests[r]? = some q' ∧ q'.blockHeight = q.blockHeight ∧
          (q'.status = q.status ∨ q.status = .pending)) ∧
      ∀ before tx after, opoiTxs block.vtx = before ++ tx :: after → isReveal tx = true →
        ∀ q, (before.foldl (applyOPoITransaction env node.chainActive node.nextHeight)
          node.cache).mapRequests[tx.opoiRequestId]? = some q → q.status ≠ .expired := by
  have hKept : StatusKept env E (blockTrace env blocks) node :=
    Run.Steps.invariant_trace (StatusKept env E) (fun _ _ _ _ h _ hTip => h.connectTip hE hPos hTip)
      hRun [] ⟨fun _ he => (by cases he), fun _ _ _ hStage => (by cases hStage),
        fun _ _ _ hNone => (by obtain ⟨_, he, _⟩ := hNone; cases he)⟩
  have hStage : ∀ {c : OPoICache} {r : String} {q : OPoIRequest}, c.mapRequests[r]? = some q →
      c.requestStage r = some q.stage := fun hGet => by rw [requestStage, hGet]; rfl
  refine ⟨fun e he tx hTx hType => ?_, fun r q hGet => ?_, fun block node' hTip =>
    ⟨fun r q hGet => ?_, fun before tx after hSplit hReveal q hGet => ?_⟩⟩
  · obtain ⟨s, hSome⟩ := hKept.confirmed e he tx.opoiRequestId
      (any_eq_true.mpr ⟨tx, hTx, by simp [requestsFor, hType]⟩)
    obtain ⟨q, hGet, hSame⟩ := Option.map_eq_some_iff.mp hSome
    exact ⟨q, hGet, congrArg Prod.fst hSame⟩
  · rw [(hKept.status r _ _ (hStage hGet)).2.2, pastStatus]
    by_cases hIn : RevealedBy (blockTrace env blocks) r (q.blockHeight + E)
    · simp [hIn]
    · by_cases hOver : q.blockHeight + E < node.nextHeight
      · simp [hIn, hOver]
      · simp [hIn, hOver]
  · obtain ⟨hActive, hLow, _⟩ := hKept.status r _ _ (hStage hGet)
    obtain ⟨q', hGet', hSame⟩ := Option.map_eq_some_iff.mp
      (stage_of_known hE hPos hTip hActive hLow (hStage hGet))
    refine ⟨q', hGet', congrArg Prod.fst hSame, ?_⟩
    have hStatus : q'.status = _ := congrArg Prod.snd hSame
    cases hReveal : (opoiTxs block.vtx).any (revealsFor r) with
    | true =>
      have hNot := (connectTip_cache hTip).1.not_expired hReveal (hStage hGet)
      rw [hReveal, if_pos rfl] at hStatus
      cases hOld : q.status with
      | pending => exact .inr rfl
      | fulfilled => exact .inl hStatus
      | expired => exact absurd hOld hNot
    | false =>
      rw [hReveal, if_neg Bool.false_ne_true] at hStatus
      split at hStatus
      · rename_i hDue
        exact .inr hDue.1
      · exact .inl hStatus
  -- The check of the REVEAL saw the request before the block, where it was not expired.
  · have hBlock := (connectTip_cache hTip).1
    have hMem : tx ∈ opoiTxs block.vtx := by simp [hSplit]
    obtain ⟨hIn, hOPoI⟩ := mem_opoiTxs.mp hMem
    obtain ⟨⟨req, hReq, _⟩, _⟩ := reveal_of_accepted (hBlock.txs tx hIn).checked hOPoI hReveal
    have hNot := hBlock.not_expired
      (any_eq_true.mpr ⟨tx, hMem, by simp [revealsFor, hReveal]⟩) (hStage hReq)
    have hNow := (hStage hGet).symm.trans (hBlock.requestStage_of_known (hStage hReq) fun t ht => by
      simp [hSplit, ht])
    have hStatus : q.status = _ := congrArg Prod.snd (Option.some.inj hNow)
    rw [hStatus]
    split
    · simp
    · exact hNot

def sampleUnanswered : List CBlock :=
  [sampleFunding, sampleBlock 3 [sampleRequest "r" "alice" 2 1], sampleBlock 4 [], sampleBlock 5 []]

theorem requests_move_one_way_of_unanswered :
    let env := sampleEnv { sampleParams with nOPoIRequestExpiryBlocks := 2 }
    ∃ node q, PlainRun env sampleUnanswered node ∧
      node.cache.mapRequests["r"]? = some q ∧ q.status = .expired ∧
      q.blockHeight + 2 < node.nextHeight ∧
      ¬RevealedBy (blockTrace env sampleUnanswered) "r"
        (q.blockHeight + 2) := by
  intro env
  obtain ⟨node, hRun, q, hGet, hStatus⟩ : ∃ node, PlainRun env sampleUnanswered node ∧
      ∃ q, node.cache.mapRequests["r"]? = some q ∧ q.status = .expired :=
    Run.exists_steps .other (by decide +kernel)
  have hOneWay := requests_move_one_way env 2 rfl (by decide) sampleUnanswered node hRun
  exact ⟨node, q, hRun, hGet, hStatus, (hOneWay.2.1 "r" q hGet).mp hStatus⟩

end CloudService
