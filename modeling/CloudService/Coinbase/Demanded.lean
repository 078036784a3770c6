/-
  What the two coinbase checks demand of a block: obligations within the OPoI budget, and
  challenger rewards within the value of the coinbase.
-/

import CloudService.Library.Greedy
import CloudService.OPoI.Payments
import Mathlib.Data.List.Perm.Subperm

namespace CloudService

open List

/-- An obligation with what it is owed for. The payments for shards are summed for each miner. -/
inductive Owed where
  | response (p : OPoIResponsePayment)
  | shards (miner : String) (sum : CAmount)
  | verifiable (p : OPoIResponsePayment)
  | auditSample (p : OPoIResponsePayment)
deriving DecidableEq

namespace Owed

def obligation : Owed → Obligation
  | .response p => ⟨.response, p.minerAddress, p.amount⟩
  | .shards miner sum => ⟨.shard, miner, sum⟩
  | .verifiable p => ⟨.verifiable, p.minerAddress, p.amount⟩
  | .auditSample p => ⟨.auditSample, p.minerAddress, p.amount⟩

def amount (w : Owed) : CAmount := w.obligation.amount

end Owed

def payTo (env : Env) (address : String) (amount : CAmount) : CTxOut :=
  ⟨amount, getScriptForDestination (env.decodeDestination address)⟩

def Owed.output (env : Env) (w : Owed) : CTxOut := payTo env w.obligation.address w.amount

def OPoIChallengerReward.output (env : Env) (w : OPoIChallengerReward) : CTxOut :=
  payTo env w.challengerAddress w.rewardAmount

section Demanded

variable (env : Env) (c : OPoICache) (vtx : List CTransaction) (chainActive : List Uint256)
  (nHeight : Nat)

def owed : List Owed :=
  (immediatePayments env c vtx chainActive nHeight).map .response ++
    (aggregateShardPayments (getShardPaymentsForBlock env c vtx)).map (fun p => .shards p.1 p.2) ++
    (getVerifiablePaymentsForBlock env c vtx).map .verifiable ++
    (getAuditSampledOpenPaymentsForBlock env c vtx nHeight).map .auditSample

/-- What `CheckOPoIPayments` demands: what is owed, within the budget. -/
def demanded : List Owed :=
  Greedy.taken Owed.amount (env.opoiBudget nHeight) 0 (owed env c vtx chainActive nHeight)

/-- What `CheckOPoIChallengerRewards` demands of a coinbase with a given value. -/
def demandedRewards (value : CAmount) : List OPoIChallengerReward :=
  Greedy.taken (·.rewardAmount) value 0 (getChallengerRewardsAtHeight env c vtx)

def treasuryReward : CAmount :=
  ((getChallengerRewardsAtHeight env c vtx).map (·.treasuryAmount)).sum

theorem obligations_eq :
    obligations env c vtx chainActive nHeight =
      (owed env c vtx chainActive nHeight).map Owed.obligation := by
  simp [obligations, owed, Owed.obligation, map_append, Function.comp_def]

end Demanded

/-- Every response stands under the id of its request. -/
def ResponsesKeyed (c : OPoICache) : Prop :=
  ∀ (key : String) (resp : OPoIResponse), c.mapResponses[key]? = some resp → resp.requestId = key

section Responses

variable {env : Env} {c : OPoICache} {vtx : List CTransaction} {chainActive : List Uint256}
  {nHeight : Nat} {p : OPoIResponsePayment}

/-- A recorded response that is to be paid. -/
structure RecordDue (env : Env) (c : OPoICache) (vtx : List CTransaction) (nHeight : Nat)
    (resp : OPoIResponse) (req : OPoIRequest) : Prop where
  recorded : ∃ r : String, c.mapResponses[r]? = some resp
  unpaid : c.isResponsePaid resp.requestId = false
  request : c.mapRequests[resp.requestId]? = some req
  payment : 0 < req.payment
  due : if req.isVerifiable then mergedMajority env c vtx resp.requestId = some AUDITOR_VERIFY_PASS
    else resp.auditSelected = true ∧ auditSampledPayNow env c vtx nHeight resp = true

theorem RecordDue.response {resp : OPoIResponse} {req : OPoIRequest}
    (h : RecordDue env c vtx nHeight resp req) (hKeyed : ResponsesKeyed c) :
    c.mapResponses[resp.requestId]? = some resp := by
  obtain ⟨r, hResp⟩ := h.recorded
  rwa [hKeyed r resp hResp]

theorem mem_getVerifiablePaymentsForBlock (nHeight : Nat) :
    p ∈ getVerifiablePaymentsForBlock env c vtx ↔ ∃ resp req,
      RecordDue env c vtx nHeight resp req ∧ req.isVerifiable = true ∧
        p = responsePayment req resp := by
  simp only [getVerifiablePaymentsForBlock, mem_filterMap, TreeMap.mem_vals]
  refine exists_congr fun resp => ⟨fun ⟨hResp, hPay⟩ => ?_, ?_⟩
  · cases hReq : c.mapRequests[resp.requestId]? with
    | none => simp [hReq] at hPay
    | some req =>
      simp only [hReq, Option.ite_none_left_eq_some, Option.ite_none_right_eq_some, not_or,
        Bool.not_eq_true, Bool.not_eq_false, Int.not_le, Option.some.injEq] at hPay
      obtain ⟨hUnpaid, ⟨hVerifiable, hPayment⟩, hPass, rfl⟩ := hPay
      exact ⟨req, ⟨hResp, hUnpaid, hReq, hPayment, by rwa [if_pos hVerifiable]⟩, hVerifiable, rfl⟩
  · rintro ⟨req, h, hVerifiable, rfl⟩
    have hPass := h.due
    rw [if_pos hVerifiable] at hPass
    exact ⟨h.recorded, by simp [h.unpaid, h.request, hVerifiable, h.payment, hPass]⟩

theorem mem_getAuditSampledOpenPaymentsForBlock :
    p ∈ getAuditSampledOpenPaymentsForBlock env c vtx nHeight ↔ ∃ resp req,
      RecordDue env c vtx nHeight resp req ∧ req.isVerifiable = false ∧
        p = responsePayment req resp := by
  simp only [getAuditSampledOpenPaymentsForBlock, mem_filterMap, TreeMap.mem_vals]
  refine exists_congr fun resp => ⟨fun ⟨hResp, hPay⟩ => ?_, ?_⟩
  · cases hReq : c.mapRequests[resp.requestId]? with
    | none => simp [hReq] at hPay
    | some req =>
      simp only [hReq, Option.ite_none_left_eq_some, Option.ite_none_right_eq_some, not_or,
        Bool.not_eq_true, Bool.not_eq_false, Int.not_le, Option.some.injEq] at hPay
      obtain ⟨⟨hSelected, hUnpaid⟩, ⟨hOpen, hPayment⟩, hNow, rfl⟩ := hPay
      exact ⟨req, ⟨hResp, hUnpaid, hReq, hPayment, by simp [hOpen, hSelected, hNow]⟩, hOpen, rfl⟩
  · rintro ⟨req, h, hOpen, rfl⟩
    have hDue := h.due
    simp only [hOpen, Bool.false_eq_true, if_false] at hDue
    exact ⟨h.recorded, by simp [h.unpaid, h.request, hOpen, h.payment, hDue]⟩

/-- What is owed for a recorded response. -/
def Owed.recorded (req : OPoIRequest) (resp : OPoIResponse) : Owed :=
  if req.isVerifiable then .verifiable (responsePayment req resp)
  else .auditSample (responsePayment req resp)

theorem mem_owed {w : Owed} :
    w ∈ owed env c vtx chainActive nHeight ↔
      (∃ p ∈ immediatePayments env c vtx chainActive nHeight, w = .response p) ∨
      (∃ p ∈ aggregateShardPayments (getShardPaymentsForBlock env c vtx), w = .shards p.1 p.2) ∨
      ∃ resp req, RecordDue env c vtx nHeight resp req ∧ w = .recorded req resp := by
  simp only [owed, mem_append, mem_map, or_assoc, eq_comm (a := w)]
  refine or_congr_right (or_congr_right ?_)
  constructor
  · rintro (⟨p, hp, rfl⟩ | ⟨p, hp, rfl⟩)
    · obtain ⟨resp, req, h, hVerifiable, rfl⟩ := (mem_getVerifiablePaymentsForBlock nHeight).mp hp
      exact ⟨resp, req, h, if_pos hVerifiable⟩
    · obtain ⟨resp, req, h, hOpen, rfl⟩ := mem_getAuditSampledOpenPaymentsForBlock.mp hp
      exact ⟨resp, req, h, by simp [Owed.recorded, hOpen]⟩
  · rintro ⟨resp, req, h, rfl⟩
    cases hKind : req.isVerifiable with
    | true =>
      exact .inl ⟨_, (mem_getVerifiablePaymentsForBlock nHeight).mpr ⟨resp, req, h, hKind, rfl⟩,
        by simp [Owed.recorded, hKind]⟩
    | false =>
      exact .inr ⟨_, mem_getAuditSampledOpenPaymentsForBlock.mpr ⟨resp, req, h, hKind, rfl⟩,
        by simp [Owed.recorded, hKind]⟩

@[simp] theorem Owed.obligation_recorded (req : OPoIRequest) (resp : OPoIResponse) :
    (recorded req resp).obligation.address = resp.minerAddress ∧
      (recorded req resp).amount = totalPayment req resp.tokenCount := by
  unfold recorded
  split <;> exact ⟨rfl, rfl⟩

theorem shardPaymentsFor_cases (r : String) (i : Nat) :
    shardPaymentsFor env c vtx r i = [] ∨
      ∃ req majority share, c.mapRequests[r]? = some req ∧ 0 < req.payment ∧
        computeShardMajority (mergeShardResults vtx r i (c.listShardResults r i))
          (c.getEffectiveShardMinSubmissions env.params req i) = some majority ∧
        shardShare env c req i = some share ∧ majority.agreeing ≠ [] ∧ 0 < share ∧
        0 < perMinerAmount req share majority ∧
        shardPaymentsFor env c vtx r i =
          majority.agreeing.map fun addr => ⟨r, i, addr, perMinerAmount req share majority⟩ := by
  unfold shardPaymentsFor
  split
  · exact .inl rfl
  · split
    · exact .inl rfl
    · rename_i req hReq
      split
      · exact .inl rfl
      · rename_i hPayment
        dsimp only
        split
        · rename_i majority share hMajority hShare
          split
          · exact .inl rfl
          · rename_i hPays
            simp only [not_or, Int.not_le, List.isEmpty_iff] at hPays
            exact .inr ⟨req, majority, share, hReq, Int.not_le.mp hPayment, hMajority, hShare,
              hPays.1, hPays.2.1, hPays.2.2, rfl⟩
        · exact .inl rfl

theorem mem_immediatePayments :
    p ∈ immediatePayments env c vtx chainActive nHeight ↔
      ∃ tx ∈ blockTxs vtx .response, ∃ req, tx.opoiResponsePhase = 1 ∧
        c.mapRequests[tx.opoiRequestId]? = some req ∧ 0 < req.payment ∧
        req.isVerifiable = false ∧
        (evaluateOPoIAuditSample env chainActive c tx.opoiRequestId tx.opoiMinerAddress
          nHeight).1 = false ∧
        p = ⟨tx.opoiRequestId, tx.opoiMinerAddress, totalPayment req tx.opoiTokenCount⟩ := by
  unfold immediatePayments immediatePayment
  rw [mem_filterMap]
  refine exists_congr fun tx => and_congr_right fun _ => ⟨fun hPay => ?_, ?_⟩
  · cases hReq : c.mapRequests[tx.opoiRequestId]? with
    | none => simp [hReq] at hPay
    | some req =>
      simp only [hReq, Option.ite_none_left_eq_some, not_or, ne_eq, not_not, Bool.not_eq_true,
        Int.not_le, Option.some.injEq] at hPay
      obtain ⟨hPhase, ⟨hPayment, hOpen⟩, hMissed, rfl⟩ := hPay
      exact ⟨req, hPhase, rfl, hPayment, hOpen, hMissed, rfl⟩
  · rintro ⟨req, hPhase, hReq, hPayment, hOpen, hMissed, rfl⟩
    simp [hPhase, hReq, hPayment, hOpen, hMissed]

end Responses

section Checks

variable {env : Env} {c : OPoICache} {coinbase : CTransaction} {txs : List CTransaction}
  {chainActive : List Uint256} {nHeight : Nat}

/-! ## Claiming outputs -/

def unclaimed (outputs : List (CTxOut × Bool)) : List CTxOut :=
  (outputs.filter fun o => !o.2).map Prod.fst

theorem unclaimed_fresh (vout : List CTxOut) : unclaimed (vout.map (·, false)) = vout := by
  induction vout with
  | nil => rfl
  | cons out vout ih => simpa [unclaimed] using ih

theorem unclaimed_cons (out : CTxOut) (used : Bool) (outputs : List (CTxOut × Bool)) :
    unclaimed ((out, used) :: outputs) =
      if used then unclaimed outputs else out :: unclaimed outputs := by
  cases used with
  | true => simp [unclaimed]
  | false => simp [unclaimed]

theorem claimOutput_eq (claim : CTxOut) (outputs : List (CTxOut × Bool)) :
    (claimOutput claim.scriptPubKey claim.nValue outputs).map unclaimed =
      if claim ∈ unclaimed outputs then some ((unclaimed outputs).erase claim) else none := by
  induction outputs with
  | nil => rfl
  | cons entry outputs ih =>
    obtain ⟨out, used⟩ := entry
    rw [claimOutput, unclaimed_cons]
    cases used with
    | true =>
      simpa [Function.comp_def, unclaimed_cons] using ih
    | false =>
      by_cases hMatch : out = claim
      · subst hMatch
        simp [unclaimed_cons]
      · have hOther : ¬(false = false ∧ out.scriptPubKey = claim.scriptPubKey ∧
            out.nValue = claim.nValue) := by
          rintro ⟨_, hScript, hValue⟩
          cases out
          cases claim
          exact hMatch (by simp_all)
        have hTail : (claimOutput claim.scriptPubKey claim.nValue outputs).map
            (unclaimed ∘ ((out, false) :: ·)) =
            ((claimOutput claim.scriptPubKey claim.nValue outputs).map unclaimed).map
              (out :: ·) := by
          rw [Option.map_map]
          rfl
        rw [if_neg hOther, Option.map_map, hTail, ih]
        by_cases hMem : claim ∈ unclaimed outputs
        · simp [hMem, erase_cons_tail, hMatch]
        · simp [hMem, Ne.symm hMatch]

theorem cons_subperm_iff {α : Type} [DecidableEq α] {a : α} {as pool : List α} :
    (a :: as).Subperm pool ↔ a ∈ pool ∧ as.Subperm (pool.erase a) := by
  constructor
  · intro h
    refine ⟨h.subset mem_cons_self, ?_⟩
    simpa using h.erase a
  · rintro ⟨hMem, hRest⟩
    exact ((subperm_cons a).mpr hRest).trans (perm_cons_erase hMem).symm.subperm

/-! ## CheckOPoIPayments -/

/-- The part of `checkObligation` for an obligation within the budget. -/
def claimObligation (env : Env) (st : PaymentCheck) (w : Owed) : Checked PaymentCheck :=
  if isValidDestination (env.decodeDestination w.obligation.address) = false then
    .error (dos 100 w.obligation.group.invalidReason)
  else
    match claimOutput (getScriptForDestination (env.decodeDestination w.obligation.address))
      w.amount
        st.outputs with
    | none => .error (dos 100 w.obligation.group.missingReason)
    | some outputs => .ok ⟨outputs, st.totalPaymentsChecked + w.amount⟩

theorem claimObligation_eq_ok {st st' : PaymentCheck} {w : Owed}
    (h : claimObligation env st w = .ok st') :
    isValidDestination (env.decodeDestination w.obligation.address) = true ∧
      w.output env ∈ unclaimed st.outputs ∧
      unclaimed st'.outputs = (unclaimed st.outputs).erase (w.output env) ∧
      st'.totalPaymentsChecked = st.totalPaymentsChecked + w.amount := by
  unfold claimObligation at h
  split at h
  · cases h
  · rename_i hValid
    split at h
    · cases h
    · rename_i outputs hClaim
      cases h
      have hEq := (claimOutput_eq (w.output env) st.outputs).symm.trans
        (congrArg (Option.map unclaimed) hClaim)
      split at hEq
      · rename_i hMem
        exact ⟨by simpa using hValid, hMem, (Option.some.inj hEq).symm, rfl⟩
      · cases hEq

theorem claimObligation_succeeds {st : PaymentCheck} {w : Owed}
    (hValid : isValidDestination (env.decodeDestination w.obligation.address) = true)
    (hMem : w.output env ∈ unclaimed st.outputs) :
    ∃ st', claimObligation env st w = .ok st' := by
  have hEq := claimOutput_eq (w.output env) st.outputs
  rw [if_pos hMem] at hEq
  obtain ⟨outputs, hClaim, _⟩ := Option.map_eq_some_iff.mp hEq
  refine ⟨⟨outputs, st.totalPaymentsChecked + w.amount⟩, ?_⟩
  unfold claimObligation
  rw [if_neg (by simp [hValid])]
  change (match claimOutput (w.output env).scriptPubKey (w.output env).nValue st.outputs with
    | none => _
    | some outputs => _) = _
  rw [hClaim]

theorem claims_succeed_iff (ws : List Owed) (st : PaymentCheck) :
    (∃ st', ws.foldlM (claimObligation env) st = .ok st') ↔
      (∀ w ∈ ws, isValidDestination (env.decodeDestination w.obligation.address) = true) ∧
        (ws.map (Owed.output env)).Subperm (unclaimed st.outputs) := by
  induction ws generalizing st with
  | nil => simp [pure, Except.pure]
  | cons w ws ih =>
    simp only [foldlM_cons, except_bind_eq_ok, map_cons, cons_subperm_iff, forall_mem_cons]
    constructor
    · rintro ⟨st', mid, hFirst, hRest⟩
      obtain ⟨hValid, hMem, hUnclaimed, _⟩ := claimObligation_eq_ok hFirst
      have hOthers := (ih mid).mp ⟨st', hRest⟩
      rw [hUnclaimed] at hOthers
      exact ⟨⟨hValid, hOthers.1⟩, hMem, hOthers.2⟩
    · rintro ⟨⟨hValid, hValids⟩, hMem, hOthers⟩
      obtain ⟨mid, hFirst⟩ : ∃ mid, claimObligation env st w = .ok mid :=
        claimObligation_succeeds hValid hMem
      have hUnclaimed := (claimObligation_eq_ok hFirst).2.2.1
      obtain ⟨st', hRest⟩ := (ih mid).mpr ⟨hValids, by rwa [hUnclaimed]⟩
      exact ⟨st', mid, hFirst, hRest⟩

theorem checkOPoIPayments_eq_ok :
    checkOPoIPayments env c (coinbase :: txs) chainActive nHeight = .ok () ↔
      (∀ w ∈ demanded env c (coinbase :: txs) chainActive nHeight,
        isValidDestination (env.decodeDestination w.obligation.address) = true) ∧
      ((demanded env c (coinbase :: txs) chainActive nHeight).map (Owed.output env)).Subperm
        coinbase.vout := by
  have hLoop : (owed env c (coinbase :: txs) chainActive nHeight).foldlM
      (fun st w => checkObligation env (env.opoiBudget nHeight) st w.obligation)
        ⟨coinbase.vout.map (·, false), 0⟩ =
      (demanded env c (coinbase :: txs) chainActive nHeight).foldlM (claimObligation env)
        ⟨coinbase.vout.map (·, false), 0⟩ :=
    Greedy.foldlM_eq_taken Owed.amount (env.opoiBudget nHeight) PaymentCheck.totalPaymentsChecked
      _ _ (fun _ _ hOver => if_pos hOver) (fun _ _ hWithin => if_neg hWithin)
      (fun _ _ _ h => (claimObligation_eq_ok h).2.2.2) _ _
  rw [checkOPoIPayments, obligations_eq, foldlM_map, hLoop, except_bind_eq_ok]
  have hClaims := @claims_succeed_iff env
    (demanded env c (coinbase :: txs) chainActive nHeight) ⟨coinbase.vout.map (·, false), 0⟩
  rw [unclaimed_fresh] at hClaims
  rw [← hClaims]
  exact ⟨fun ⟨st', h, _⟩ => ⟨st', h⟩, fun ⟨st', h⟩ => ⟨st', h, rfl⟩⟩

/-! ## CheckOPoIChallengerRewards -/

/-- The part of `checkReward` for a reward within the value of the coinbase. -/
def findReward (env : Env) (vout : List CTxOut) (checkedTotal : CAmount)
    (w : OPoIChallengerReward) : Checked CAmount :=
  if isValidDestination (env.decodeDestination w.challengerAddress) = false then
    .error (dos 100 "bad-cb-opoi-invalid-challenger-addr")
  else if vout.any fun out =>
      out.scriptPubKey == getScriptForDestination (env.decodeDestination w.challengerAddress) &&
        out.nValue == w.rewardAmount then
    .ok (checkedTotal + w.rewardAmount)
  else .error (dos 100 "bad-cb-opoi-missing-challenger-reward")

theorem any_output_iff {vout : List CTxOut} {script : CScript} {amount : CAmount} :
    (vout.any fun out => out.scriptPubKey == script && out.nValue == amount) = true ↔
      ⟨amount, script⟩ ∈ vout := by
  rw [any_eq_true]
  constructor
  · rintro ⟨⟨value, script'⟩, hMem, hEq⟩
    simp only [Bool.and_eq_true, beq_iff_eq] at hEq
    rwa [← hEq.1, ← hEq.2]
  · intro hMem
    exact ⟨_, hMem, by simp⟩

theorem findReward_eq_ok {vout : List CTxOut} {checkedTotal total : CAmount}
    {w : OPoIChallengerReward} :
    findReward env vout checkedTotal w = .ok total ↔
      isValidDestination (env.decodeDestination w.challengerAddress) = true ∧
        w.output env ∈ vout ∧ total = checkedTotal + w.rewardAmount := by
  have hAny : (vout.any fun out => out.scriptPubKey ==
      getScriptForDestination (env.decodeDestination w.challengerAddress) &&
        out.nValue == w.rewardAmount) = true ↔ w.output env ∈ vout := any_output_iff
  unfold findReward
  cases isValidDestination (env.decodeDestination w.challengerAddress) with
  | false => simp
  | true =>
    by_cases hMem : w.output env ∈ vout
    · simp [hAny.mpr hMem, hMem, eq_comm]
    · rw [if_neg (by simp), if_neg (mt hAny.mp hMem)]
      simp [hMem]

theorem findRewards_eq_ok {vout : List CTxOut} {total : CAmount} (ws : List OPoIChallengerReward)
    (checkedTotal : CAmount) :
    ws.foldlM (findReward env vout) checkedTotal = .ok total ↔
      (∀ w ∈ ws, isValidDestination (env.decodeDestination w.challengerAddress) = true ∧
        w.output env ∈ vout) ∧ total = checkedTotal + (ws.map (·.rewardAmount)).sum := by
  induction ws generalizing checkedTotal with
  | nil =>
    simp only [foldlM_nil, pure, Except.pure, Except.ok.injEq, not_mem_nil, false_implies,
      implies_true, true_and, map_nil, sum_nil, Int.add_zero]
    exact eq_comm
  | cons w ws ih =>
    simp only [foldlM_cons, except_bind_eq_ok, findReward_eq_ok, ih, forall_mem_cons,
      map_cons, sum_cons]
    constructor
    · rintro ⟨mid, ⟨hValid, hMem, rfl⟩, hRest, rfl⟩
      exact ⟨⟨⟨hValid, hMem⟩, hRest⟩, by rw [Int.add_assoc]⟩
    · rintro ⟨⟨⟨hValid, hMem⟩, hRest⟩, rfl⟩
      exact ⟨_, ⟨hValid, hMem, rfl⟩, hRest, by rw [Int.add_assoc]⟩

theorem checkTreasury_eq_ok {vout : List CTxOut} {value checkedTotal total : CAmount} :
    checkTreasury env vout value checkedTotal total = .ok () ↔
      (0 < total → checkedTotal + total ≤ value → payTo env env.treasuryAddress total ∈ vout) := by
  have hAny : (vout.any fun out => out.scriptPubKey ==
      getScriptForDestination (env.decodeDestination env.treasuryAddress) &&
        out.nValue == total) = true ↔ payTo env env.treasuryAddress total ∈ vout := any_output_iff
  unfold checkTreasury
  by_cases hPos : total ≤ 0
  · simp [hPos, Int.not_lt.mpr hPos]
  · by_cases hOver : value < checkedTotal + total
    · simp [hPos, hOver, Int.not_le.mpr hOver]
    · rw [if_neg hPos, if_neg hOver]
      dsimp only
      rw [env.treasury_valid, if_neg (by simp)]
      simp only [Int.not_le.mp hPos, Int.not_lt.mp hOver, forall_const]
      rw [← hAny]
      split
      · rename_i hFound
        simp [hFound]
      · rename_i hMissing
        simp [hMissing]

theorem checkOPoIChallengerRewards_eq_ok :
    checkOPoIChallengerRewards env c (coinbase :: txs) = .ok () ↔
      (∀ w ∈ demandedRewards env c (coinbase :: txs) coinbase.getValueOut,
        isValidDestination (env.decodeDestination w.challengerAddress) = true ∧
          w.output env ∈ coinbase.vout) ∧
      (0 < treasuryReward env c (coinbase :: txs) →
        ((demandedRewards env c (coinbase :: txs) coinbase.getValueOut).map (·.rewardAmount)).sum +
          treasuryReward env c (coinbase :: txs) ≤ coinbase.getValueOut →
        payTo env env.treasuryAddress (treasuryReward env c (coinbase :: txs)) ∈
          coinbase.vout) := by
  have hLoop : (getChallengerRewardsAtHeight env c (coinbase :: txs)).foldlM
      (checkReward env coinbase.vout coinbase.getValueOut) 0 =
      (demandedRewards env c (coinbase :: txs) coinbase.getValueOut).foldlM
        (findReward env coinbase.vout) 0 :=
    Greedy.foldlM_eq_taken (fun w : OPoIChallengerReward => w.rewardAmount) coinbase.getValueOut id
      _ _ (fun _ _ hOver => if_pos hOver) (fun _ _ hWithin => if_neg hWithin)
      (fun _ _ _ h => (findReward_eq_ok.mp h).2.2) _ _
  unfold checkOPoIChallengerRewards
  simp only [hLoop, except_bind_eq_ok, findRewards_eq_ok, Int.zero_add]
  constructor
  · rintro ⟨_, ⟨hRewards, rfl⟩, hTreasury⟩
    exact ⟨hRewards, checkTreasury_eq_ok.mp hTreasury⟩
  · rintro ⟨hRewards, hTreasury⟩
    exact ⟨_, ⟨hRewards, rfl⟩, checkTreasury_eq_ok.mpr hTreasury⟩

end Checks

end CloudService
