/-
  What the passes of a block mark as paid. The passes before leave the records that the
  payments are made of.
-/

import CloudService.Challenges.Rewards
import CloudService.Coinbase.Demanded
import CloudService.OPoI.Persistence

namespace CloudService

open OPoICache

structure SameRecords (c c' : OPoICache) : Prop where
  responses : c'.mapResponses = c.mapResponses
  submissions : c'.mapShardResults = c.mapShardResults
  votes : c'.mapAuditorVerifications = c.mapAuditorVerifications
  paidShards : c'.setPaidShards = c.setPaidShards
  paidResponses : c'.setPaidResponses = c.setPaidResponses
  requests : ∀ r : String,
    c'.mapRequests[r]?.map OPoIRequest.terms = c.mapRequests[r]?.map OPoIRequest.terms

/-- The passes of `ConnectBlock` in front of the payment marks. -/
def beforePayments (env : Env) (height : Nat) (vtx : List CTransaction) (c : OPoICache) :
    OPoICache :=
  earlyPasses env height (expireChallenges env height (processChallengerRewardPayments env vtx c))

theorem connectPasses_eq (env : Env) (height : Nat) (vtx : List CTransaction) (c : OPoICache) :
    connectPasses env height vtx c = processAuditorVerifications env
      (markPayments env height (beforePayments env height vtx c) vtx) := rfl

section Passes

variable {env : Env} {height : Nat} {vtx : List CTransaction} {c c' c'' : OPoICache}

/-! ## The passes before the marks -/

theorem SameRecords.refl (c : OPoICache) : SameRecords c c :=
    ⟨rfl, rfl, rfl, rfl, rfl, fun _ => rfl⟩

theorem SameRecords.listShardResults (h : SameRecords c c') (r : String) (i : Nat) :
    c'.listShardResults r i = c.listShardResults r i := by
  unfold OPoICache.listShardResults
  rw [h.submissions]

theorem SameRecords.mapRequests (h : SameRecords c c') {f : OPoIRequest → OPoIRequest}
    (hf : ∀ req : OPoIRequest, (f req).terms = req.terms) :
    SameRecords c { c' with mapRequests := c'.mapRequests.map fun _ req => f req } :=
  { h with
    requests := fun r => by
      rw [← h.requests r]
      simp only [Std.ExtTreeMap.getElem?_map, Option.map_map, Function.comp_def, hf] }

theorem SameRecords.earlyPreserved (env : Env) (height : Nat) (c : OPoICache) :
    EarlyPreserved env height (SameRecords c) where
  releaseStake c key h := by
    unfold releaseStake
    split
    · exact h
    · split
      · exact { h with }
      · exact h
  expireRequests _ h := h.mapRequests fun req => (Persists.expireRequest_evolves req).terms
  closeWindows _ h := h.mapRequests fun req => (Persists.closeCommitWindow_evolves req).terms
  suspendOverdue _ h := { h with }
  strikeMissed _ h := { h with }
  assignCanary c h := by
    obtain ⟨stakes, hEq⟩ := assignCanary_eq env height c
    rw [hEq]
    exact { h with }
  manifestStatus _ _ _ _ h := { h with }

theorem SameRecords.expireChallenge (h : SameRecords c c') (key : String) :
    SameRecords c (expireChallenge env height c' key) := by
  rcases expireChallenge_cases env height c' key with hEq | ⟨_, _, _, hEq⟩ | ⟨_, _, _, _, hEq⟩
  · rw [hEq]
    exact h
  · rw [hEq]
    exact { h with }
  · rw [hEq]
    exact { h with }

theorem sameRecords_beforePayments (env : Env) (height : Nat) (vtx : List CTransaction)
    (c : OPoICache) : SameRecords c (beforePayments env height vtx c) := by
  have hRewards : SameRecords c (processChallengerRewardPayments env vtx c) :=
    List.foldlRecOn _ _ (.refl c) fun _ h _ _ => { h with }
  have hExpired : SameRecords c
      (expireChallenges env height (processChallengerRewardPayments env vtx c)) :=
    List.foldlRecOn _ _ hRewards fun _ h key _ => h.expireChallenge key
  exact (SameRecords.earlyPreserved env height c).earlyPasses hExpired

theorem processAuditorVerifications_marks (env : Env) (c : OPoICache) :
    (processAuditorVerifications env c).setPaidShards = c.setPaidShards ∧
      (processAuditorVerifications env c).setPaidResponses = c.setPaidResponses ∧
      (processAuditorVerifications env c).setPaidChallengerRewards =
        c.setPaidChallengerRewards := by
  have hWhole := List.foldlRecOn (motive := fun d : OPoICache => d.setPaidShards = c.setPaidShards ∧
      d.setPaidResponses = c.setPaidResponses ∧
      d.setPaidChallengerRewards = c.setPaidChallengerRewards)
    c.mapAuditorVerifications.keys (resolveAuditors env) ⟨rfl, rfl, rfl⟩ fun d h r _ => by
      obtain ⟨_, _, _, _, _, hEq⟩ := resolveAuditors_eq env d r
      rw [hEq]
      exact h
  refine List.foldlRecOn (motive := fun d : OPoICache => d.setPaidShards = c.setPaidShards ∧
      d.setPaidResponses = c.setPaidResponses ∧
      d.setPaidChallengerRewards = c.setPaidChallengerRewards) _ _ hWhole fun d h key _ => ?_
  obtain ⟨_, _, _, _, hEq⟩ := resolveShardAuditors_eq env d key
  rw [hEq]
  exact h

/-! ## The marks -/

theorem markShards_eq (ps : List OPoIShardPayment) (c : OPoICache) :
    ps.foldl (fun c p => c.markShardPaid p.requestId p.shardIndex) c =
      { c with
        setPaidShards := ps.foldl
          (fun paid p => paid.insert (shardKey p.requestId p.shardIndex))
          c.setPaidShards } := by
  induction ps generalizing c with
  | nil => rfl
  | cons p ps ih => exact ih (c.markShardPaid p.requestId p.shardIndex)

theorem markResponses_eq (ps : List OPoIResponsePayment) (c : OPoICache) :
    ps.foldl (fun c p => c.markResponsePaid p.requestId) c =
      { c with
        setPaidResponses := ps.foldl (fun paid p => paid.insert p.requestId)
          c.setPaidResponses } := by
  induction ps generalizing c with
  | nil => rfl
  | cons p ps ih => exact ih (c.markResponsePaid p.requestId)

theorem markPayments_shards (key : String) :
    (markPayments env height c vtx).setPaidShards.contains key = true ↔
      c.setPaidShards.contains key = true ∨
        ∃ p ∈ getShardPaymentsForBlock env c vtx,
          shardKey p.requestId p.shardIndex = key := by
  unfold markPayments processAuditSampledOpenResponsePayments processVerifiableResponsePayments
    processShardPayments
  rw [markResponses_eq, markResponses_eq, markShards_eq]
  exact TreeMap.contains_foldl_insert _ _

theorem markPayments_responses (r : String) :
    (markPayments env height c vtx).isResponsePaid r = true ↔
      c.isResponsePaid r = true ∨ (∃ p ∈ getVerifiablePaymentsForBlock env c vtx, p.requestId = r) ∨
        ∃ p ∈ getAuditSampledOpenPaymentsForBlock env c vtx height, p.requestId = r := by
  unfold markPayments processAuditSampledOpenResponsePayments processVerifiableResponsePayments
    processShardPayments
  rw [markResponses_eq, markResponses_eq, markShards_eq]
  refine (TreeMap.contains_foldl_insert _ _).trans ?_
  have hVerifiable : ((getVerifiablePaymentsForBlock env c vtx).foldl
      (fun paid p => paid.insert p.requestId) c.setPaidResponses).contains r = true ↔
      c.isResponsePaid r = true ∨ ∃ p ∈ getVerifiablePaymentsForBlock env c vtx, p.requestId = r :=
    TreeMap.contains_foldl_insert _ _
  have hSampled : ∀ paid : StrSet, (∀ q, c.isResponsePaid q = true → paid.contains q = true) →
      ((paid.contains r = true ∨ ∃ p ∈ getAuditSampledOpenPaymentsForBlock env
          { c with setPaidResponses := paid } vtx height, p.requestId = r) ↔
        (paid.contains r = true ∨
          ∃ p ∈ getAuditSampledOpenPaymentsForBlock env c vtx height, p.requestId = r)) := by
    intro paid hGrows
    by_cases hPaid : paid.contains r = true
    · simp [hPaid]
    · simp only [hPaid, Bool.false_eq_true, false_or, mem_getAuditSampledOpenPaymentsForBlock]
      constructor
      · rintro ⟨p, ⟨resp, req, h, hRest⟩, hId⟩
        refine ⟨p, ⟨resp, req, ⟨h.recorded, ?_, h.request, h.payment, h.due⟩, hRest⟩, hId⟩
        cases hOld : c.isResponsePaid resp.requestId with
        | false => rfl
        | true => exact absurd (hGrows _ hOld) (ne_true_of_eq_false h.unpaid)
      · rintro ⟨_, ⟨resp, req, h, hOpen, rfl⟩, rfl⟩
        exact ⟨_, ⟨resp, req, ⟨h.recorded, Bool.eq_false_iff.mpr hPaid, h.request,
          h.payment, h.due⟩, hOpen, rfl⟩, rfl⟩
  have hGrows : ∀ q, c.isResponsePaid q = true →
      ((getVerifiablePaymentsForBlock env c vtx).foldl
        (fun paid p => paid.insert p.requestId) c.setPaidResponses).contains q = true :=
    fun q hq => (TreeMap.contains_foldl_insert _ _).mpr (.inl hq)
  refine (hSampled _ hGrows).trans ?_
  rw [hVerifiable, or_assoc]

theorem connectPasses_shards (key : String) :
    (connectPasses env height vtx c).setPaidShards.contains key = true ↔
      c.setPaidShards.contains key = true ∨
        ∃ p ∈ getShardPaymentsForBlock env (beforePayments env height vtx c) vtx,
          shardKey p.requestId p.shardIndex = key := by
  rw [connectPasses_eq, (processAuditorVerifications_marks env _).1, markPayments_shards,
    (sameRecords_beforePayments env height vtx c).paidShards]

theorem connectPasses_responses (r : String) :
    (connectPasses env height vtx c).isResponsePaid r = true ↔
      c.isResponsePaid r = true ∨
        (∃ p ∈ getVerifiablePaymentsForBlock env (beforePayments env height vtx c) vtx,
          p.requestId = r) ∨
        ∃ p ∈ getAuditSampledOpenPaymentsForBlock env (beforePayments env height vtx c) vtx height,
          p.requestId = r := by
  have hMarks := @markPayments_responses env height vtx (beforePayments env height vtx c) r
  unfold isResponsePaid at hMarks ⊢
  rw [connectPasses_eq, (processAuditorVerifications_marks env _).2.1, hMarks,
    (sameRecords_beforePayments env height vtx c).paidResponses]

theorem connectPasses_rewards (r : String) :
    (connectPasses env height vtx c).isChallengerRewardPaid r = true ↔
      c.isChallengerRewardPaid r = true ∨
        ∃ w ∈ getChallengerRewardsAtHeight env c vtx, w.requestId = r := by
  obtain ⟨paid, hEq, hPaid⟩ := processChallengerRewardPayments_eq env c vtx
  have hExpired : (expireChallenges env height
      (processChallengerRewardPayments env vtx c)).setPaidChallengerRewards = paid := by
    refine List.foldlRecOn (motive := fun d : OPoICache => d.setPaidChallengerRewards = paid) _ _
      (by rw [hEq]) fun d h key _ => ?_
    rcases expireChallenge_cases env height d key with hStep | ⟨_, _, _, hStep⟩ |
      ⟨_, _, _, _, hStep⟩
    · rw [hStep, h]
    · rw [hStep, ← h]
    · rw [hStep, ← h]
  rw [← hPaid r, isChallengerRewardPaid, connectPasses, blockPasses_eq,
    (latePasses_frame env height _ vtx).2.2, hExpired]

end Passes

end CloudService
