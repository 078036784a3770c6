/-
  What a block never takes back: the terms of requests, the revealed responses, models,
  claims, submissions, votes and paid marks.
-/

import CloudService.OPoI.Accepted
import CloudService.OPoI.Effects

namespace CloudService

open OPoICache TreeMap

def OPoIRequest.terms (r : OPoIRequest) : OPoIRequest :=
  { r with status := .pending, responseCommits := ∅, responseReveals := ∅,
           commitWindowClosed := false }

theorem eq_of_terms {a b : OPoIRequest} (h : a.terms = b.terms) :
    a.payment = b.payment ∧ a.feePerToken = b.feePerToken ∧ a.model = b.model ∧
      a.isVerifiable = b.isVerifiable := by
  simp only [OPoIRequest.terms, OPoIRequest.mk.injEq] at h
  obtain ⟨_, _, hModel, _, _, hPayment, hFee, hTask, _⟩ := h
  exact ⟨hPayment, hFee, hModel, by rw [OPoIRequest.isVerifiable, hTask]; rfl⟩

def ModelManifest.spec (m : ModelManifest) : ModelManifest :=
  { m with status := .voting, activationHeight := 0 }

structure OPoIRequest.Evolves (req req' : OPoIRequest) : Prop where
  terms : req'.terms = req.terms
  reveals : ∀ m, req.responseReveals.contains m = true → req'.responseReveals.contains m = true
  closed : req.commitWindowClosed = true → req'.commitWindowClosed = true

theorem OPoIRequest.Evolves.refl (req : OPoIRequest) : req.Evolves req :=
  ⟨rfl, fun _ h => h, fun h => h⟩

theorem OPoIRequest.Evolves.trans {a b d : OPoIRequest} (h₁ : a.Evolves b) (h₂ : b.Evolves d) :
    a.Evolves d :=
  ⟨h₂.terms.trans h₁.terms, fun m h => h₂.reveals m (h₁.reveals m h),
    fun h => h₂.closed (h₁.closed h)⟩

def hasVoted (verifs : List AuditorVerification) (a : String) : Bool :=
  verifs.any (·.auditorAddress == a)

def hasSubmitted (subs : List ShardResultSubmission) (a : String) : Bool :=
  subs.any (·.minerAddress == a)

/-- What is on record in the first cache is on record in the second. -/
structure Persists (c c' : OPoICache) : Prop where
  requests : ∀ (r : String) (req : OPoIRequest), c.mapRequests[r]? = some req →
    ∃ req', c'.mapRequests[r]? = some req' ∧ req.Evolves req'
  responses : ∀ r : String, c.mapResponses.contains r = true → c'.mapResponses.contains r = true
  manifests : ∀ (id : String) (m : ModelManifest), c.mapModelManifests[id]? = some m →
    ∃ m', c'.mapModelManifests[id]? = some m' ∧ m'.spec = m.spec
  claims : ∀ r a, c.isClaimedCoordinator r a = true → c'.isClaimedCoordinator r a = true
  submissions : ∀ key a, hasSubmitted (c.mapShardResults.getD key []) a = true →
    hasSubmitted (c'.mapShardResults.getD key []) a = true
  votes : ∀ r a, hasVoted (c.getAuditorVerifications r) a = true →
    hasVoted (c'.getAuditorVerifications r) a = true
  shardVotes : ∀ key a, hasVoted (c.shardVerifications key) a = true →
    hasVoted (c'.shardVerifications key) a = true
  paidShards : ∀ key, c.setPaidShards.contains key = true → c'.setPaidShards.contains key = true
  paidResponses : ∀ r, c.isResponsePaid r = true → c'.isResponsePaid r = true
  paidRewards : ∀ r, c.isChallengerRewardPaid r = true → c'.isChallengerRewardPaid r = true

namespace Persists

variable {env : Env} {chainActive hashes : List Uint256} {height : Nat} {c₀ c c' c'' : OPoICache}
  {tx : CTransaction}

theorem refl (c : OPoICache) : Persists c c :=
  ⟨fun _ req h => ⟨req, h, .refl req⟩, fun _ h => h, fun _ m h => ⟨m, h, rfl⟩, fun _ _ h => h,
    fun _ _ h => h, fun _ _ h => h, fun _ _ h => h, fun _ h => h, fun _ h => h, fun _ h => h⟩

theorem trans (h₁ : Persists c c') (h₂ : Persists c' c'') : Persists c c'' where
  requests r req hReq := by
    obtain ⟨req', hReq', hFirst⟩ := h₁.requests r req hReq
    obtain ⟨req'', hReq'', hSecond⟩ := h₂.requests r req' hReq'
    exact ⟨req'', hReq'', hFirst.trans hSecond⟩
  responses r h := h₂.responses r (h₁.responses r h)
  manifests id m hm := by
    obtain ⟨m', hm', hFirst⟩ := h₁.manifests id m hm
    obtain ⟨m'', hm'', hSecond⟩ := h₂.manifests id m' hm'
    exact ⟨m'', hm'', hSecond.trans hFirst⟩
  claims r a h := h₂.claims r a (h₁.claims r a h)
  submissions key a h := h₂.submissions key a (h₁.submissions key a h)
  votes r a h := h₂.votes r a (h₁.votes r a h)
  shardVotes key a h := h₂.shardVotes key a (h₁.shardVotes key a h)
  paidShards key h := h₂.paidShards key (h₁.paidShards key h)
  paidResponses r h := h₂.paidResponses r (h₁.paidResponses r h)
  paidRewards r h := h₂.paidRewards r (h₁.paidRewards r h)

theorem modifyRequests (h : Persists c₀ c) (r : String) {f : OPoIRequest → OPoIRequest}
    (hf : ∀ req : OPoIRequest, req.Evolves (f req)) (key : String) (req : OPoIRequest)
    (hReq : c₀.mapRequests[key]? = some req) :
    ∃ req', (c.mapRequests.modify r f)[key]? = some req' ∧ req.Evolves req' := by
  obtain ⟨req', hReq', hKept⟩ := h.requests key req hReq
  rw [getElem?_modify_eq, hReq']
  split
  · exact ⟨f req', rfl, hKept.trans (hf req')⟩
  · exact ⟨req', rfl, hKept⟩

theorem mapRequests (h : Persists c₀ c) {f : OPoIRequest → OPoIRequest}
    (hf : ∀ req : OPoIRequest, req.Evolves (f req)) :
    Persists c₀ { c with mapRequests := c.mapRequests.map fun _ req => f req } :=
  { h with
    requests := fun r req hReq => by
      obtain ⟨req', hReq', hKept⟩ := h.requests r req hReq
      exact ⟨f req', by simp [hReq'], hKept.trans (hf req')⟩ }

/-! ## Transactions -/

theorem any_addVote {verifs : List AuditorVerification} (v : AuditorVerification) {a : String}
    (h : hasVoted verifs a = true) : hasVoted (addVote verifs v) a = true := by
  unfold addVote
  split
  · exact h
  · unfold hasVoted at h ⊢
    rw [List.any_append, h, Bool.true_or]

theorem applyRequest (h : Persists c₀ c) (hNew : c₀.mapRequests[tx.opoiRequestId]? = none) :
    Persists c₀ (applyRequest env height c tx) :=
  { h with
    requests := fun r req hReq => by
      have hNe : tx.opoiRequestId ≠ r := by
        rintro rfl
        rw [hNew] at hReq
        cases hReq
      obtain ⟨req', hReq', hKept⟩ := h.requests r req hReq
      exact ⟨req', by simpa [CloudService.applyRequest, addRequest, hNe] using hReq',
        hKept⟩ }

theorem applyResponseCommit (h : Persists c₀ c) :
    Persists c₀ (applyResponseCommit env height c tx) :=
  { h with
    requests := h.modifyRequests tx.opoiRequestId fun _ => ⟨rfl, fun _ h => h, fun h => h⟩ }

def revealedRequest (tx : CTransaction) (req : OPoIRequest) : OPoIRequest :=
  { req with status := .fulfilled
             responseReveals := req.responseReveals.insert tx.opoiMinerAddress
               tx.opoiResponseHash.getHex }

theorem revealedRequest_evolves (tx : CTransaction) (req : OPoIRequest) :
    req.Evolves (revealedRequest tx req) := by
  refine ⟨rfl, fun m hm => ?_, fun h => h⟩
  simp [revealedRequest, hm]

section

variable (h : Persists c₀ c)

include h

theorem applyResponseReveal : Persists c₀ (applyResponseReveal env chainActive height c tx) :=
  { h with
    requests := fun r req hReq => by
      have hRequests : (CloudService.applyResponseReveal env chainActive height c tx).mapRequests =
          c.mapRequests.modify tx.opoiRequestId (revealedRequest tx) :=
        modify_modify
      rw [hRequests]
      exact h.modifyRequests tx.opoiRequestId (revealedRequest_evolves tx) r req hReq
    responses := fun r hr => by
      have hResponses : (CloudService.applyResponseReveal env chainActive height c
          tx).mapResponses = c.mapResponses.insert tx.opoiRequestId
            (revealedResponse env chainActive height c tx) := rfl
      rw [hResponses, Std.ExtTreeMap.contains_insert, h.responses r hr, Bool.or_true] }

theorem applyModelRegister (hNew : c₀.mapModelManifests[tx.opoiModelId]? = none) :
    Persists c₀ (applyModelRegister env height c tx) :=
  { h with
    manifests := fun id m hm => by
      have hNe : tx.opoiModelId ≠ id := by
        rintro rfl
        rw [hNew] at hm
        cases hm
      obtain ⟨m', hm', hKept⟩ := h.manifests id m hm
      exact ⟨m', by
        simpa [CloudService.applyModelRegister, addModelManifest, hNe] using hm', hKept⟩ }

theorem applyCoordinatorClaim : Persists c₀ (applyCoordinatorClaim env height c tx) :=
  { h with
    claims := fun r a hClaim => by
      have hOld := h.claims r a hClaim
      unfold isClaimedCoordinator at hOld ⊢
      simp only [CloudService.applyCoordinatorClaim, addCoordinatorClaim, getD_insert_eq]
      split
      · rename_i hEq
        subst hEq
        split
        · exact hOld
        · rw [List.any_append, hOld, Bool.true_or]
      · exact hOld }

theorem applyShardResult : Persists c₀ (applyShardResult env height c tx) :=
  { h with
    submissions := fun key a hSub => by
      have hOld := h.submissions key a hSub
      simp only [CloudService.applyShardResult, addShardResult, getD_insert_eq]
      split
      · rename_i hEq
        subst hEq
        unfold listShardResults
        split
        · exact hOld
        · unfold hasSubmitted at hOld ⊢
          rw [List.any_append, hOld, Bool.true_or]
      · exact hOld }

omit h in
theorem hasVoted_insert {m : StrMap (List AuditorVerification)} {key key' a : String}
    {v : AuditorVerification} (hVote : hasVoted (m.getD key' []) a = true) :
    hasVoted ((m.insert key (addVote (m.getD key []) v)).getD key' []) a = true := by
  rw [getD_insert_eq]
  split
  · rename_i hKey
    subst hKey
    exact any_addVote _ hVote
  · exact hVote

theorem applyAuditorVerify : Persists c₀ (applyAuditorVerify env height c tx) := by
  unfold CloudService.applyAuditorVerify addAuditorVerification
    addShardAuditorVerification
  split
  · obtain ⟨locked, locking, hEq⟩ := lockVote_eq _ _ _
    rw [hEq]
    exact { h with votes := fun r a hVote => hasVoted_insert (h.votes r a hVote) }
  · obtain ⟨locked, locking, hEq⟩ := lockVote_eq _ _ _
    rw [hEq]
    exact { h with shardVotes := fun key a hVote => hasVoted_insert (h.shardVotes key a hVote) }

theorem applyChallengeReveal : Persists c₀ (applyChallengeReveal env c tx) := by
  cases hCh : c.mapChallenges[tx.opoiRequestId]? with
  | none =>
    unfold CloudService.applyChallengeReveal
    rw [hCh]
    exact h
  | some ch =>
    rw [applyChallengeReveal_eq env c tx hCh]
    exact { h with }

end

theorem checkModelRegister_new (h : checkModelRegister env false c tx = .ok ()) :
    c.mapModelManifests[tx.opoiModelId]? = none := by
  simp only [checkModelRegister, check_bind_eq_ok, rejectIf_eq_ok, Bool.not_false,
    Bool.true_and] at h
  obtain ⟨_, _, _, _, _, _, _, _, _, _, hNew, _⟩ := h
  simpa only [Option.isSome_eq_false_iff, Option.isNone_iff_eq_none] using hNew

theorem applyNew (h : Persists c₀ c)
    (hRequest : tx.opoiType = .request → c₀.mapRequests[tx.opoiRequestId]? = none)
    (hModel : tx.opoiType = .modelRegister → c₀.mapModelManifests[tx.opoiModelId]? = none) :
    Persists c₀ (applyOPoITransaction env chainActive height c tx) := by
  unfold applyOPoITransaction
  cases hType : tx.opoiType with
  | request => exact h.applyRequest (hRequest hType)
  | response =>
    dsimp only
    split
    · exact h.applyResponseCommit
    · exact h.applyResponseReveal
  | stake => exact { h with }
  | unstake =>
    rw [applyUnstake, startUnstake_eq]
    exact { h with }
  | renew => exact { h with }
  | challenge =>
    dsimp only
    split
    · unfold applyChallengeCommit
      rw [modifyResponderStake_eq]
      exact { h with }
    · exact h.applyChallengeReveal
  | modelRegister => exact h.applyModelRegister (hModel hType)
  | modelVote =>
    dsimp only
    unfold applyModelVote addModelVote
    split
    · exact { h with }
    · exact h
  | coordinatorClaim => exact h.applyCoordinatorClaim
  | shardResult => exact h.applyShardResult
  | auditorVerify => exact h.applyAuditorVerify
  | unknown => exact h

theorem apply (h : Persists c₀ c) (hTx : checkOPoITransaction env false hashes c₀ tx = .ok ())
    (hOPoI : tx.isOPoITx = true) :
    Persists c₀ (applyOPoITransaction env chainActive height c tx) := by
  have hBranch := checkOPoITransaction_branch hTx hOPoI
  refine h.applyNew (fun hType => ?_) fun hType => ?_
  · rw [hType] at hBranch
    exact (checkRequest_eq_ok hBranch).1
  · rw [hType] at hBranch
    exact checkModelRegister_new hBranch

end Persists

/-- How a transaction changes the requests: a REQUEST adds one, a RESPONSE updates one. -/
theorem mapRequests_cases (env : Env) (chainActive : List Uint256) (height : Nat) (c : OPoICache)
    (tx : CTransaction) :
    (tx.opoiType = .request ∧ ∃ req : OPoIRequest,
      (applyOPoITransaction env chainActive height c tx).mapRequests =
        c.mapRequests.insert tx.opoiRequestId req ∧
      req.commitWindowClosed = false ∧ req.isExpired = false) ∨
    (tx.opoiType = .response ∧ ∃ f : OPoIRequest → OPoIRequest,
      (applyOPoITransaction env chainActive height c tx).mapRequests =
        c.mapRequests.modify tx.opoiRequestId f ∧
      ∀ req, req.Evolves (f req) ∧ (f req).commitWindowClosed = req.commitWindowClosed ∧
        ((f req).isExpired = true → req.isExpired = true)) ∨
    (tx.opoiType ≠ .request ∧
      (applyOPoITransaction env chainActive height c tx).mapRequests = c.mapRequests) := by
  unfold applyOPoITransaction
  cases hType : tx.opoiType with
  | request => exact .inl ⟨rfl, _, rfl, rfl, rfl⟩
  | response =>
    refine .inr (.inl ⟨rfl, ?_⟩)
    dsimp only
    split
    · exact ⟨_, rfl, fun req => ⟨⟨rfl, fun _ h => h, fun h => h⟩, rfl, fun h => h⟩⟩
    · have hRequests : (applyResponseReveal env chainActive height c tx).mapRequests =
          c.mapRequests.modify tx.opoiRequestId (Persists.revealedRequest tx) :=
        modify_modify
      exact ⟨_, hRequests, fun req => ⟨Persists.revealedRequest_evolves tx req, rfl,
        fun h => by cases h⟩⟩
  | unstake =>
    rw [applyUnstake, startUnstake_eq]
    exact .inr (.inr ⟨by decide, rfl⟩)
  | challenge =>
    dsimp only
    split
    · rw [applyChallengeCommit, modifyResponderStake_eq]
      exact .inr (.inr ⟨by decide, rfl⟩)
    · cases hCh : c.mapChallenges[tx.opoiRequestId]? with
      | none =>
        rw [applyChallengeReveal, hCh]
        exact .inr (.inr ⟨by decide, rfl⟩)
      | some ch =>
        rw [applyChallengeReveal_eq env c tx hCh]
        exact .inr (.inr ⟨by decide, rfl⟩)
  | auditorVerify =>
    simp only [applyAuditorVerify, addAuditorVerification, addShardAuditorVerification]
    split
    · obtain ⟨_, _, hEq⟩ := lockVote_eq _ _ _
      rw [hEq]
      exact .inr (.inr ⟨by decide, rfl⟩)
    · obtain ⟨_, _, hEq⟩ := lockVote_eq _ _ _
      rw [hEq]
      exact .inr (.inr ⟨by decide, rfl⟩)
  | modelVote =>
    simp only [applyModelVote, addModelVote]
    split
    · exact .inr (.inr ⟨by decide, rfl⟩)
    · exact .inr (.inr ⟨by decide, rfl⟩)
  | stake | renew | modelRegister | coordinatorClaim | shardResult | unknown =>
    exact .inr (.inr ⟨by decide, rfl⟩)

namespace Persists

variable {env : Env} {chainActive hashes : List Uint256} {height : Nat} {c₀ c c' c'' : OPoICache}
  {tx : CTransaction}

/-! ## Passes -/

theorem expireRequest_evolves (req : OPoIRequest) : req.Evolves (expireRequest env height req) := by
  unfold expireRequest
  split
  · exact ⟨rfl, fun _ h => h, fun h => h⟩
  · exact .refl req

theorem closeCommitWindow_evolves (req : OPoIRequest) :
    req.Evolves (closeCommitWindow env height req) := by
  unfold closeCommitWindow
  split
  · exact ⟨rfl, fun _ h => h, fun _ => rfl⟩
  · exact .refl req

theorem hasVoted_resolve (majority : Nat) (verifs : List AuditorVerification) (a : String) :
    hasVoted (verifs.map (resolveVote majority)) a = hasVoted verifs a := by
  unfold hasVoted
  rw [List.any_map]
  rfl

theorem getD_modify_votes (m : StrMap (List AuditorVerification)) (majority : Nat)
    (key key' a : String) :
    hasVoted ((m.modify key (·.map (resolveVote majority))).getD key' []) a =
      hasVoted (m.getD key' []) a := by
  rw [getD_modify_map]
  split
  · exact hasVoted_resolve majority _ a
  · rfl

theorem passPreserved (env : Env) (height : Nat) (c₀ : OPoICache) :
    PassPreserved env height (Persists c₀) where
  releaseStake c key h := by
    unfold releaseStake
    split
    · exact h
    · split
      · exact { h with }
      · exact h
  expireRequests _ h := h.mapRequests fun req => expireRequest_evolves req
  closeWindows _ h := h.mapRequests fun req => closeCommitWindow_evolves req
  suspendOverdue _ h := { h with }
  strikeMissed _ h := { h with }
  assignCanary c h := by
    obtain ⟨stakes, hEq⟩ := assignCanary_eq env height c
    rw [hEq]
    exact { h with }
  manifestStatus c modelId status activation h :=
    { h with
      manifests := fun id m hm => by
        obtain ⟨m', hm', hKept⟩ := h.manifests id m hm
        simp only [setModelManifestStatus, getElem?_modify_eq, hm']
        split
        · exact ⟨_, rfl, hKept⟩
        · exact ⟨m', rfl, hKept⟩ }
  shardPaid c r i h :=
    { h with
      paidShards := fun key hKey => by
        simp only [markShardPaid, Std.ExtTreeSet.contains_insert, h.paidShards key hKey,
          Bool.or_true] }
  responsePaid c r h :=
    { h with
      paidResponses := fun key hKey => by
        have hOld := h.paidResponses key hKey
        simp only [isResponsePaid, markResponsePaid, Std.ExtTreeSet.contains_insert] at hOld ⊢
        rw [hOld, Bool.or_true] }
  resolveAuditors c r h := by
    rcases resolveAuditors_cases env c r with hEq | ⟨majority, _, _, _, _, hEq⟩
    · rw [hEq]
      exact h
    · obtain ⟨stakes, hCanary⟩ := resolveCanary_eq _ majority r
      rw [hEq, hCanary]
      exact
        { h with
          votes := fun key a hVote =>
            (getD_modify_votes c.mapAuditorVerifications majority r key a).trans
              (h.votes key a hVote) }
  resolveShardAuditors c key h := by
    rcases resolveShardAuditors_cases env c key with hEq | ⟨majority, _, _, _, _, _, _, _, _, hEq⟩
    · rw [hEq]
      exact h
    · rw [hEq]
      exact
        { h with
          shardVotes := fun key' a hVote =>
            (getD_modify_votes c.mapShardAuditorVerifications majority key key' a).trans
              (h.shardVotes key' a hVote) }
  rewardPaid c r h :=
    { h with
      paidRewards := fun key hKey => by
        have hOld := h.paidRewards key hKey
        simp only [isChallengerRewardPaid, markChallengerRewardPaid,
          Std.ExtTreeSet.contains_insert] at hOld ⊢
        rw [hOld, Bool.or_true] }
  expireChallenge c key h := by
    rcases expireChallenge_cases env height c key with hEq | ⟨_, _, _, hEq⟩ | ⟨_, _, _, _, hEq⟩
    · rw [hEq]
      exact h
    · rw [hEq]
      exact { h with }
    · rw [hEq]
      exact { h with }

end Persists

end CloudService
