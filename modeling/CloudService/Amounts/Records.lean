/-
  The amounts on record are those of accepted transactions, and positive. The passes leave
  them alone.
-/

import CloudService.Chain.AppliedTxs
import CloudService.Coinbase.Addresses
import CloudService.Coinbase.Passes
import CloudService.Stakes.Backing

namespace CloudService

/-- The prices and the stakes on record are positive, and no vote has a negative weight. -/
structure SoundAmounts (c : OPoICache) : Prop where
  requests : ∀ (r : String) (req : OPoIRequest), c.mapRequests[r]? = some req → 0 < req.payment
  stakes : ∀ (m : String) (s : OPoIStake), c.mapStakes[m]? = some s → 0 < s.amount
  votes : ∀ (id voter : String) (v : ModelVoteRecord),
    (c.mapModelVotes.getD id ∅)[voter]? = some v → 0 ≤ v.weight

def OPoICache.ledger (c : OPoICache) :=
  (c.mapRequests, c.mapModelManifests, c.mapModelVotes, c.mapResponses, c.mapShardResults,
    c.setPaidResponses)

/-- The same amounts: the passes of a block. -/
structure SameAmounts (c c' : OPoICache) : Prop where
  requests : ∀ r : String,
    c'.mapRequests[r]?.map OPoIRequest.terms = c.mapRequests[r]?.map OPoIRequest.terms
  stakes : StakesEvolve c c'
  manifests : ∀ (id : String) (m' : ModelManifest), c'.mapModelManifests[id]? = some m' →
    ∃ m, c.mapModelManifests[id]? = some m ∧ m'.spec = m.spec
  votes : c'.mapModelVotes = c.mapModelVotes
  responses : c'.mapResponses = c.mapResponses
  submissions : c'.mapShardResults = c.mapShardResults
  paid : ∀ r, c.isResponsePaid r = true → c'.isResponsePaid r = true

section Records

variable {env : Env} {c c' c₁ : OPoICache} {tx : CTransaction} {height : Nat} {r : String}
  {req : OPoIRequest} {chainActive : List Uint256}

theorem SoundAmounts.rewardStake_pos (h : SoundAmounts c) {s : OPoIStake}
    (hStake : rewardStake c r = some s) : 0 < s.amount := by
  unfold rewardStake at hStake
  split at hStake
  · exact h.stakes _ _ hStake
  · cases hStake

/-! ## The passes -/

theorem SameAmounts.refl (c : OPoICache) : SameAmounts c c :=
  ⟨fun _ => rfl, .refl c, fun _ m h => ⟨m, h, rfl⟩, rfl, rfl, rfl, fun _ h => h⟩

theorem SameAmounts.mapRequests (h : SameAmounts c₁ c) {f : OPoIRequest → OPoIRequest}
    (hf : ∀ req : OPoIRequest, (f req).terms = req.terms) :
    SameAmounts c₁ { c with mapRequests := c.mapRequests.map fun _ req => f req } :=
  { h with
    requests := fun r => by
      rw [← h.requests r]
      simp only [Std.ExtTreeMap.getElem?_map, Option.map_map, Function.comp_def, hf]
    stakes := h.stakes.trans (.of_eq rfl) }

theorem SameAmounts.step (h : SameAmounts c₁ c) (hStakes : StakesEvolve c c')
    (hLedger : c'.ledger = c.ledger) : SameAmounts c₁ c' := by
  simp only [OPoICache.ledger, Prod.mk.injEq] at hLedger
  obtain ⟨hRequests, hManifests, hVotes, hResponses, hSubmissions, hPaid⟩ := hLedger
  refine ⟨fun r => ?_, h.stakes.trans hStakes, fun id m hm => ?_, hVotes.trans h.votes,
    hResponses.trans h.responses, hSubmissions.trans h.submissions, fun r hr => ?_⟩
  · rw [hRequests]
    exact h.requests r
  · rw [hManifests] at hm
    exact h.manifests id m hm
  · rw [OPoICache.isResponsePaid, hPaid]
    exact h.paid r hr

theorem SameAmounts.manifestStatus (h : SameAmounts c₁ c) (id : String) (status : ModelStatus)
    (activation : Nat) : SameAmounts c₁ (c.setModelManifestStatus id status activation) :=
  { h with
    stakes := h.stakes.trans (.of_eq rfl)
    manifests := TreeMap.forall_modify h.manifests fun _ hm => hm }

theorem passPreserved_sameAmounts (env : Env) (height : Nat) (c₁ : OPoICache) :
    PassPreserved env height (SameAmounts c₁) where
  rewardPaid _ _ h := h.step (.of_eq rfl) rfl
  expireChallenge c key h := by
    obtain ⟨_, _, _, _, hEq⟩ := expireChallenge_eq env height c key
    refine h.step (stakesEvolve_expireChallenge key) ?_
    rw [hEq]
    rfl
  releaseStake c key h := by
    obtain ⟨_, _, hEq⟩ := releaseStake_eq env height c key
    refine h.step (stakesEvolve_releaseStake key) ?_
    rw [hEq]
    rfl
  expireRequests _ h := h.mapRequests fun req => (Persists.expireRequest_evolves req).terms
  closeWindows _ h := h.mapRequests fun req => (Persists.closeCommitWindow_evolves req).terms
  suspendOverdue _ h := h.step (.mapStakes (suspendOverdue_evolves env height)) rfl
  strikeMissed _ h := h.step (.mapStakes (strikeMissed_evolves height)) rfl
  assignCanary c h := by
    obtain ⟨_, hEq⟩ := assignCanary_eq env height c
    refine h.step stakesEvolve_assignCanary ?_
    rw [hEq]
    rfl
  manifestStatus _ id status activation h := h.manifestStatus id status activation
  shardPaid _ _ _ h := h.step (.of_eq rfl) rfl
  responsePaid c r h :=
    { h with
      stakes := h.stakes.trans (.of_eq rfl)
      paid := fun r' hr => by
        have hOld : c.isResponsePaid r' = true := h.paid r' hr
        simp only [OPoICache.isResponsePaid, OPoICache.markResponsePaid] at hOld ⊢
        simp [hOld] }
  resolveAuditors c r h := by
    obtain ⟨_, _, _, _, _, hEq⟩ := resolveAuditors_eq env c r
    refine h.step (stakesEvolve_resolveAuditors r) ?_
    rw [hEq]
    rfl
  resolveShardAuditors c key h := by
    obtain ⟨_, _, _, _, hEq⟩ := resolveShardAuditors_eq env c key
    refine h.step (stakesEvolve_resolveShardAuditors key) ?_
    rw [hEq]
    rfl

theorem SameAmounts.request_before (h : SameAmounts c c') (hReq : c'.mapRequests[r]? = some req) :
    ∃ req₀, c.mapRequests[r]? = some req₀ ∧ req.terms = req₀.terms := by
  have hTerms := h.requests r
  rw [hReq, Option.map_some] at hTerms
  obtain ⟨req₀, hReq₀, hEq⟩ := Option.map_eq_some_iff.mp hTerms.symm
  exact ⟨req₀, hReq₀, hEq.symm⟩

theorem SoundAmounts.of_same (h : SoundAmounts c) (hSame : SameAmounts c c') : SoundAmounts c' where
  requests r req hReq := by
    obtain ⟨req₀, hReq₀, hTerms⟩ := hSame.request_before hReq
    have hPayment : req.payment = req₀.payment := (eq_of_terms hTerms).1
    rw [hPayment]
    exact h.requests r req₀ hReq₀
  stakes m s hGet := by
    obtain ⟨s₀, hOld, hEvolves⟩ := hSame.stakes.get_before hGet
    have hAmount : s.amount = s₀.amount := congrArg StakeIdentity.amount hEvolves.identity
    rw [hAmount]
    exact h.stakes m s₀ hOld
  votes id voter v hv := by
    rw [hSame.votes] at hv
    exact h.votes id voter v hv

/-! ## The transactions -/

theorem request_apply (hReq : (applyOPoITransaction env chainActive height c tx).mapRequests[r]? =
    some req) :
    (∃ req₀, c.mapRequests[r]? = some req₀ ∧ req.terms = req₀.terms) ∨
      (tx.opoiType = .request ∧ req.payment = tx.opoiPayment) := by
  by_cases hType : tx.opoiType = .request
  · simp only [applyOPoITransaction, hType, applyRequest, OPoICache.addRequest,
      TreeMap.getElem?_insert_eq] at hReq
    split at hReq
    · cases hReq
      exact .inr ⟨hType, rfl⟩
    · exact .inl ⟨req, hReq, rfl⟩
  · obtain ⟨hRequest, _⟩ | ⟨_, f, hEq, hEvolves⟩ | ⟨_, hEq⟩ :=
      mapRequests_cases env chainActive height c tx
    · exact absurd hRequest hType
    · rw [hEq, TreeMap.getElem?_modify_eq] at hReq
      split at hReq
      · obtain ⟨req₀, hReq₀, rfl⟩ := Option.map_eq_some_iff.mp hReq
        exact .inl ⟨req₀, hReq₀, (hEvolves req₀).1.terms⟩
      · exact .inl ⟨req, hReq, rfl⟩
    · rw [hEq] at hReq
      exact .inl ⟨req, hReq, rfl⟩

theorem modelVote_apply {id voter : String} {v : ModelVoteRecord}
    (hv : ((applyOPoITransaction env chainActive height c tx).mapModelVotes.getD id ∅)[voter]? =
      some v) :
    (c.mapModelVotes.getD id ∅)[voter]? = some v ∨ v.weight = 0 ∨
      ∃ (m : String) (s : OPoIStake), c.mapStakes[m]? = some s ∧ v.weight = s.amount := by
  by_cases hType : tx.opoiType = .modelVote
  · simp only [applyOPoITransaction, hType, applyModelVote, OPoICache.addModelVote] at hv
    split at hv
    · rw [TreeMap.getD_insert_eq] at hv
      split at hv
      · rename_i hId
        cases hId
        rw [TreeMap.getElem?_insert_eq] at hv
        split at hv
        · cases hv
          split
          · rename_i s hStake
            split
            · exact .inr (.inr ⟨_, s, hStake, rfl⟩)
            · exact .inr (.inl rfl)
          · exact .inr (.inl rfl)
        · exact .inl hv
      · exact .inl hv
    · exact .inl hv
  · rw [(applyOPoITransaction_txFrame env height c tx chainActive).modelVotes hType] at hv
    exact .inl hv

def DeclaresAmount (tx : CTransaction) : Prop :=
  tx.opoiType = .request ∨ tx.opoiType = .stake → 0 < tx.opoiPayment

theorem declaresAmount_of_accepted
    (h : checkOPoITransaction env false chainActive c tx = .ok ()) (hOPoI : tx.isOPoITx = true) :
    DeclaresAmount tx := by
  have hBranch := checkOPoITransaction_branch h hOPoI
  rintro (hType | hType)
  · simp only [hType] at hBranch
    exact (checkRequest_eq_ok hBranch).2
  · simp only [hType] at hBranch
    exact (checkStake_eq_ok hBranch).1

theorem SoundAmounts.apply (h : SoundAmounts c) (hTx : DeclaresAmount tx) :
    SoundAmounts (applyOPoITransaction env chainActive height c tx) where
  requests r req hReq := by
    rcases request_apply hReq with ⟨req₀, hReq₀, hTerms⟩ | ⟨hType, hPayment⟩
    · have hSame : req.payment = req₀.payment := (eq_of_terms hTerms).1
      rw [hSame]
      exact h.requests r req₀ hReq₀
    · rw [hPayment]
      exact hTx (.inl hType)
  stakes m s hGet := by
    rcases identity_applyOPoITransaction hGet with ⟨s₀, hOld, hSame⟩ | ⟨hType, rfl⟩
    · have hAmount : s.amount = s₀.amount := congrArg StakeIdentity.amount hSame
      rw [hAmount]
      exact h.stakes m s₀ hOld
    · exact hTx (.inr hType)
  votes id voter v hv := by
    rcases modelVote_apply hv with hOld | hZero | ⟨m, s, hStake, hWeight⟩
    · exact h.votes id voter v hOld
    · exact hZero.ge
    · rw [hWeight]
      exact (h.stakes m s hStake).le

/-! ## The undo -/

section

variable (h : SoundAmounts c)

include h

theorem SoundAmounts.of_eq (hRequests : c'.mapRequests = c.mapRequests)
    (hStakes : c'.mapStakes = c.mapStakes) (hVotes : c'.mapModelVotes = c.mapModelVotes) :
    SoundAmounts c' where
  requests := hRequests ▸ h.requests
  stakes := hStakes ▸ h.stakes
  votes := hVotes ▸ h.votes

theorem SoundAmounts.modifyRequest (r : String) {f : OPoIRequest → OPoIRequest}
    (hf : ∀ req : OPoIRequest, (f req).payment = req.payment) :
    SoundAmounts (c.modifyRequest r f) :=
  { h with
    requests := TreeMap.forall_modify h.requests fun req hPos => (hf req).symm ▸ hPos }

theorem SoundAmounts.modifyStake (m : String) {f : OPoIStake → OPoIStake}
    (hf : ∀ s : OPoIStake, (f s).amount = s.amount) : SoundAmounts (c.modifyStake m f) :=
  { h with
    stakes := TreeMap.forall_modify h.stakes fun s hPos => (hf s).symm ▸ hPos }

theorem SoundAmounts.undoChallengeReveal : SoundAmounts (undoChallengeReveal c tx) := by
  unfold CloudService.undoChallengeReveal
  split
  · exact h
  · split
    · have hResponder : SoundAmounts (modifyResponderStake c tx.opoiRequestId fun s =>
          { s with stakeStatus := .active }) := by
        unfold modifyResponderStake
        split
        · exact h.modifyStake _ fun _ => rfl
        · exact h
      exact hResponder.of_eq rfl rfl rfl
    · exact h.of_eq rfl rfl rfl
    · exact h.of_eq rfl rfl rfl

theorem SoundAmounts.undoModelRegister : SoundAmounts (undoModelRegister c tx) :=
  { h with
    votes := fun id voter v hv => by
      rw [CloudService.undoModelRegister, Std.ExtTreeMap.getD_erase] at hv
      split at hv
      · simp at hv
      · exact h.votes id voter v hv }

theorem SoundAmounts.undoModelVote : SoundAmounts (undoModelVote c tx) :=
  { h with
    votes := fun id voter v hv => by
      refine h.votes id voter v ?_
      simp only [CloudService.undoModelVote, Std.ExtTreeMap.getD_eq_getD_getElem?,
        TreeMap.getElem?_modify_eq] at hv ⊢
      split at hv
      · cases hOld : c.mapModelVotes[id]? with
        | none => simp [hOld] at hv
        | some votes =>
          rw [hOld, Option.map_some, Option.getD_some, TreeMap.getElem?_erase_eq] at hv
          split at hv
          · cases hv
          · exact hv
      · exact hv }

theorem SoundAmounts.undoAuditorVerify : SoundAmounts (undoAuditorVerify c tx) := by
  unfold CloudService.undoAuditorVerify unlockUnlessSlashed
  split <;> dsimp only <;> split <;> exact h.of_eq rfl rfl rfl

theorem SoundAmounts.undo : SoundAmounts (undoOPoITransaction c tx) := by
  unfold undoOPoITransaction
  cases hType : tx.opoiType with
  | request => exact { h with requests := TreeMap.forall_erase h.requests }
  | response =>
    dsimp only
    split
    · unfold undoResponseCommit
      refine SoundAmounts.modifyRequest ?_ _ fun _ => rfl
      exact h.of_eq rfl rfl rfl
    · unfold undoResponseReveal
      refine SoundAmounts.modifyStake ?_ _ fun s => ?_
      · refine SoundAmounts.of_eq (c := OPoICache.modifyRequest _ _ _) ?_ rfl rfl rfl
        refine SoundAmounts.modifyRequest ?_ _ fun _ => rfl
        exact h.of_eq rfl rfl rfl
      · split
        · rfl
        · rfl
  | stake => exact { h with stakes := TreeMap.forall_erase h.stakes }
  | unstake => exact h.modifyStake _ fun _ => rfl
  | challenge =>
    dsimp only
    split
    · exact h.of_eq rfl rfl rfl
    · exact h.undoChallengeReveal
  | modelRegister => exact h.undoModelRegister
  | modelVote => exact h.undoModelVote
  | auditorVerify => exact h.undoAuditorVerify
  | renew | coordinatorClaim | shardResult | unknown => exact h.of_eq rfl rfl rfl

end

/-! ## The node -/

theorem soundAmounts_of_reachable {node : NodeState} (h : Reachable env node) :
    SoundAmounts node.cache := by
  have hInvariant : CacheInvariant env DeclaresAmount SoundAmounts :=
    { accepted := fun _ _ _ hAccepted hOPoI => declaresAmount_of_accepted hAccepted hOPoI
      onNull := fun _ => ⟨fun _ _ h => (by cases h), fun _ _ h => (by cases h),
        fun _ _ _ h => (by cases h)⟩
      onApply := fun _ _ _ _ hTx hc => hc.apply hTx
      onUndo := fun _ _ hc => hc.undo
      onPasses := fun height =>
        .of_relation (passPreserved_sameAmounts env height) .refl .of_same }
  exact hInvariant.reachable h

theorem SoundAmounts.afterTxs {node : NodeState} {block : CBlock} (h : SoundAmounts node.cache)
    (hBlock : AcceptedBlock env node block) : SoundAmounts (afterTxs env node block.vtx) :=
  hBlock.induction h fun _ _ hMem hTx hc =>
    hc.apply (declaresAmount_of_accepted hTx.checked (mem_opoiTxs.mp hMem).2)

end Records

/-- Reorganisations included, amounts stay positive and records payable. -/
theorem sound_of_reachable {env : Env} {node : NodeState} (h : Reachable env node) :
    SoundAmounts node.cache ∧ RecordsPayable env node.cache :=
  ⟨soundAmounts_of_reachable h, recordsPayable_of_reachable h⟩

theorem sound_of_challenged : ∃ node,
    PlainRun sampleNet sampleChallengedBlocks node ∧
      SoundAmounts node.cache ∧ RecordsPayable sampleNet node.cache :=
  Run.exists_steps_imp .other (fun _ => True) (by decide +kernel)
    fun _ hRun _ => sound_of_reachable (reachable_of_forwardRun hRun)

end CloudService
