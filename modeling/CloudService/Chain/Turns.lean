/-
  Every transaction of a block is checked once, on the cache before the block. Here each is
  checked again at its turn.
-/

import CloudService.Chain.AppliedTxs
import CloudService.OPoI.CacheTests
import CloudService.OPoI.TxEffects

namespace CloudService

open TreeMap

/-- The OPoI transactions of a block with the caches that they are applied to. -/
def turns (env : Env) (node : NodeState) (block : CBlock) : List (OPoICache × CTransaction) :=
  Run.withStates (applyOPoITransaction env node.chainActive node.nextHeight) node.cache
    (opoiTxs block.vtx)

/-- Every OPoI transaction of the block passes its check on the cache it is applied to. -/
def AcceptedInTurn (env : Env) (node : NodeState) (block : CBlock) : Prop :=
  ∀ e ∈ turns env node block, checkOPoITransaction env false node.chainActive e.1 e.2 = .ok ()

/-- No OPoI transaction finds at its turn a record that an earlier one of the block has spoilt. -/
def Unclashed (env : Env) (node : NodeState) (block : CBlock) : Prop :=
  ∀ e ∈ turns env node block, unclashed env node.chainActive e.1 e.2 = true
deriving Decidable

structure InBlock (c₀ c : OPoICache) : Prop where
  kept : Persists c₀ c
  requests : ∀ (r : String) (req : OPoIRequest), c.mapRequests[r]? = some req →
    (∃ req₀, c₀.mapRequests[r]? = some req₀ ∧ req.commitWindowClosed = req₀.commitWindowClosed ∧
      (req.isExpired = true → req₀.isExpired = true)) ∨
    (c₀.mapRequests[r]? = none ∧ req.commitWindowClosed = false ∧ req.isExpired = false)
  models : ∀ (id : String) (m : ModelManifest), c₀.mapModelManifests[id]? = some m →
    c.mapModelManifests[id]? = some m
  newModels : ∀ (id : String) (m : ModelManifest), c.mapModelManifests[id]? = some m →
    c₀.mapModelManifests[id]? = some m ∨ m.isActive = false
  challenges : ∀ (r : String) (ch₀ : OPoIChallenge), c₀.mapChallenges[r]? = some ch₀ →
    ch₀.isOpen = true → ∃ ch, c.mapChallenges[r]? = some ch ∧
      ch.challengerAddress = ch₀.challengerAddress ∧ ch.commitHash = ch₀.commitHash

section Turns

variable {env : Env} {chainActive hashes : List Uint256} {height : Nat} {c₀ c : OPoICache}
  {tx : CTransaction} {node node' : NodeState} {block : CBlock}

/-! ## One transaction -/

namespace InBlock

theorem refl (c : OPoICache) : InBlock c c where
  kept := .refl c
  requests _ req h := .inl ⟨req, h, rfl, fun h => h⟩
  models _ _ h := h
  newModels _ _ h := .inl h
  challenges _ ch h _ := ⟨ch, h, rfl, rfl⟩

section

variable (h : InBlock c₀ c) (hTx : checkOPoITransaction env false hashes c₀ tx = .ok ())
  (hOPoI : tx.isOPoITx = true)

include h hTx hOPoI

theorem requests_apply (r : String) (req : OPoIRequest)
    (hReq : (applyOPoITransaction env chainActive height c tx).mapRequests[r]? = some req) :
    (∃ req₀, c₀.mapRequests[r]? = some req₀ ∧ req.commitWindowClosed = req₀.commitWindowClosed ∧
      (req.isExpired = true → req₀.isExpired = true)) ∨
    (c₀.mapRequests[r]? = none ∧ req.commitWindowClosed = false ∧ req.isExpired = false) := by
  rcases mapRequests_cases env chainActive height c tx with ⟨hType, new, hMap, hClosed, hExpired⟩ |
    ⟨_, f, hMap, hf⟩ | ⟨_, hMap⟩
  · rw [hMap, getElem?_insert_eq] at hReq
    split at hReq
    · rename_i hId
      cases hReq
      have hBranch := checkOPoITransaction_branch hTx hOPoI
      rw [hType] at hBranch
      exact .inr ⟨hId ▸ (checkRequest_eq_ok hBranch).1, hClosed, hExpired⟩
    · exact h.requests r req hReq
  · rw [hMap, getElem?_modify_eq] at hReq
    split at hReq
    · obtain ⟨old, hOld, rfl⟩ := Option.map_eq_some_iff.mp hReq
      obtain ⟨_, hClosed, hExpired⟩ := hf old
      rcases h.requests r old hOld with ⟨req₀, hReq₀, hSame, hImp⟩ | ⟨hNone, hOpen, hFresh⟩
      · exact .inl ⟨req₀, hReq₀, hClosed.trans hSame, fun hNow => hImp (hExpired hNow)⟩
      · refine .inr ⟨hNone, hClosed.trans hOpen, ?_⟩
        rw [Bool.eq_false_iff] at hFresh ⊢
        exact fun hNow => hFresh (hExpired hNow)
    · exact h.requests r req hReq
  · rw [hMap] at hReq
    exact h.requests r req hReq

theorem challenges_apply (r : String) (ch₀ : OPoIChallenge)
    (hCh₀ : c₀.mapChallenges[r]? = some ch₀) (hOpen : ch₀.isOpen = true) :
    ∃ ch, (applyOPoITransaction env chainActive height c tx).mapChallenges[r]? = some ch ∧
      ch.challengerAddress = ch₀.challengerAddress ∧ ch.commitHash = ch₀.commitHash := by
  obtain ⟨ch, hCh, hSame⟩ := h.challenges r ch₀ hCh₀ hOpen
  rcases mapChallenges_cases env chainActive height c tx with ⟨hType, hCommit, hMap⟩ |
    ⟨_, _, hMap⟩ | ⟨_, hMap⟩
  · have hBranch := checkOPoITransaction_branch hTx hOPoI
    simp only [hType] at hBranch
    obtain ⟨_, _, hPhase⟩ := checkChallenge_eq_ok hBranch
    rw [if_pos hCommit] at hPhase
    -- a COMMIT is accepted only where no challenge is open
    have hNe : tx.opoiRequestId ≠ r := by
      rintro rfl
      rw [(checkChallengeCommit_eq_ok hPhase).2.1 ch₀ hCh₀] at hOpen
      cases hOpen
    rw [hMap, getElem?_insert_eq, if_neg hNe, hCh]
    exact ⟨ch, rfl, hSame⟩
  · rw [hMap, getElem?_modify_eq, hCh]
    split
    · exact ⟨_, rfl, hSame⟩
    · exact ⟨ch, rfl, hSame⟩
  · rw [hMap]
    exact ⟨ch, hCh, hSame⟩

theorem apply :
    InBlock c₀ (applyOPoITransaction env chainActive height c tx) where
  kept := h.kept.apply hTx hOPoI
  requests := h.requests_apply hTx hOPoI
  models id m hm := by
    rcases mapModelManifests_cases env chainActive height c tx with ⟨hType, new, hMap, _⟩ | hMap
    · have hBranch := checkOPoITransaction_branch hTx hOPoI
      rw [hType] at hBranch
      have hNe : tx.opoiModelId ≠ id := by
        rintro rfl
        rw [Persists.checkModelRegister_new hBranch] at hm
        cases hm
      rw [hMap, getElem?_insert_eq, if_neg hNe]
      exact h.models id m hm
    · rw [hMap]
      exact h.models id m hm
  newModels id m hm := by
    rcases mapModelManifests_cases env chainActive height c tx with ⟨_, new, hMap, hNew⟩ | hMap
    · rw [hMap, getElem?_insert_eq] at hm
      split at hm
      · cases hm
        exact .inr hNew
      · exact h.newModels id m hm
    · rw [hMap] at hm
      exact h.newModels id m hm
  challenges := h.challenges_apply hTx hOPoI

end

theorem activeManifest_eq (h : InBlock c₀ c) (model : String) :
    c.activeManifest model = c₀.activeManifest model := by
  unfold OPoICache.activeManifest
  cases hOld : c₀.mapModelManifests[model]? with
  | some m => rw [h.models model m hOld]
  | none =>
    cases hNew : c.mapModelManifests[model]? with
    | none => rfl
    | some m =>
      rcases h.newModels model m hNew with hSame | hInactive
      · rw [hOld] at hSame
        cases hSame
      · simp [hInactive]

/-! ## The tests on records that are left alone -/

/-- An accepted transaction still passes these tests at its turn. -/
theorem standing (h : InBlock c₀ c) (hTx : checkOPoITransaction env false hashes c₀ tx = .ok ())
    (hOPoI : tx.isOPoITx = true) : standing env c tx = true := by
  obtain ⟨_, hStanding, hUnclashed⟩ := (checkOPoITransaction_iff hOPoI).mp hTx
  have hKnown : ∀ {p : OPoIRequest → Bool}, (c₀.mapRequests[tx.opoiRequestId]?).any p = true →
      ∃ req₀ req, c₀.mapRequests[tx.opoiRequestId]? = some req₀ ∧ p req₀ = true ∧
        c.mapRequests[tx.opoiRequestId]? = some req ∧ req₀.Evolves req := by
    intro p hAny
    obtain ⟨req₀, hReq₀, hp⟩ := (Option.any_eq_true _ _).mp hAny
    obtain ⟨req, hReq, hEvolves⟩ := h.kept.requests _ req₀ hReq₀
    exact ⟨req₀, req, hReq₀, hp, hReq, hEvolves⟩
  unfold CloudService.standing at hStanding ⊢
  unfold CloudService.unclashed at hUnclashed
  cases hType : tx.opoiType with
  | request =>
    simp only [hType] at hStanding ⊢
    rw [h.activeManifest_eq]
    exact hStanding
  | response =>
    simp only [hType] at hStanding ⊢
    split
    · rename_i hCommit
      rw [if_pos hCommit] at hStanding
      cases hReq : c.mapRequests[tx.opoiRequestId]? with
      | none => rfl
      | some req =>
        rcases h.requests _ req hReq with ⟨req₀, hReq₀, hClosed, hExpired⟩ | ⟨_, hOpen, hFresh⟩
        · rw [hReq₀] at hStanding
          simp only [Option.all_some, Bool.and_eq_true, Bool.not_eq_true'] at hStanding ⊢
          refine ⟨?_, hClosed.trans hStanding.2⟩
          rw [Bool.eq_false_iff]
          intro hNow
          rw [hExpired hNow] at hStanding
          cases hStanding.1
        · simp [hOpen, hFresh]
    · rename_i hReveal
      rw [if_neg hReveal] at hStanding
      simp only [Bool.and_eq_true] at hStanding ⊢
      refine ⟨?_, hStanding.2⟩
      obtain ⟨req₀, req, hReq₀, hp, hReq, _⟩ := hKnown hStanding.1
      rcases h.requests _ req hReq with ⟨req₁, hReq₁, hClosed, hExpired⟩ | ⟨hNone, _⟩
      · rw [hReq₀] at hReq₁
        cases hReq₁
        simp only [Bool.and_eq_true, Bool.not_eq_true'] at hp
        rw [hReq]
        simp only [Option.any_some, Bool.and_eq_true, Bool.not_eq_true']
        refine ⟨?_, hClosed.trans hp.2⟩
        rw [Bool.eq_false_iff]
        intro hNow
        rw [hExpired hNow] at hp
        cases hp.1
      · rw [hReq₀] at hNone
        cases hNone
  | challenge =>
    simp only [hType, Bool.and_eq_true, Bool.or_eq_true] at hStanding hUnclashed ⊢
    obtain ⟨hResponse, hPhase⟩ := hStanding
    refine ⟨?_, ?_⟩
    · rw [← Std.ExtTreeMap.contains_eq_isSome_getElem?] at hResponse ⊢
      exact h.kept.responses _ hResponse
    · rcases hPhase with hCommit | hReveal
      · exact .inl hCommit
      · by_cases hCommit : tx.opoiChallengePhase = 0
        · exact .inl (by simp [hCommit])
        · right
          rw [if_neg hCommit] at hUnclashed
          obtain ⟨ch₀, hCh₀, hMatch⟩ := (Option.any_eq_true _ _).mp hReveal
          rw [hCh₀] at hUnclashed
          obtain ⟨ch, hCh, hAddress, hHash⟩ := h.challenges _ ch₀ hCh₀ hUnclashed
          rw [hCh, Option.any_some, hAddress, hHash]
          exact hMatch
  | modelVote =>
    simp only [hType] at hStanding ⊢
    obtain ⟨m, hm, hVoting⟩ := (Option.any_eq_true _ _).mp hStanding
    rw [h.models _ m hm]
    exact hVoting
  | coordinatorClaim | shardResult =>
    simp only [hType] at hStanding ⊢
    obtain ⟨req₀, hReq₀⟩ := Option.isSome_iff_exists.mp hStanding
    obtain ⟨req, hReq, _⟩ := h.kept.requests _ req₀ hReq₀
    rw [hReq]
    rfl
  | auditorVerify =>
    simp only [hType] at hStanding ⊢
    obtain ⟨req₀, req, _, hScope, hReq, hEvolves⟩ := hKnown hStanding
    have hModel : req.terms.model = req₀.terms.model := congrArg OPoIRequest.model hEvolves.terms
    change req.model = req₀.model at hModel
    rw [hReq, Option.any_some, h.activeManifest_eq, hModel]
    exact hScope
  | stake | unstake | renew | modelRegister | unknown => rfl

end InBlock

/-! ## A block -/

theorem inBlock_of_turn (hBlock : AcceptedBlock env node block) :
    ∀ e ∈ turns env node block, InBlock node.cache e.1 ∧ e.2 ∈ opoiTxs block.vtx :=
  Run.withStates_invariant _ _ (.refl node.cache) fun _ tx hMem hc =>
    hc.apply (hBlock.txs tx (mem_opoiTxs.mp hMem).1).checked (mem_opoiTxs.mp hMem).2

/-- The OPoI transactions of a connected block are accepted at their turn exactly when none of
    them clashes with an earlier one of the block. -/
theorem acceptedInTurn_iff_unclashed (env : Env) (node node' : NodeState) (block : CBlock)
    (hTip : connectTip env node block = .ok node') :
    AcceptedInTurn env node block ↔ Unclashed env node block := by
  obtain ⟨hBlock, _, _⟩ := connectTip_cache hTip
  refine forall₂_congr fun e he => ?_
  obtain ⟨hIn, hMem⟩ := inBlock_of_turn hBlock e he
  obtain ⟨hVtx, hOPoI⟩ := mem_opoiTxs.mp hMem
  have hTx := (hBlock.txs e.2 hVtx).checked
  rw [checkOPoITransaction_iff hOPoI]
  exact ⟨fun h => h.2.2, fun h =>
    ⟨((checkOPoITransaction_iff hOPoI).mp hTx).1, hIn.standing hTx hOPoI, h⟩⟩

end Turns

/-! ## Two blocks with two REQUESTs -/

def twoRequestsBlock (id id' : String) : CBlock :=
  sampleBlock 3 [sampleRequest id "alice" 2 1, sampleRequest id' "bob" 3 1]

/-- Requests with different ids do not clash. -/
theorem acceptedInTurn_of_two_ids :
    ∃ node node', PlainRun sampleNet [sampleFunding] node ∧
      connectTip sampleNet node (twoRequestsBlock "r" "q") = .ok node' ∧
      (turns sampleNet node (twoRequestsBlock "r" "q")).length = 2 ∧
      AcceptedInTurn sampleNet node (twoRequestsBlock "r" "q") := by
  exact ⟨_, _, Run.steps_value .other (by decide +kernel), Run.eq_value (by decide +kernel),
    by decide +kernel,
    (acceptedInTurn_iff_unclashed _ _ _ _ (Run.eq_value (by decide +kernel))).mpr
      (by decide +kernel)⟩

/-- Two REQUESTs with one id are connected in one block, and the second one is refused at its
    turn. -/
theorem not_acceptedInTurn_of_one_id :
    ∃ node node', PlainRun sampleNet [sampleFunding] node ∧
      connectTip sampleNet node (twoRequestsBlock "r" "r") = .ok node' ∧
      (turns sampleNet node (twoRequestsBlock "r" "r")).map (fun e =>
          checkOPoITransaction sampleNet false node.chainActive e.1 e.2) =
        [.ok (), .error (dos 10 "bad-txns-opoi-request-id-collision")] ∧
      ¬AcceptedInTurn sampleNet node (twoRequestsBlock "r" "r") := by
  refine Run.exists_next_imp .other (fun node _ =>
      (turns sampleNet node (twoRequestsBlock "r" "r")).map (fun e =>
          checkOPoITransaction sampleNet false node.chainActive e.1 e.2) =
        [.ok (), .error (dos 10 "bad-txns-opoi-request-id-collision")]) (by decide +kernel)
    fun node _ _ _ hChecks => ⟨hChecks, fun hAccepted => ?_⟩
  have hMem : Except.error (dos 10 "bad-txns-opoi-request-id-collision") ∈
      (turns sampleNet node (twoRequestsBlock "r" "r")).map (fun e =>
          checkOPoITransaction sampleNet false node.chainActive e.1 e.2) := by
    rw [hChecks]
    simp
  obtain ⟨e, he, hError⟩ := List.mem_map.mp hMem
  rw [hAccepted e he] at hError
  cases hError

end CloudService
