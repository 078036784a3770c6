/-
  A challenge that the auditors prove slashes the miner who answered, if the stake is ACTIVE.
  It is marked SLASHED in any case.
-/

import CloudService.Chain.Evaluate
import CloudService.OPoI.TxEffects
import CloudService.Stakes.Evolution

namespace CloudService

open OPoICache TreeMap

def isProven (c : OPoICache) (r : String) : Bool :=
  (c.mapChallenges[r]?).any (·.challengeStatus == .slashed)

def newlyProven (c₀ c : OPoICache) (r : String) : Bool := isProven c r && !isProven c₀ r

def responderSlashed (c : OPoICache) (r : String) : Bool :=
  (rewardStake c r).any (·.stakeStatus == .slashed)

/-- The stake that answers for a request is one that a proven challenge leaves SLASHED. -/
def slashable (c : OPoICache) (r : String) : Bool :=
  (rewardStake c r).any fun s => s.stakeStatus == .active || s.stakeStatus == .slashed

/-- Whoever answered a request whose challenge became SLASHED is SLASHED. -/
def ProvenSlashed (c₀ c : OPoICache) : Prop :=
  ∀ r, newlyProven c₀ c r = true → responderSlashed c r = true

/-- A decided REVEAL finds a stake that can be slashed, and what it slashed is not replaced, renewed
    or hidden in the rest of the block. -/
def provenSafe (env : Env) (c₀ c : OPoICache) (tx : CTransaction) : Bool :=
  match tx.opoiType with
  | .stake | .renew =>
    c.mapChallenges.keys.all fun r =>
      !newlyProven c₀ c r || responder c r != some tx.opoiMinerAddress
  | .response => tx.opoiResponsePhase == 0 || !newlyProven c₀ c tx.opoiRequestId
  | .challenge =>
    tx.opoiChallengePhase == 0 || revealOutcome env c tx != .slashed ||
      slashable c tx.opoiRequestId
  | _ => true

/-- The same for the pending challenges that the pass after the loop will decide. -/
def resolvable (env : Env) (c : OPoICache) : Bool :=
  c.mapChallenges.toList.all fun entry =>
    !entry.2.isPendingResolution ||
      c.getAuditorMajorityResult entry.1 env.params.nOPoIMinAuditors
        != some AUDITOR_VERIFY_FAIL ||
      slashable c entry.1

/-- `provenSafe` at every turn of the block, and `resolvable` after the loop. -/
structure SlashableBlock (env : Env) (node : NodeState) (block : CBlock) : Prop where
  txs : onBlock env (fun node st tx => tx.isOPoITx = true →
    provenSafe env node.cache st.cache tx = true) node block
  passes : ∀ st, connectLoop env {} node.context block node.cache = .ok st →
    resolvable env st.cache = true

instance {env : Env} {node : NodeState} {block : CBlock} :
    Decidable (SlashableBlock env node block) :=
  decidable_of_iff (_ ∧ _) ⟨fun h => ⟨h.1, h.2⟩, fun h => ⟨h.txs, h.passes⟩⟩

section Proven

variable {env : Env} {chainActive : List Uint256} {blockHeight : Nat} {c₀ c c' : OPoICache}
  {tx : CTransaction} {r : String}

theorem resolvable_iff :
    resolvable env c = true ↔ ∀ (r : String) (ch : OPoIChallenge), c.mapChallenges[r]? = some ch →
      ch.isPendingResolution = true →
      c.getAuditorMajorityResult r env.params.nOPoIMinAuditors = some AUDITOR_VERIFY_FAIL →
      slashable c r = true := by
  simp only [resolvable, List.all_eq_true, Prod.forall,
    Std.ExtTreeMap.mem_toList_iff_getElem?_eq_some, Bool.or_eq_true, Bool.not_eq_true',
    bne_iff_ne, ne_eq]
  refine forall_congr' fun r => forall_congr' fun ch => imp_congr_right fun _ => ?_
  cases ch.isPendingResolution with
  | false => simp
  | true =>
    by_cases hFail : c.getAuditorMajorityResult r env.params.nOPoIMinAuditors =
        some AUDITOR_VERIFY_FAIL
    · simp [hFail]
    · simp [hFail]

/-! ## The stake that answers -/

theorem rewardStake_eq_some {s : OPoIStake} :
    rewardStake c r = some s ↔ ∃ m, responder c r = some m ∧ c.mapStakes[m]? = some s := by
  unfold rewardStake
  cases responder c r <;> simp

theorem responder_congr (hResponses : c'.mapResponses = c.mapResponses) :
    responder c' r = responder c r := by
  simp only [responder, hResponses]

theorem responderSlashed_of_responder (hResponder : responder c' r = responder c r)
    (hStakes : StakesEvolve c c') (h : responderSlashed c r = true) :
    responderSlashed c' r = true := by
  obtain ⟨s, hStake, hStatus⟩ := (Option.any_eq_true _ _).mp h
  obtain ⟨m, hMiner, hStake⟩ := rewardStake_eq_some.mp hStake
  obtain ⟨s', hStake', hEvolves⟩ := hStakes.get hStake
  have hLater := hEvolves.status
  rw [beq_iff_eq.mp hStatus] at hLater
  have hAnswer := rewardStake_eq_some.mpr ⟨m, hResponder.trans hMiner, hStake'⟩
  simp [responderSlashed, hAnswer, hLater.of_slashed]

theorem responderSlashed_mono (hResponses : c'.mapResponses = c.mapResponses)
    (hStakes : StakesEvolve c c') (h : responderSlashed c r = true) :
    responderSlashed c' r = true :=
  responderSlashed_of_responder (responder_congr hResponses) hStakes h

theorem ProvenSlashed.mono (h : ProvenSlashed c₀ c)
    (hProven : ∀ r, isProven c' r = true → isProven c r = true)
    (hResponses : c'.mapResponses = c.mapResponses) (hStakes : StakesEvolve c c') :
    ProvenSlashed c₀ c' := by
  intro r hNew
  refine responderSlashed_mono hResponses hStakes (h r ?_)
  simp only [newlyProven, Bool.and_eq_true] at hNew ⊢
  exact ⟨hProven r hNew.1, hNew.2⟩

theorem slashStake_status {s : OPoIStake}
    (h : (s.stakeStatus == .active || s.stakeStatus == .slashed) = true) :
    (slashStake s).stakeStatus = .slashed := by
  simp only [Bool.or_eq_true, beq_iff_eq] at h
  rcases h with hActive | hSlashed
  · simp [slashStake, OPoIStake.isActive, hActive]
  · simp [slashStake, OPoIStake.isActive, hSlashed]

theorem responderSlashed_of_slash (hResponses : c'.mapResponses = c.mapResponses)
    (hStakes : c'.mapStakes = responderStakes c r slashStake) (h : slashable c r = true) :
    responderSlashed c' r = true := by
  obtain ⟨s, hStake, hStatus⟩ := (Option.any_eq_true _ _).mp h
  obtain ⟨m, hMiner, hStake⟩ := rewardStake_eq_some.mp hStake
  have hAnswer : rewardStake c' r = some (slashStake s) := by
    refine rewardStake_eq_some.mpr ⟨m, (responder_congr hResponses).trans hMiner, ?_⟩
    rw [hStakes, getElem?_responderStakes, if_pos hMiner, hStake, Option.map_some]
  simp [responderSlashed, hAnswer, slashStake_status hStatus]

theorem slashable_of_slash {key : String} (hResponses : c'.mapResponses = c.mapResponses)
    (hStakes : c'.mapStakes = responderStakes c key slashStake) (h : slashable c r = true) :
    slashable c' r = true := by
  obtain ⟨s, hStake, hStatus⟩ := (Option.any_eq_true _ _).mp h
  obtain ⟨m, hMiner, hStake⟩ := rewardStake_eq_some.mp hStake
  have hAnswer : rewardStake c' r = c'.mapStakes[m]? := by
    rw [rewardStake, (responder_congr hResponses).trans hMiner]
  rw [slashable, hAnswer, hStakes, getElem?_responderStakes, hStake]
  split
  · simp [slashStake_status hStatus]
  · exact hStatus

/-! ## One transaction -/

theorem ProvenSlashed.of_other_miner (h : ProvenSlashed c₀ c) {m : String}
    (hChallenges : c'.mapChallenges = c.mapChallenges)
    (hResponses : c'.mapResponses = c.mapResponses)
    (hStakes : ∀ m', m ≠ m' → c'.mapStakes[m']? = c.mapStakes[m']?)
    (hOther : c.mapChallenges.keys.all (fun r =>
      !newlyProven c₀ c r || responder c r != some m) = true) : ProvenSlashed c₀ c' := by
  intro r hNew
  have hNew' : newlyProven c₀ c r = true := by
    simpa only [newlyProven, isProven, hChallenges] using hNew
  have hSlashed := h r hNew'
  have hKey : r ∈ c.mapChallenges.keys := by
    rw [Std.ExtTreeMap.mem_keys, ← Std.ExtTreeMap.isSome_getElem?_iff_mem]
    simp only [newlyProven, isProven, Bool.and_eq_true] at hNew'
    obtain ⟨ch, hCh, _⟩ := (Option.any_eq_true _ _).mp hNew'.1
    rw [hCh]
    rfl
  have hMiner := List.all_eq_true.mp hOther r hKey
  simp only [hNew', Bool.not_true, Bool.false_or, bne_iff_ne] at hMiner
  obtain ⟨s, hStake, hStatus⟩ := (Option.any_eq_true _ _).mp hSlashed
  obtain ⟨m', hAnswer, hStake⟩ := rewardStake_eq_some.mp hStake
  rw [hAnswer] at hMiner
  rw [← hStakes m' fun hEq => hMiner (by rw [hEq])] at hStake
  have hStill := rewardStake_eq_some.mpr ⟨m', (responder_congr hResponses).trans hAnswer, hStake⟩
  rwa [responderSlashed, hStill]

theorem ProvenSlashed.challengeReveal (h : ProvenSlashed c₀ c)
    (hSafe : revealOutcome env c tx = .slashed → slashable c tx.opoiRequestId = true) :
    ProvenSlashed c₀ (applyChallengeReveal env c tx) := by
  have hEvolve : StakesEvolve c (applyChallengeReveal env c tx) := stakesEvolve_challengeReveal
  cases hCh : c.mapChallenges[tx.opoiRequestId]? with
  | none =>
    unfold applyChallengeReveal
    rw [hCh]
    exact h
  | some ch =>
    rw [applyChallengeReveal_eq env c tx hCh] at hEvolve ⊢
    intro r hNew
    by_cases hr : tx.opoiRequestId = r
    · subst hr
      have hOutcome : revealOutcome env c tx = .slashed := by
        simp only [newlyProven, isProven, getElem?_modify_eq, if_true, hCh,
          Option.map_some, Option.any_some, Bool.and_eq_true, beq_iff_eq] at hNew
        exact hNew.1
      refine responderSlashed_of_slash (c := c) rfl ?_ (hSafe hOutcome)
      simp only [hOutcome, if_true]
    · refine responderSlashed_mono (c := c) rfl hEvolve (h r ?_)
      simpa only [newlyProven, isProven, getElem?_modify_eq, hr, if_false] using hNew

theorem ProvenSlashed.apply (h : ProvenSlashed c₀ c) (hSafe : provenSafe env c₀ c tx = true) :
    ProvenSlashed c₀ (applyOPoITransaction env chainActive blockHeight c tx) := by
  have hFrame := applyOPoITransaction_txFrame env blockHeight c tx chainActive
  unfold provenSafe at hSafe
  cases hType : tx.opoiType with
  | stake =>
    rw [hType] at hSafe
    simp only [applyOPoITransaction, hType]
    refine h.of_other_miner (m := tx.opoiMinerAddress) rfl rfl (fun m' hNe => ?_) hSafe
    simp [applyStake, addStake, lockUTXO, newStake, hNe]
  | renew =>
    rw [hType] at hSafe
    simp only [applyOPoITransaction, hType]
    refine h.of_other_miner (m := tx.opoiMinerAddress) rfl rfl (fun m' hNe => ?_) hSafe
    simp [applyRenew, modifyStake, hNe]
  | challenge =>
    rw [hType] at hSafe
    simp only [applyOPoITransaction, hType]
    split
    · -- A COMMIT replaces the record by an OPEN one.
      have hEvolve : StakesEvolve c (applyChallengeCommit env blockHeight c tx) := by
        refine StakesEvolve.trans ?_ (.modifyResponderStake fun s => ⟨rfl, .inl rfl⟩)
        exact .of_eq rfl
      unfold applyChallengeCommit at hEvolve ⊢
      rw [modifyResponderStake_eq] at hEvolve ⊢
      refine h.mono (fun r hProven => ?_) rfl hEvolve
      simp only [isProven, lockUTXO, addChallenge, getElem?_insert_eq] at hProven
      split at hProven
      · simp [openedChallenge] at hProven
      · exact hProven
    · rename_i hReveal
      refine h.challengeReveal fun hOutcome => ?_
      simpa [hReveal, hOutcome] using hSafe
  | response =>
    rw [hType] at hSafe
    have hEvolve : StakesEvolve c (applyOPoITransaction env chainActive blockHeight c tx) :=
      applyOPoITransaction_stakesEvolve (by simp [hType]) (by simp [hType])
    have hChallenges := hFrame.challenges (by simp [hType])
    by_cases hCommit : tx.opoiResponsePhase = 0
    · exact h.mono (fun r hr => by simpa only [isProven, hChallenges] using hr)
        (hFrame.responses fun _ => hCommit) hEvolve
    · -- Only the response to this request changes, and its challenge is not newly proven.
      intro r hNew
      have hNew' : newlyProven c₀ c r = true := by
        simpa only [newlyProven, isProven, hChallenges] using hNew
      have hr : tx.opoiRequestId ≠ r := by
        rintro rfl
        simp [hCommit, hNew'] at hSafe
      have hResponder : responder (applyOPoITransaction env chainActive blockHeight c tx) r =
          responder c r := by
        simp [applyOPoITransaction, hType, hCommit, applyResponseReveal, responder,
          addResponse, modifyRequest, modifyStake, revealedResponse, hr]
      exact responderSlashed_of_responder hResponder hEvolve (h r hNew')
  | request | unstake | auditorVerify | modelRegister | modelVote | coordinatorClaim | shardResult
    | unknown =>
    have hChallenges := hFrame.challenges (by simp [hType])
    exact h.mono (fun r hr => by simpa only [isProven, hChallenges] using hr)
      (hFrame.responses (by simp [hType]))
      (applyOPoITransaction_stakesEvolve (by simp [hType]) (by simp [hType]))

/-! ## The pass over the challenges -/

def ChallengesKeyed (c : OPoICache) : Prop :=
  ∀ (r : String) (ch : OPoIChallenge), c.mapChallenges[r]? = some ch → ch.requestId = r

theorem ChallengesKeyed.modify (h : ChallengesKeyed c) {key : String}
    {f : OPoIChallenge → OPoIChallenge}
    (hChallenges : c'.mapChallenges = c.mapChallenges.modify key f)
    (hf : ∀ ch, (f ch).requestId = ch.requestId) : ChallengesKeyed c' := by
  intro r ch hCh
  rw [hChallenges, getElem?_modify_eq] at hCh
  split at hCh
  · obtain ⟨old, hOld, rfl⟩ := Option.map_eq_some_iff.mp hCh
    rw [hf]
    exact h r old hOld
  · exact h r ch hCh

theorem ChallengesKeyed.of_eq (h : ChallengesKeyed c) (hEq : c'.mapChallenges = c.mapChallenges) :
    ChallengesKeyed c' := by
  unfold ChallengesKeyed
  rw [hEq]
  exact h

theorem ChallengesKeyed.expireChallenge (h : ChallengesKeyed c) (key : String) :
    ChallengesKeyed (expireChallenge env blockHeight c key) := by
  rcases expireChallenge_cases env blockHeight c key with
    hEq | ⟨ch, _, _, hEq⟩ | ⟨ch, _, _, _, hEq⟩
  · rw [hEq]
    exact h
  · rw [hEq]
    exact h.modify rfl fun _ => rfl
  · rw [hEq]
    exact h.modify rfl fun _ => rfl

structure Resolving (env : Env) (c₀ c : OPoICache) : Prop where
  proven : ProvenSlashed c₀ c
  keyed : ChallengesKeyed c
  resolvable : resolvable env c = true

theorem Resolving.expire (h : Resolving env c₀ c) {key : String} {ch : OPoIChallenge}
    (hCh : c.mapChallenges[key]? = some ch) :
    Resolving env c₀ { c with
      mapChallenges := c.mapChallenges.modify key fun ch =>
        { ch with challengeStatus := .expired } }
    where
  proven := by
    refine h.proven.mono (fun r hProven => ?_) rfl (.of_eq rfl)
    simp only [isProven, getElem?_modify_eq] at hProven
    split at hProven
    · rename_i hr
      rw [← hr, hCh] at hProven
      simp at hProven
    · exact hProven
  keyed := h.keyed.modify rfl fun _ => rfl
  resolvable := by
    rw [resolvable_iff]
    intro r cur hCur hPending hFail
    simp only [getElem?_modify_eq] at hCur
    split at hCur
    · obtain ⟨old, _, rfl⟩ := Option.map_eq_some_iff.mp hCur
      simp [OPoIChallenge.isPendingResolution] at hPending
    · exact resolvable_iff.mp h.resolvable r cur hCur hPending hFail

theorem Resolving.prove (h : Resolving env c₀ c) {key : String} {ch : OPoIChallenge}
    (hCh : c.mapChallenges[key]? = some ch) (hPending : ch.isPendingResolution = true)
    (hFail : c.getAuditorMajorityResult ch.requestId env.params.nOPoIMinAuditors
      = some AUDITOR_VERIFY_FAIL)
    (hEq : c' = { c with
      mapStakes := responderStakes c ch.requestId slashStake
      mapLockedUTXOs := c.mapLockedUTXOs.erase ch.challengerCollateral
      mapLockingTxHash := c.mapLockingTxHash.erase ch.challengerCollateral
      mapChallenges := c.mapChallenges.modify key fun ch =>
        { ch with challengeStatus := .slashed } }) : Resolving env c₀ c' := by
  have hKey : ch.requestId = key := h.keyed key ch hCh
  rw [hKey] at hFail hEq
  have hSlashable : slashable c key = true :=
    resolvable_iff.mp h.resolvable key ch hCh hPending hFail
  have hStakes : c'.mapStakes = responderStakes c key slashStake := by rw [hEq]
  have hResponses : c'.mapResponses = c.mapResponses := by rw [hEq]
  have hChallenges : c'.mapChallenges = c.mapChallenges.modify key fun ch =>
      { ch with challengeStatus := .slashed } := by rw [hEq]
  have hGet : ∀ r, c'.mapChallenges[r]? = if key = r then
      (c.mapChallenges[r]?).map fun ch => { ch with challengeStatus := .slashed }
      else c.mapChallenges[r]? := by
    intro r
    rw [hChallenges]
    exact getElem?_modify_eq _ _ _ _
  have hEvolve : StakesEvolve c c' := by
    have hSlash : StakesEvolve c (modifyResponderStake c key slashStake) :=
      .modifyResponderStake slashStake_evolves
    rw [modifyResponderStake_eq] at hSlash
    rw [hEq]
    exact hSlash
  refine ⟨fun r hNew => ?_, h.keyed.modify hChallenges fun _ => rfl, ?_⟩
  · by_cases hr : key = r
    · subst hr
      exact responderSlashed_of_slash hResponses hStakes hSlashable
    · refine responderSlashed_mono hResponses hEvolve (h.proven r ?_)
      simpa only [newlyProven, isProven, hGet, hr, if_false] using hNew
  · rw [resolvable_iff]
    intro r cur hCur hPending' hFail'
    rw [hGet] at hCur
    split at hCur
    · obtain ⟨old, _, rfl⟩ := Option.map_eq_some_iff.mp hCur
      simp [OPoIChallenge.isPendingResolution] at hPending'
    · refine slashable_of_slash hResponses hStakes ?_
      refine resolvable_iff.mp h.resolvable r cur hCur hPending' ?_
      rw [hEq] at hFail'
      exact hFail'

theorem Resolving.expireChallenge (h : Resolving env c₀ c) (key : String) :
    Resolving env c₀ (expireChallenge env blockHeight c key) := by
  rcases expireChallenge_cases env blockHeight c key with
    hEq | ⟨ch, hCh, _, hEq⟩ | ⟨ch, hCh, hPending, hFail, hEq⟩
  · rw [hEq]
    exact h
  · rw [hEq]
    exact h.expire hCh
  · exact h.prove hCh hPending hFail hEq

theorem Resolving.connectPasses (h : Resolving env c₀ c) (vtx : List CTransaction) :
    ProvenSlashed c₀ (connectPasses env blockHeight vtx c) := by
  -- The reward marks are read by nothing here.
  have hMarked : Resolving env c₀ (processChallengerRewardPayments env vtx c) :=
    List.foldlRecOn _ _ h fun b hb r _ => ⟨hb.proven, hb.keyed, hb.resolvable⟩
  have hResolved : Resolving env c₀ (expireChallenges env blockHeight
      (processChallengerRewardPayments env vtx c)) :=
    List.foldlRecOn _ _ hMarked fun b hb key _ => hb.expireChallenge key
  unfold CloudService.connectPasses
  rw [blockPasses_eq]
  generalize expireChallenges env blockHeight (processChallengerRewardPayments env vtx c) = late
    at hResolved
  obtain ⟨hChallenges, hResponses, _⟩ := 
    latePasses_frame env blockHeight late vtx
  have hEvolve : StakesEvolve late (latePasses env blockHeight late vtx) :=
    passPreserved_stakesEvolve.toLatePreserved.latePasses (.refl late) vtx
  exact hResolved.proven.mono (fun r hr => by simpa only [isProven, hChallenges] using hr)
    hResponses hEvolve

/-! ## Blocks -/

theorem ChallengesKeyed.apply (h : ChallengesKeyed c) :
    ChallengesKeyed (applyOPoITransaction env chainActive blockHeight c tx) := by
  obtain ⟨_, _, hMap⟩ | ⟨_, _, hMap⟩ | ⟨_, hMap⟩ :=
    mapChallenges_cases env chainActive blockHeight c tx
  · intro r ch hCh
    rw [hMap, getElem?_insert_eq] at hCh
    split at hCh
    · rename_i hEq
      cases hCh
      exact hEq
    · exact h r ch hCh
  · exact h.modify hMap fun _ => rfl
  · exact h.of_eq hMap

theorem preserved_challengesKeyed {p : NodeState → LoopState → CTransaction → Prop} :
    Preserved env p fun _ c => ChallengesKeyed c where
  onTx _ _ _ _ h _ _ _ := h.apply
  onPasses node block c view _ h _ := by
    have hMarked : ChallengesKeyed (processChallengerRewardPayments env block.vtx c) :=
      List.foldlRecOn _ _ h fun b hb r _ => hb
    have hExpired : ChallengesKeyed (expireChallenges env node.nextHeight
        (processChallengerRewardPayments env block.vtx c)) :=
      List.foldlRecOn _ _ hMarked fun b hb key _ => hb.expireChallenge key
    unfold connectPasses
    rw [blockPasses_eq]
    generalize expireChallenges env node.nextHeight
      (processChallengerRewardPayments env block.vtx c) = late at hExpired
    exact hExpired.of_eq (latePasses_frame env node.nextHeight late block.vtx).1
  onQuiet _ _ _ h := h

theorem provenSlashed_self (c : OPoICache) : ProvenSlashed c c := by
  intro r hNew
  simp [newlyProven] at hNew

theorem preservedUnder_provenSlashed :
    PreservedUnder env
      (fun node st tx => tx.isOPoITx = true → provenSafe env node.cache st.cache tx = true)
      (fun _ c => ChallengesKeyed c) fun node c => ProvenSlashed node.cache c where
  onTx _ _ _ _ _ hK _ hOPoI hSafe := hK.apply (hSafe hOPoI)
  onPasses _ _ _ _ _ _ _ _ := by
    rw [NodeState.extend_cache]
    exact provenSlashed_self _
  onQuiet _ _ _ _ hK := hK

/-- In every forward run, a block that meets the condition leaves every responder whose
    challenge became SLASHED in it SLASHED. -/
theorem provenSlashed_of_connectTip {blocks : List CBlock} {node node' : NodeState} {block : CBlock}
    (hRun : PlainRun env blocks node)
    (hTip : connectTip env node block = .ok node') (hSafe : SlashableBlock env node block) :
    ProvenSlashed node.cache node'.cache := by
  have hKeyed : ChallengesKeyed node.cache := by
    refine preserved_challengesKeyed.everyRun ?_ hRun
    intro r ch hCh
    cases hCh
  obtain ⟨st, hLoop, hSteps, _, hNode⟩ := smallSteps_of_connectTip hTip hSafe.txs
  have hSat := preserved_challengesKeyed.run hSteps hKeyed
  have hProven : ProvenSlashed node.cache st.cache :=
    preservedUnder_provenSlashed.run preserved_challengesKeyed hSteps hKeyed
      (provenSlashed_self node.cache)
  rw [hNode, NodeState.extend_cache]
  by_cases hActive : env.params.opoiActive node.nextHeight = true
  · rw [connectTransitions_of_active hActive]
    exact Resolving.connectPasses ⟨hProven, hSat.1, hSafe.passes st hLoop⟩ block.vtx
  · rw [Bool.not_eq_true] at hActive
    rw [connectTransitions_of_inactive hActive]
    exact hProven

end Proven

/-- A REVEAL that finds the stake of the responder ACTIVE. -/
theorem provenSlashed_of_active_stake : ∃ node node',
    PlainRun sampleNet sampleChallengedBlocks node ∧
    connectTip sampleNet node (sampleSettlement []) = .ok node' ∧
    SlashableBlock sampleNet node (sampleSettlement []) ∧
    newlyProven node.cache node'.cache "r" = true ∧ ProvenSlashed node.cache node'.cache := by
  refine ⟨_, _, Run.steps_value .other (by decide +kernel), Run.eq_value (by decide +kernel),
    ?slashable, by decide +kernel,
    provenSlashed_of_connectTip (Run.steps_value .other _) (Run.eq_value _) ?slashable⟩
  decide +kernel

/-- An UNSTAKE before the REVEAL in the same block: the challenge is SLASHED, the stake of
    the responder is UNSTAKING and will be released. -/
theorem not_provenSlashed_of_unstake : ∃ node node',
    PlainRun sampleNet sampleChallengedBlocks node ∧
    connectTip sampleNet node
      (sampleBlock 8 [sampleUnstake sampleMiner 8,
        sampleChallengeReveal "r" "bob" ⟨4002, 2⟩ 7]) = .ok node' ∧
    ¬ ProvenSlashed node.cache node'.cache := by
  refine ⟨_, _, Run.steps_value .other (by decide +kernel), Run.eq_value (by decide +kernel),
    fun hSlashed => ?_⟩
  exact absurd (hSlashed "r" (by decide +kernel)) (by decide +kernel)

end CloudService
