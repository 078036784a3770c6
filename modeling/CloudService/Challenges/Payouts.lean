/-
  How much all blocks of a run take from one stake record for proven challenges. The invariant
  is about the list of all charges so far.
-/

import CloudService.Challenges.Proven
import CloudService.Challenges.Rewards

namespace CloudService

open OPoICache TreeMap CTransaction OPoIStake

variable {node : NodeState} {block : CBlock}

/-- What `CheckOPoIChallengerRewards` computes from one record for a block. -/
def chargedTo (env : Env) (node : NodeState) (block : CBlock) (g : StakeIdentity) : CAmount :=
  if env.params.opoiActive node.nextHeight then
    (((getChallengerRewardsAtHeight env node.cache block.vtx).filter fun w =>
      (rewardStake node.cache w.requestId).any (·.identity == g)).map
      fun w => w.rewardAmount + w.treasuryAmount).sum
  else 0

/-- The rewards and treasury parts that the blocks of a run charge to one stake. -/
def totalCharged (env : Env) (blocks : List CBlock) (g : StakeIdentity) : CAmount :=
  ((blockTrace env blocks).map fun e => chargedTo env e.1 e.2 g).sum

/-- A REVEAL to be rewarded proves the challenge at its turn, against the same ACTIVE record. -/
def revealSafe (env : Env) (c₀ c : OPoICache) (tx : CTransaction) : Bool :=
  tx.opoiType != .challenge || !announced env c₀ tx ||
    c₀.isChallengerRewardPaid tx.opoiRequestId ||
    (rewardStake c₀ tx.opoiRequestId).all fun s₀ =>
      revealOutcome env c tx == .slashed &&
        (rewardStake c tx.opoiRequestId).any fun s => s.isActive && s.identity == s₀.identity

/-- A pending challenge that the auditors have decided against the responder. -/
def pendingFail (env : Env) (c : OPoICache) (r : String) : Bool :=
  (c.mapChallenges[r]?).any (·.isPendingResolution) &&
    c.getAuditorMajorityResult r env.params.nOPoIMinAuditors == some AUDITOR_VERIFY_FAIL

/-- A challenge that the pass after the loop will prove, and that is not rewarded yet. -/
def fallsDue (env : Env) (c : OPoICache) (r : String) : Bool :=
  pendingFail env c r && !c.isChallengerRewardPaid r

/-- The challenges that the pass will prove are against different ACTIVE stakes. -/
def resolvesOnce (env : Env) (c : OPoICache) : Bool :=
  c.mapChallenges.keys.all fun r => !fallsDue env c r ||
    ((rewardStake c r).any (·.isActive) && c.mapChallenges.keys.all fun r' =>
        !fallsDue env c r' || responder c r' != responder c r || r' == r)

def ChargeSafe (env : Env) (node : NodeState) (st : LoopState) (tx : CTransaction) : Prop :=
  tx.isOPoITx = true → renewSafe st.cache tx = true ∧ revealSafe env node.cache st.cache tx = true
deriving Decidable

/-- No slashed stake is renewed, and every payable challenge is proven against an ACTIVE stake of
    its own. -/
structure ChargesOnce (env : Env) (node : NodeState) (block : CBlock) : Prop where
  txs : onBlock env (ChargeSafe env) node block
  passes : ∀ st, connectLoop env {} node.context block node.cache = .ok st →
    resolvesOnce env st.cache = true

instance {env : Env} {node : NodeState} {block : CBlock} : Decidable (ChargesOnce env node block) :=
  decidable_of_iff (_ ∧ _) ⟨fun h => ⟨h.1, h.2⟩, fun h => ⟨h.txs, h.passes⟩⟩

section Payouts

variable {env : Env} {chainActive : List Uint256} {height : Nat} {c₀ c c' : OPoICache}
  {tx : CTransaction} {r : String} {g : StakeIdentity} {G : List StakeIdentity}

/-! ## One transaction -/

/-- Inside a block: no record was charged twice, and charged records are older and SLASHED. -/
structure Charging (height : Nat) (G : List StakeIdentity) (c₀ c : OPoICache) : Prop where
  nodup : G.Nodup
  slashed : ∀ (m : String) (s : OPoIStake), c.mapStakes[m]? = some s → s.identity ∈ G →
    s.stakeStatus = .slashed
  old : ∀ g ∈ G, g.blockHeight < height
  dated : ∀ (m : String) (s : OPoIStake), c.mapStakes[m]? = some s →
    s.minerAddress = m ∧ s.blockHeight ≤ height
  present : ∀ r : String, (c₀.mapChallenges[r]?).isSome = true →
    (c.mapChallenges[r]?).isSome = true
  keyed : ChallengesKeyed c

theorem stake_apply_cases {m : String} {s' : OPoIStake}
    (h : (applyOPoITransaction env chainActive height c tx).mapStakes[m]? = some s') :
    (s'.minerAddress = m ∧ s'.blockHeight = height) ∨
      ∃ s, c.mapStakes[m]? = some s ∧ s'.identity = s.identity ∧
        (renewSafe c tx = true → s.stakeStatus = .slashed → s'.stakeStatus = .slashed) := by
  by_cases hTypeStake : tx.opoiType = .stake
  · simp only [applyOPoITransaction, hTypeStake, applyStake, addStake,
      lockUTXO, getElem?_insert_eq] at h
    split at h
    · rename_i hMiner
      cases h
      exact .inl ⟨hMiner, rfl⟩
    · exact .inr ⟨s', h, rfl, fun _ hSlashed => hSlashed⟩
  · by_cases hTypeRenew : tx.opoiType = .renew
    · simp only [applyOPoITransaction, hTypeRenew, applyRenew, modifyStake, getElem?_modify_eq] at h
      split at h
      · rename_i hMiner
        obtain ⟨s, hStake, rfl⟩ := Option.map_eq_some_iff.mp h
        refine .inr ⟨s, hStake, rfl, fun hSafe hSlashed => ?_⟩
        subst hMiner
        simp [renewSafe, hTypeRenew, hStake, hSlashed] at hSafe
      · exact .inr ⟨s', h, rfl, fun _ hSlashed => hSlashed⟩
    · have hEvolve : StakesEvolve c (applyOPoITransaction env chainActive height c tx) :=
        applyOPoITransaction_stakesEvolve hTypeStake hTypeRenew
      obtain ⟨s, hStake, hEvolves⟩ := hEvolve.get_before h
      refine .inr ⟨s, hStake, hEvolves.identity, fun _ hSlashed => ?_⟩
      have hLater := hEvolves.status
      rw [hSlashed] at hLater
      exact hLater.of_slashed

theorem challenge_kept (h : (c.mapChallenges[r]?).isSome = true) :
    ((applyOPoITransaction env chainActive height c tx).mapChallenges[r]?).isSome = true := by
  obtain ⟨_, _, hMap⟩ | ⟨_, _, hMap⟩ | ⟨_, hMap⟩ := mapChallenges_cases env chainActive height c tx
  · rw [hMap, getElem?_insert_eq]
    split
    · rfl
    · exact h
  · rw [hMap, getElem?_modify_eq]
    split
    · rwa [Option.isSome_map]
    · exact h
  · rwa [hMap]

theorem Charging.apply (h : Charging height G c₀ c) (hRenew : renewSafe c tx = true) :
    Charging height G c₀ (applyOPoITransaction env chainActive height c tx) where
  nodup := h.nodup
  slashed m s' hStake hMem := by
    rcases stake_apply_cases hStake with ⟨_, hHeight⟩ | ⟨s, hOld, hId, hKept⟩
    · have hOlder := h.old _ hMem
      exact absurd hHeight (Nat.ne_of_lt hOlder)
    · rw [hId] at hMem
      exact hKept hRenew (h.slashed m s hOld hMem)
  old := h.old
  dated m s' hStake := by
    rcases stake_apply_cases hStake with ⟨hMiner, hHeight⟩ | ⟨s, hOld, hId, _⟩
    · exact ⟨hMiner, Nat.le_of_eq hHeight⟩
    · have hDated := h.dated m s hOld
      simp only [identity, StakeIdentity.mk.injEq] at hId
      rw [hId.1, hId.2.2.2.1]
      exact hDated
  present r hCh := challenge_kept (h.present r hCh)
  keyed := h.keyed.apply

theorem Charging.responder_eq (h : Charging height G c₀ c) {s : OPoIStake}
    (hStake : rewardStake c r = some s) :
    responder c r = some s.minerAddress ∧ c.mapStakes[s.minerAddress]? = some s := by
  obtain ⟨m, hMiner, hStake⟩ := rewardStake_eq_some.mp hStake
  rw [(h.dated m s hStake).1]
  exact ⟨hMiner, hStake⟩

/-- A REVEAL that the coinbase rewards charges an ACTIVE record and slashes it. -/
theorem Charging.reveal (h : Charging height G c₀ c) (hType : tx.opoiType = .challenge)
    (hRenew : renewSafe c tx = true) (hReveal : revealSafe env c₀ c tx = true)
    (hBefore : ∀ (m : String) (s : OPoIStake), c₀.mapStakes[m]? = some s → s.blockHeight < height)
    (hCharge : announcedCharge env c₀ tx = some g) :
    Charging height (G ++ [g]) c₀ (applyOPoITransaction env chainActive height c tx) := by
  unfold announcedCharge at hCharge
  split at hCharge
  · rename_i hAnnounced
    obtain ⟨hUnpaid, s₀, hStake₀, hId₀, _⟩ := chargeOf_eq_some.mp hCharge
    simp only [revealSafe, hType, hAnnounced, hUnpaid, hStake₀, Option.all_some, Bool.and_eq_true,
      bne_self_eq_false, Bool.not_true, Bool.false_or, beq_iff_eq, hId₀] at hReveal
    obtain ⟨hOutcome, hActive⟩ := hReveal
    obtain ⟨s, hStake, hStatus⟩ := (Option.any_eq_true _ _).mp hActive
    simp only [isActive, Bool.and_eq_true, beq_iff_eq] at hStatus
    obtain ⟨hMiner, hGet⟩ := h.responder_eq hStake
    have hNew : g ∉ G := by
      intro hMem
      rw [← hStatus.2] at hMem
      rw [h.slashed _ s hGet hMem] at hStatus
      cases hStatus.1
    simp only [announced, Bool.and_eq_true, beq_iff_eq] at hAnnounced
    obtain ⟨⟨⟨hPhase, hOpen⟩, _⟩, _⟩ := hAnnounced
    -- The effect of the REVEAL on the record that it charges.
    obtain ⟨ch₀, hCh₀, _⟩ := (Option.any_eq_true _ _).mp hOpen
    obtain ⟨ch, hCh⟩ := Option.isSome_iff_exists.mp
      (h.present tx.opoiRequestId (by rw [hCh₀]; rfl))
    have hSlashed : (applyOPoITransaction env chainActive height c tx).mapStakes[s.minerAddress]? =
        some (slashStake s) := by
      simp only [applyOPoITransaction, hType, hPhase]
      rw [if_neg (by decide), applyChallengeReveal_eq env c tx hCh]
      simp only [hOutcome, if_true]
      rw [getElem?_responderStakes, if_pos hMiner, hGet, Option.map_some]
    have hApply : Charging height G c₀ (applyOPoITransaction env chainActive height c tx) :=
      h.apply hRenew
    refine ⟨?_, fun m s' hStake' hMem => ?_, fun g' hMem => ?_, hApply.dated, hApply.present,
      hApply.keyed⟩
    · exact List.nodup_append.mpr ⟨h.nodup, by simp, by
        rintro a ha b hb rfl
        rw [List.mem_singleton] at hb
        exact hNew (hb ▸ ha)⟩
    · rcases List.mem_append.mp hMem with hOld | hThis
      · exact hApply.slashed m s' hStake' hOld
      · -- Two records of one STAKE sit under one address.
        rw [List.mem_singleton, ← hStatus.2] at hThis
        have hKey := (hApply.dated m s' hStake').1
        simp only [identity, StakeIdentity.mk.injEq] at hThis
        rw [← hKey, hThis.1, hSlashed] at hStake'
        cases hStake'
        simp [slashStake, isActive, hStatus.1]
    · rcases List.mem_append.mp hMem with hOld | hThis
      · exact h.old g' hOld
      · rw [List.mem_singleton] at hThis
        obtain ⟨m, _, hStake₀⟩ := rewardStake_eq_some.mp hStake₀
        rw [hThis, ← hId₀]
        exact hBefore m s₀ hStake₀
  · cases hCharge

/-! ## The transactions of a block -/

/-- The charge of one turn of the loop. -/
def turnCharge (env : Env) (c₀ : OPoICache) (tx : CTransaction) : Option StakeIdentity :=
  if appliesOPoI {} tx && tx.isOPoI .challenge then announcedCharge env c₀ tx else none

theorem filterMap_turnCharge (h : AcceptedBlock env node block) :
    block.vtx.filterMap (turnCharge env c₀) =
      (blockTxs block.vtx .challenge).filterMap (announcedCharge env c₀) := by
  obtain ⟨coinbase, rest, hVtx, hCoinbase, hRest⟩ := h.shape
  rw [hVtx, blockTxs, List.tail_cons, List.filterMap_cons]
  have hHead : turnCharge env c₀ coinbase = none := by
    simp [turnCharge, appliesOPoI, hCoinbase]
  rw [hHead, List.filterMap_filter]
  refine List.filterMap_congr fun tx hMem => ?_
  unfold turnCharge appliesOPoI
  rw [hRest tx hMem]
  cases hOPoI : tx.isOPoITx with
  | false => simp [isOPoI, hOPoI]
  | true => simp

theorem Charging.turn {st st' : LoopState} (h : Charging node.nextHeight G node.cache st.cache)
    (hBefore : ∀ (m : String) (s : OPoIStake), node.cache.mapStakes[m]? = some s →
      s.blockHeight < node.nextHeight)
    (hSafe : ChargeSafe env node st tx)
    (hTurn : connectTx env {} node.context block st tx = .ok st') :
    Charging node.nextHeight (G ++ (turnCharge env node.cache tx).toList) node.cache st'.cache := by
  rw [(connectTx_eq_ok hTurn).1]
  unfold loopCache turnCharge
  cases hApplies : appliesOPoI {} tx with
  | false => simpa using h
  | true =>
    have hOPoI : tx.isOPoITx = true := by
      simp only [appliesOPoI, Bool.and_eq_true] at hApplies
      exact hApplies.2
    obtain ⟨hRenew, hReveal⟩ := hSafe hOPoI
    by_cases hType : tx.opoiType = .challenge
    · rw [if_pos (by simp [isOPoI, hOPoI, hType])]
      cases hCharge : announcedCharge env node.cache tx with
      | none => simpa using h.apply hRenew
      | some g => exact h.reveal hType hRenew hReveal hBefore hCharge
    · rw [if_neg (by simp [isOPoI, hType])]
      simpa using h.apply hRenew

theorem Charging.loop {st : LoopState} (h : Charging node.nextHeight G node.cache node.cache)
    (hBefore : ∀ (m : String) (s : OPoIStake), node.cache.mapStakes[m]? = some s →
      s.blockHeight < node.nextHeight)
    (hBlock : AcceptedBlock env node block) (hSafe : ChargesOnce env node block)
    (hLoop : connectLoop env {} node.context block node.cache = .ok st) :
    Charging node.nextHeight (G ++ (blockTxs block.vtx .challenge).filterMap
      (announcedCharge env node.cache)) node.cache st.cache := by
  have hSteps := steps_of_connectLoop (p := ChargeSafe env) hLoop hSafe.txs
  have hRun := hSteps.invariant_trace
    (fun past st => Charging node.nextHeight
      (G ++ (past.map Prod.snd).filterMap (turnCharge env node.cache)) node.cache st.cache)
    (fun past st tx st' hPast hOk hTurn => by
      have hNext := Charging.turn hPast hBefore hOk hTurn
      have hOne : [tx].filterMap (turnCharge env node.cache) =
          (turnCharge env node.cache tx).toList := by
        cases hCharge : turnCharge env node.cache tx with
        | none => simp [hCharge]
        | some g => simp [hCharge]
      rw [List.append_assoc, ← hOne, ← List.filterMap_append] at hNext
      simpa using hNext) [] (by simpa [loopStart] using h)
  rw [List.nil_append, hSteps.map_snd_trace, filterMap_turnCharge hBlock] at hRun
  exact hRun

/-! ## The pass over the challenges -/

theorem chargeOf_marked (hKeyed : ChallengesKeyed c) (vtx : List CTransaction)
    (hProven : isProven c r = true) :
    chargeOf env (processChallengerRewardPayments env vtx c) r = none := by
  obtain ⟨paid, hEq, hPaid⟩ := processChallengerRewardPayments_eq env c vtx
  cases hCharge : chargeOf env (processChallengerRewardPayments env vtx c) r with
  | none => rfl
  | some g =>
    rw [hEq] at hCharge
    obtain ⟨hUnpaid, s, hStake, hId, hPays⟩ := chargeOf_eq_some.mp hCharge
    have hNot : ¬ (c.isChallengerRewardPaid r = true ∨
        ∃ w ∈ getChallengerRewardsAtHeight env c vtx, w.requestId = r) := by
      rw [← hPaid r, Bool.not_eq_true]
      exact hUnpaid
    rw [not_or, Bool.not_eq_true] at hNot
    have hOwed : chargeOf env c r = some g := chargeOf_eq_some.mpr ⟨hNot.1, s, hStake, hId, hPays⟩
    have hOn : ¬ (env.params.nOPoIChallengerRewardPct ≤ 0 ∧
        env.params.nOPoITreasuryRewardPct ≤ 0) := by
      simp only [paysOut, Bool.and_eq_true, Bool.or_eq_true, decide_eq_true_eq] at hPays
      omega
    -- The challenge is one of those that the list of rewards starts with.
    obtain ⟨ch, hCh, hStatus⟩ := (Option.any_eq_true _ _).mp hProven
    have hMem : ch ∈ vals c.mapChallenges := mem_vals.mpr ⟨r, hCh⟩
    rw [← tryReward_charge (a := ch.challengerAddress) hOn] at hOwed
    obtain ⟨w, hReward, _⟩ := Option.bind_eq_some_iff.mp hOwed
    refine absurd ⟨w, ?_, (tryReward_eq_some hReward).1⟩ hNot.2
    unfold getChallengerRewardsAtHeight
    rw [if_neg hOn]
    refine List.mem_append_left _ (List.mem_filterMap.mpr ⟨ch, hMem, ?_⟩)
    rw [if_pos (beq_iff_eq.mp hStatus), hKeyed r ch hCh]
    exact hReward

def due (env : Env) (c : OPoICache) (r : String) : Bool := isProven c r || pendingFail env c r

/-- What the pass over the challenges keeps: the records to be charged are different and new. -/
structure Falling (env : Env) (G : List StakeIdentity) (c : OPoICache) : Prop where
  keyed : ChallengesKeyed c
  fresh : ∀ r g, due env c r = true → chargeOf env c r = some g → g ∉ G ∧ slashable c r = true
  distinct : ∀ r r' g, due env c r = true → due env c r' = true → chargeOf env c r = some g →
    chargeOf env c r' = some g → r = r'
  done : ∀ r g, isProven c r = true → chargeOf env c r = some g → responderSlashed c r = true

theorem Falling.step (h : Falling env G c) (hKeyed : ChallengesKeyed c')
    (hDue : ∀ r, due env c' r = true → due env c r = true)
    (hCharge : ∀ r, chargeOf env c' r = chargeOf env c r)
    (hSlashable : ∀ r, slashable c r = true → slashable c' r = true)
    (hDone : ∀ r g, isProven c' r = true → chargeOf env c r = some g →
      responderSlashed c' r = true) : Falling env G c' where
  keyed := hKeyed
  fresh r g hr hg := by
    rw [hCharge] at hg
    obtain ⟨hNew, hStanding⟩ := h.fresh r g (hDue r hr) hg
    exact ⟨hNew, hSlashable r hStanding⟩
  distinct r r' g hr hr' hg hg' := by
    rw [hCharge] at hg hg'
    exact h.distinct r r' g (hDue r hr) (hDue r' hr') hg hg'
  done r g hr hg := by
    rw [hCharge] at hg
    exact hDone r g hr hg

theorem Falling.expireChallenge (h : Falling env G c) (key : String) :
    Falling env G (expireChallenge env height c key) := by
  have hKeyed : ChallengesKeyed (CloudService.expireChallenge env height c key) :=
    h.keyed.expireChallenge key
  have hStakes : StakesEvolve c (CloudService.expireChallenge env height c key) :=
    stakesEvolve_expireChallenge key
  rcases expireChallenge_cases env height c key with
    hEq | ⟨ch, hCh, _, hEq⟩ | ⟨ch, hCh, hPending, hFail, hEq⟩
  · rw [hEq]
    exact h
  · -- An expired challenge is not due.
    rw [hEq] at hKeyed ⊢
    have hProven : ∀ r, isProven { c with mapChallenges := c.mapChallenges.modify key fun ch =>
        { ch with challengeStatus := .expired } } r = true → isProven c r = true := by
      intro r hr
      simp only [isProven, getElem?_modify_eq] at hr ⊢
      split at hr
      · rename_i hKey
        rw [← hKey, hCh] at hr
        simp at hr
      · exact hr
    refine h.step hKeyed (fun r hr => ?_) (fun r => rfl) (fun r hr => hr)
      fun r g hr hg => h.done r g (hProven r hr) hg
    simp only [due, Bool.or_eq_true] at hr ⊢
    refine hr.imp (hProven r) fun hPending => ?_
    simp only [pendingFail, getElem?_modify_eq] at hPending ⊢
    split at hPending
    · rename_i hKey
      rw [← hKey, hCh] at hPending
      simp [OPoIChallenge.isPendingResolution] at hPending
    · exact hPending
  · -- A proven challenge was due, and its record was ACTIVE or is SLASHED already.
    have hRequest : ch.requestId = key := h.keyed key ch hCh
    rw [hRequest] at hEq hFail
    generalize CloudService.expireChallenge env height c key = c' at hKeyed hStakes hEq ⊢
    have hResponses : c'.mapResponses = c.mapResponses := by rw [hEq]
    have hPaid : c'.setPaidChallengerRewards = c.setPaidChallengerRewards := by rw [hEq]
    have hSlash : c'.mapStakes = responderStakes c key slashStake := by rw [hEq]
    have hGet : ∀ r, c'.mapChallenges[r]? = if key = r then
        (c.mapChallenges[r]?).map fun ch => { ch with challengeStatus := .slashed }
        else c.mapChallenges[r]? := by
      intro r
      rw [hEq]
      exact getElem?_modify_eq _ _ _ _
    have hVotes : ∀ r, c'.getAuditorMajorityResult r env.params.nOPoIMinAuditors =
        c.getAuditorMajorityResult r env.params.nOPoIMinAuditors := by
      intro r
      rw [hEq]
      rfl
    have hKeyDue : due env c key = true := by
      simp [due, pendingFail, hCh, hPending, hFail]
    refine h.step hKeyed (fun r hr => ?_) (chargeOf_evolves hResponses hPaid hStakes)
      (fun r hr => slashable_of_slash hResponses hSlash hr) fun r g hr hg => ?_
    · by_cases hKey : key = r
      · rw [← hKey]
        exact hKeyDue
      · simpa only [due, isProven, pendingFail, hGet, hVotes, hKey, if_false] using hr
    · by_cases hKey : key = r
      · subst hKey
        exact responderSlashed_of_slash hResponses hSlash (h.fresh key g hKeyDue hg).2
      · refine responderSlashed_mono hResponses hStakes (h.done r g ?_ hg)
        simpa only [isProven, hGet, hKey, if_false] using hr

theorem Charging.falling (h : Charging height G c₀ c) (hOnce : resolvesOnce env c = true)
    (vtx : List CTransaction) : Falling env G (processChallengerRewardPayments env vtx c) := by
  obtain ⟨paid, hEq, hPaid⟩ := processChallengerRewardPayments_eq env c vtx
  have hMarked : ∀ r, isProven c r = true →
      chargeOf env (processChallengerRewardPayments env vtx c) r = none :=
    fun r hProven => chargeOf_marked h.keyed vtx hProven
  rw [hEq] at hMarked ⊢
  -- A due challenge that still charges a record is pending and not rewarded.
  have hPending : ∀ r g, due env { c with setPaidChallengerRewards := paid } r = true →
      chargeOf env { c with setPaidChallengerRewards := paid } r = some g →
      r ∈ c.mapChallenges.keys ∧ fallsDue env c r = true ∧
        ∃ s, rewardStake c r = some s ∧ s.identity = g := by
    intro r g hDue hCharge
    obtain ⟨hUnpaid, s, hStake, hId, _⟩ := chargeOf_eq_some.mp hCharge
    have hFail : pendingFail env c r = true := by
      rcases Bool.or_eq_true_iff.mp hDue with hProven | hFail
      · rw [hMarked r hProven] at hCharge
        cases hCharge
      · exact hFail
    have hNotPaid : c.isChallengerRewardPaid r = false := by
      rw [← Bool.not_eq_true]
      intro hBefore
      have hNow := (hPaid r).mpr (.inl hBefore)
      simp only [isChallengerRewardPaid] at hUnpaid
      rw [hNow] at hUnpaid
      cases hUnpaid
    refine ⟨?_, by simp [fallsDue, hFail, hNotPaid], s, hStake, hId⟩
    simp only [pendingFail, Bool.and_eq_true] at hFail
    obtain ⟨ch, hCh, _⟩ := (Option.any_eq_true _ _).mp hFail.1
    rw [Std.ExtTreeMap.mem_keys, ← Std.ExtTreeMap.isSome_getElem?_iff_mem, hCh]
    rfl
  have hOne : ∀ r ∈ c.mapChallenges.keys, fallsDue env c r = true →
      (rewardStake c r).any (·.isActive) = true ∧ ∀ r' ∈ c.mapChallenges.keys,
        fallsDue env c r' = true → responder c r' = responder c r → r' = r := by
    intro r hKey hDue
    have hBoth := List.all_eq_true.mp hOnce r hKey
    simp only [hDue, Bool.not_true, Bool.false_or, Bool.and_eq_true, List.all_eq_true] at hBoth
    refine ⟨hBoth.1, fun r' hKey' hDue' hSame => ?_⟩
    simpa [hDue', hSame] using hBoth.2 r' hKey'
  refine ⟨h.keyed, fun r g hDue hCharge => ?_, fun r r' g hDue hDue' hCharge hCharge' => ?_,
    fun r g hProven hCharge => ?_⟩
  · obtain ⟨hKey, hFalls, s, hStake, hId⟩ := hPending r g hDue hCharge
    have hActive := (hOne r hKey hFalls).1
    rw [hStake] at hActive
    simp only [Option.any_some, isActive, beq_iff_eq] at hActive
    refine ⟨fun hMem => ?_, ?_⟩
    · rw [← hId] at hMem
      rw [h.slashed _ s (h.responder_eq hStake).2 hMem] at hActive
      cases hActive
    · have hGet : rewardStake { c with setPaidChallengerRewards := paid } r = some s := hStake
      simp [slashable, hGet, hActive]
  · obtain ⟨hKey, hFalls, s, hStake, hId⟩ := hPending r g hDue hCharge
    obtain ⟨hKey', hFalls', s', hStake', hId'⟩ := hPending r' g hDue' hCharge'
    refine (hOne r' hKey' hFalls').2 r hKey hFalls ?_
    rw [(h.responder_eq hStake).1, (h.responder_eq hStake').1]
    rw [← hId', identity, identity, StakeIdentity.mk.injEq] at hId
    rw [hId.1]
  · rw [hMarked r hProven] at hCharge
    cases hCharge

/-! ## Blocks -/

/-- At a block boundary, with the charges so far. -/
structure Charged (env : Env) (G : List StakeIdentity) (node : NodeState) : Prop where
  nodup : G.Nodup
  slashed : ∀ (m : String) (s : OPoIStake), node.cache.mapStakes[m]? = some s → s.identity ∈ G →
    s.stakeStatus = .slashed
  old : ∀ g ∈ G, g.blockHeight < node.nextHeight
  dated : ∀ (m : String) (s : OPoIStake), node.cache.mapStakes[m]? = some s →
    s.minerAddress = m ∧ s.blockHeight < node.nextHeight
  keyed : ChallengesKeyed node.cache
  owing : ∀ r g, isProven node.cache r = true → chargeOf env node.cache r = some g →
    g ∉ G ∧ responderSlashed node.cache r = true
  distinct : ∀ r r' g, isProven node.cache r = true → isProven node.cache r' = true →
    chargeOf env node.cache r = some g → chargeOf env node.cache r' = some g → r = r'

/-- The charges of the challenges that are proven before the block. -/
theorem Charged.start (h : Charged env G node) :
    Charging node.nextHeight
      (G ++ (vals node.cache.mapChallenges).filterMap (provenCharge env node.cache))
      node.cache node.cache := by
  have hProven : ∀ (r : String) (ch : OPoIChallenge) (g : StakeIdentity),
      node.cache.mapChallenges[r]? = some ch → provenCharge env node.cache ch = some g →
      isProven node.cache r = true ∧ chargeOf env node.cache r = some g := by
    intro r ch g hCh hCharge
    unfold provenCharge at hCharge
    split at hCharge
    · rename_i hStatus
      rw [h.keyed r ch hCh] at hCharge
      exact ⟨by simp [isProven, hCh, hStatus], hCharge⟩
    · cases hCharge
  have hMem : ∀ g ∈ (vals node.cache.mapChallenges).filterMap (provenCharge env node.cache),
      ∃ r s, isProven node.cache r = true ∧ chargeOf env node.cache r = some g ∧
        rewardStake node.cache r = some s ∧ s.identity = g ∧ s.stakeStatus = .slashed := by
    intro g hg
    obtain ⟨ch, hVal, hCharge⟩ := List.mem_filterMap.mp hg
    obtain ⟨r, hCh⟩ := mem_vals.mp hVal
    obtain ⟨hr, hOf⟩ := hProven r ch g hCh hCharge
    obtain ⟨_, s, hStake, hId, _⟩ := chargeOf_eq_some.mp hOf
    obtain ⟨t, hStake', hStatus⟩ := (Option.any_eq_true _ _).mp (h.owing r g hr hOf).2
    rw [hStake] at hStake'
    cases hStake'
    exact ⟨r, s, hr, hOf, hStake, hId, beq_iff_eq.mp hStatus⟩
  have hGet : ∀ (r : String) (s : OPoIStake), rewardStake node.cache r = some s →
      node.cache.mapStakes[s.minerAddress]? = some s := by
    intro r s hStake
    obtain ⟨m, _, hStake⟩ := rewardStake_eq_some.mp hStake
    rwa [(h.dated m s hStake).1]
  -- Distinct proven challenges charge distinct stakes, none of them charged before.
  refine ⟨?_, fun m s hStake hIn => ?_, fun g hIn => ?_, fun m s hStake => ?_, fun _ hr => hr,
    h.keyed⟩
  · refine List.nodup_append.mpr ⟨h.nodup, ?_, ?_⟩
    · refine nodup_filterMap_vals fun r r' ch ch' g hCh hCh' hg hg' => ?_
      obtain ⟨hr, hOf⟩ := hProven r ch g hCh hg
      obtain ⟨hr', hOf'⟩ := hProven r' ch' g hCh' hg'
      exact h.distinct r r' g hr hr' hOf hOf'
    · rintro g hOld _ hNew rfl
      obtain ⟨r, _, hr, hOf, _⟩ := hMem g hNew
      exact (h.owing r g hr hOf).1 hOld
  · rcases List.mem_append.mp hIn with hOld | hNew
    · exact h.slashed m s hStake hOld
    · obtain ⟨r, t, _, _, hAnswer, hId, hStatus⟩ := hMem _ hNew
      have hHere := hGet r t hAnswer
      simp only [identity, StakeIdentity.mk.injEq] at hId
      rw [hId.1, (h.dated m s hStake).1, hStake] at hHere
      cases hHere
      exact hStatus
  · rcases List.mem_append.mp hIn with hOld | hNew
    · exact h.old g hOld
    · obtain ⟨r, t, _, _, hAnswer, rfl, _⟩ := hMem _ hNew
      exact (h.dated _ t (hGet r t hAnswer)).2
  · exact ⟨(h.dated m s hStake).1, Nat.le_of_lt (h.dated m s hStake).2⟩

def blockCharges (env : Env) (node : NodeState) (block : CBlock) : List StakeIdentity :=
  if env.params.opoiActive node.nextHeight then charges env node.cache block.vtx else []

/-- The passes after the transactions of a block. -/
theorem Charging.passes (h : Charging node.nextHeight G c₀ c)
    (hOnce : resolvesOnce env c = true) (block : CBlock) (view : CoinsView) :
    Charged env G (node.extend block (connectPasses env node.nextHeight block.vtx c) view) := by
  have hEvolve : StakesEvolve c (connectPasses env node.nextHeight block.vtx c) :=
    passPreserved_stakesEvolve.connectPasses (.refl c) block.vtx
  -- The pass over the challenges, then passes that leave them alone.
  have hFalling : Falling env G (expireChallenges env node.nextHeight
      (processChallengerRewardPayments env block.vtx c)) :=
    List.foldlRecOn _ _ (h.falling hOnce block.vtx) fun b hb key _ => hb.expireChallenge key
  unfold connectPasses at hEvolve ⊢
  rw [blockPasses_eq] at hEvolve ⊢
  generalize expireChallenges env node.nextHeight
    (processChallengerRewardPayments env block.vtx c) = resolved at hFalling hEvolve ⊢
  obtain ⟨hChallenges, hResponses, hPaid⟩ := 
    latePasses_frame env node.nextHeight resolved block.vtx
  have hLate : StakesEvolve resolved (latePasses env node.nextHeight resolved block.vtx) :=
    passPreserved_stakesEvolve.toLatePreserved.latePasses (.refl resolved) block.vtx
  generalize latePasses env node.nextHeight resolved block.vtx = c'
    at hEvolve hChallenges hResponses hPaid hLate ⊢
  have hCharge : ∀ r, chargeOf env c' r = chargeOf env resolved r :=
    chargeOf_evolves hResponses hPaid hLate
  have hProven : ∀ r, isProven c' r = isProven resolved r := by
    intro r
    rw [isProven, isProven, hChallenges]
  refine ⟨h.nodup, ?_, ?_, ?_, ?_, ?_, ?_⟩
  all_goals simp only [NodeState.extend_cache, NodeState.nextHeight_extend]
  · intro m s' hStake hMem
    obtain ⟨s, hOld, hEvolves⟩ := hEvolve.get_before hStake
    rw [hEvolves.identity] at hMem
    have hLater := hEvolves.status
    rw [h.slashed m s hOld hMem] at hLater
    exact hLater.of_slashed
  · exact fun g hMem => Nat.lt_succ_of_lt (h.old g hMem)
  · intro m s' hStake
    obtain ⟨s, hOld, hEvolves⟩ := hEvolve.get_before hStake
    have hId := hEvolves.identity
    simp only [identity, StakeIdentity.mk.injEq] at hId
    rw [hId.1, hId.2.2.2.1]
    exact ⟨(h.dated m s hOld).1, Nat.lt_succ_of_le (h.dated m s hOld).2⟩
  · exact hFalling.keyed.of_eq hChallenges
  · intro r g hr hg
    rw [hProven] at hr
    rw [hCharge] at hg
    exact ⟨(hFalling.fresh r g (by simp [due, hr]) hg).1,
      responderSlashed_mono hResponses hLate (hFalling.done r g hr hg)⟩
  · intro r r' g hr hr' hg hg'
    rw [hProven] at hr hr'
    rw [hCharge] at hg hg'
    exact hFalling.distinct r r' g (by simp [due, hr]) (by simp [due, hr']) hg hg'

theorem Charged.connectTip {node' : NodeState} (h : Charged env G node)
    (hSafe : ChargesOnce env node block) (hTip : connectTip env node block = .ok node') :
    Charged env (G ++ blockCharges env node block) node' := by
  obtain ⟨st, _, hPre, hLoop, _, hNode⟩ := connectTip_eq_ok hTip
  unfold blockCharges
  by_cases hActive : env.params.opoiActive node.nextHeight = true
  · rw [if_pos hActive, charges_eq, ← List.append_assoc, hNode,
      connectTransitions_of_active hActive]
    have hLoopEnd := h.start.loop (fun m s hStake => (h.dated m s hStake).2)
      (.of_preChecks hPre) hSafe hLoop
    exact hLoopEnd.passes (hSafe.passes st hLoop) block _
  · rw [Bool.not_eq_true] at hActive
    have hCache := cache_of_inactive hTip hActive
    have hHeight : node'.nextHeight = node.nextHeight + 1 := by
      rw [hNode, NodeState.nextHeight_extend]
    rw [hActive, if_neg (by decide), List.append_nil]
    obtain ⟨hNodup, hSlashed, hOld, hDated, hKeyed, hOwing, hDistinct⟩ := h
    rw [← hCache] at hSlashed hDated hKeyed hOwing hDistinct
    refine ⟨hNodup, hSlashed, fun g hMem => ?_, fun m s hStake => ?_, hKeyed, hOwing, hDistinct⟩
    · rw [hHeight]
      exact Nat.lt_succ_of_lt (hOld g hMem)
    · rw [hHeight]
      exact ⟨(hDated m s hStake).1, Nat.lt_succ_of_lt (hDated m s hStake).2⟩

theorem charged_init : Charged env [] (.init env) where
  nodup := .nil
  slashed _ _ h := by cases h
  old _ h := by cases h
  dated _ _ h := by cases h
  keyed _ _ h := by cases h
  owing _ _ h := by cases h
  distinct _ _ _ h := by cases h

theorem chargedTo_eq (node : NodeState) (block : CBlock) :
    chargedTo env node block g =
      ((blockCharges env node block).count g : Int) * payout env.params g := by
  unfold chargedTo blockCharges
  split
  · exact sum_rewards_eq _ fun w hMem => tryReward_of_mem hMem
  · simp

theorem sum_chargedTo_eq (past : List (NodeState × CBlock)) :
    (past.map fun e => chargedTo env e.1 e.2 g).sum =
      ((past.flatMap fun e => blockCharges env e.1 e.2).count g : Int) * payout env.params g := by
  induction past with
  | nil => simp
  | cons e past ih =>
    rw [List.map_cons, List.sum_cons, ih, chargedTo_eq, List.flatMap_cons, List.count_append,
      Int.natCast_add, Int.add_mul]

/-- Over a forward run whose blocks meet the condition, the rewards take no more from a record
    than the amount of its STAKE. -/
theorem totalCharged_le_of_run {blocks : List CBlock} {node : NodeState}
    (hPct : env.params.nOPoIChallengerRewardPct + env.params.nOPoITreasuryRewardPct ≤ 100)
    (hRun : ForwardRun env (ChargesOnce env) blocks node) (stakeHeight : Nat)
    (hAmount : 0 < tx.opoiPayment) :
    totalCharged env blocks (newStake env stakeHeight tx).identity ≤ tx.opoiPayment := by
  have hCharged := hRun.invariant_trace
    (fun past node => Charged env (past.flatMap fun e => blockCharges env e.1 e.2) node)
    (fun past node block node' hPast hSafe hTip => by
      simpa using hPast.connectTip hSafe hTip) [] charged_init
  have hOnce := List.nodup_iff_count_le_one.mp hCharged.nodup (newStake env stakeHeight tx).identity
  have hPayout : payout env.params (newStake env stakeHeight tx).identity ≤ tx.opoiPayment :=
    payout_le hPct (Int.le_of_lt hAmount)
  unfold totalCharged
  rw [sum_chargedTo_eq]
  rw [List.nil_append] at hOnce
  rcases Nat.le_one_iff_eq_zero_or_eq_one.mp hOnce with hNone | hOne
  · rw [hNone, Int.natCast_zero, Int.zero_mul]
    exact Int.le_of_lt hAmount
  · rw [hOne, Int.natCast_one, Int.one_mul]
    exact hPayout

end Payouts

/-- Rewards that take a whole record: 60 percent to the challenger, 40 to the treasury. -/
def rewardParams : Params :=
  { sampleParams with nOPoIChallengerRewardPct := 60, nOPoITreasuryRewardPct := 40 }

def sampleRecord : StakeIdentity :=
  (newStake (sampleEnv rewardParams) 2 (sampleStake sampleMiner ⟨4002, 0⟩ 1)).identity

def singleRewardBlocks : List CBlock :=
  sampleChallengedBlocks ++ [⟨8, [sampleCoinbase [("bob", 30), ("treasury", 20)] 8,
    sampleChallengeReveal "r" "bob" ⟨4002, 2⟩ 7]⟩]

/-- One challenge against one stake: its REVEAL charges the record of 50 once. -/
theorem totalCharged_le_of_one_challenge :
    rewardParams.nOPoIChallengerRewardPct + rewardParams.nOPoITreasuryRewardPct ≤ 100 ∧
    (∃ node, ForwardRun (sampleEnv rewardParams) (ChargesOnce (sampleEnv rewardParams))
      singleRewardBlocks node) ∧
    totalCharged (sampleEnv rewardParams) singleRewardBlocks sampleRecord = 50 ∧
    totalCharged (sampleEnv rewardParams) singleRewardBlocks sampleRecord ≤
      (sampleStake sampleMiner ⟨4002, 0⟩ 1).opoiPayment := by
  exact ⟨by decide, ⟨_, Run.steps_value .other (by decide +kernel)⟩, by decide +kernel,
    totalCharged_le_of_run (by decide) (Run.steps_value .other (by decide +kernel)) 2 (by decide)⟩

/-- The blocks of two challenges of two answers of one staker. Both are decided before the
    last block, which has both REVEALs and pays for them. -/
def doubleRewardBlocks : List CBlock := sampleStaked <| sampleTwoAnswers ++
  [sampleBlock 7 [sampleChallengeCommit "r" "bob" ⟨4002, 2⟩ 8,
     sampleChallengeCommit "q" "alice" ⟨4002, 1⟩ 9,
     sampleVote "r" "carol" ⟨4002, 3⟩ 10 AUDITOR_VERIFY_FAIL,
     sampleVote "q" "miner" ⟨1032, 0⟩ 11 AUDITOR_VERIFY_FAIL],
   ⟨8, [sampleCoinbase [("bob", 30), ("alice", 30), ("treasury", 40)] 8,
     sampleChallengeReveal "r" "bob" ⟨4002, 2⟩ 12, sampleChallengeReveal "q" "alice" ⟨4002, 1⟩ 13]⟩]

/-- The coinbase pays two rewards of 30 and twice 20 to the treasury out of a record of 50. -/
theorem lt_totalCharged_of_two_challenges :
    rewardParams.nOPoIChallengerRewardPct + rewardParams.nOPoITreasuryRewardPct ≤ 100 ∧
    (∃ node, PlainRun (sampleEnv rewardParams) doubleRewardBlocks node) ∧
    (sampleStake sampleMiner ⟨4002, 0⟩ 1).opoiPayment <
      totalCharged (sampleEnv rewardParams) doubleRewardBlocks sampleRecord := by
  exact ⟨by decide, Run.exists_run .other (by decide +kernel), by decide +kernel⟩

end CloudService
