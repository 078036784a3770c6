/-
  The life of a model: registered, voted on, decided in the block that closes its voting
  window, and active after the activation delay.
-/

import CloudService.Governance.Windows
import Mathlib.Data.List.Dedup

namespace CloudService

open TreeMap List

inductive ModelStatus.Step : Option ModelStatus → Option ModelStatus → Prop where
  | register : Step none (some .voting)
  | reject : Step (some .voting) (some .rejected)
  | approve : Step (some .voting) (some .approved)
  | activate : Step (some .approved) (some .active)

def statusOf (c : OPoICache) (id : String) : Option ModelStatus :=
  (c.mapModelManifests[id]?).map (·.status)

def tallies (env : Env) (id : String) (e : NodeState × CBlock) : Bool :=
  env.params.opoiActive e.1.nextHeight &&
    ((atTally env e).listManifestsDueForTally e.1.nextHeight).any (·.modelId == id)

def castVote (env : Env) (height : Nat) (id : String) (t : OPoICache × CTransaction) :
    Option ModelVoteRecord :=
  if t.2.opoiType = .modelVote ∧ t.2.opoiModelId = id then
    some
      { voterAddress := t.2.opoiRequester
        approve := t.2.opoiModelVoteApprove != 0
        weight := match t.1.mapStakes[t.2.opoiRequester]? with
          | some s => if s.isActive then s.amount else 0
          | none => 0
        blockHeight := height
        txHash := env.getHash t.2 }
  else none

def votesCast (env : Env) (id : String) (e : NodeState × CBlock) : List ModelVoteRecord :=
  (turns env e.1 e.2).filterMap (castVote env e.1.nextHeight id)

def lastVote (votes : List ModelVoteRecord) (voter : String) : Option ModelVoteRecord :=
  votes.reverse.find? (·.voterAddress == voter)

/-- The last vote of each voter. -/
def lastVotes (votes : List ModelVoteRecord) : List ModelVoteRecord :=
  (votes.map (·.voterAddress)).dedup.filterMap (lastVote votes)

/-- The votes of a run that count for a model proposed at a height and decided in a block. -/
def windowVotes (env : Env) (blocks : List CBlock) (id : String) (proposed : Nat)
    (e : NodeState × CBlock) : List ModelVoteRecord :=
  ((blockTrace env blocks).filter fun b =>
    proposed < b.1.nextHeight ∧ b.1.nextHeight ≤ e.1.nextHeight).flatMap (votesCast env id)

/-- The parameters are in range, and the voting window is not negative. -/
structure GovernanceParams (params : Params) : Prop where
  window : 0 ≤ params.nOPoIModelVoteWindowBlocks
  windowInt : params.nOPoIModelVoteWindowBlocks < 2147483648
  delayMin : -2147483648 ≤ params.nOPoIModelActivationDelayBlocks
  delayMax : params.nOPoIModelActivationDelayBlocks < 2147483648

structure ModelTimes (env : Env) (height : Nat) (m : ModelManifest) : Prop where
  active : env.params.opoiActive m.proposedHeight = true
  proposed : m.proposedHeight ≤ height
  ends : (m.voteWindowEndHeight : Int) =
    m.proposedHeight + env.params.nOPoIModelVoteWindowBlocks
  voting : m.status = .voting → height ≤ m.voteWindowEndHeight ∧ m.activationHeight = 0
  decided : m.status ≠ .voting → m.voteWindowEndHeight < height
  approved : m.status = .approved → m.activationHeight =
    u32 (m.voteWindowEndHeight + u32OfInt env.params.nOPoIModelActivationDelayBlocks)
  activated : m.status = .active →
    m.voteWindowEndHeight + env.params.nOPoIModelActivationDelayBlocks < (height : Int)

structure ManifestsTimed (env : Env) (node : NodeState) : Prop where
  keyed : ManifestsKeyed node.cache
  times : ∀ (id : String) (m : ModelManifest), node.cache.mapModelManifests[id]? = some m →
    ModelTimes env node.nextHeight m ∧ m.proposedHeight < node.nextHeight

/-- A manifest as its MODEL_REGISTER puts it on record. -/
structure RegisteredBy (env : Env) (height : Nat) (tx : CTransaction) (id : String)
    (m : ModelManifest) : Prop where
  type : tx.opoiType = .modelRegister
  model : tx.opoiModelId = id
  modelId : m.modelId = id
  proposed : m.proposedHeight = height
  ends : m.voteWindowEndHeight = u32 (height + u32OfInt env.params.nOPoIModelVoteWindowBlocks)
  activation : m.activationHeight = 0
  status : m.status = .voting

section Lifecycle

variable {env : Env} {node node' : NodeState} {block : CBlock} {c : OPoICache} {height : Nat}
  {id : String} {m : ModelManifest} {tx : CTransaction} {chainActive : List Uint256}

/-! ## The pass -/

theorem ModelTimes.isDue_iff (h : ModelTimes env height m) :
    m.isDue height = true ↔ m.status = .voting ∧ m.voteWindowEndHeight = height := by
  simp only [ModelManifest.isDue, ModelManifest.isVoting, Bool.and_eq_true, beq_iff_eq,
    decide_eq_true_eq]
  refine and_congr_right fun hVoting => ⟨fun hLe => ?_, fun hEq => by omega⟩
  have hGe := (h.voting hVoting).1
  omega

theorem advanced_status (env : Env) (height : Nat) (c : OPoICache) (m : ModelManifest) :
    Relation.ReflTransGen ModelStatus.Step (some m.status)
      (some (m.advanced env height c).status) := by
  have hTallied : Relation.ReflTransGen ModelStatus.Step (some m.status)
      (some (m.tallied env height c).status) := by
    unfold ModelManifest.tallied verdictOn
    split
    · rename_i hDue
      have hVoting : m.status = .voting := by
        simp only [ModelManifest.isDue, ModelManifest.isVoting, Bool.and_eq_true,
          beq_iff_eq] at hDue
        exact hDue.1
      rw [hVoting]
      split
      · exact .single .approve
      · exact .single .reject
    · exact .refl
  unfold ModelManifest.advanced
  split
  · rename_i hReady
    simp only [ModelManifest.isReady, Bool.and_eq_true, beq_iff_eq] at hReady
    rw [hReady.1] at hTallied
    exact hTallied.tail .activate
  · exact hTallied

theorem advanced_heights (env : Env) (height : Nat) (c : OPoICache) (m : ModelManifest) :
    (m.advanced env height c).proposedHeight = m.proposedHeight ∧
      (m.advanced env height c).voteWindowEndHeight = m.voteWindowEndHeight ∧
      (m.advanced env height c).modelId = m.modelId := by
  unfold ModelManifest.advanced ModelManifest.tallied
  split
  · split
    · exact ⟨rfl, rfl, rfl⟩
    · exact ⟨rfl, rfl, rfl⟩
  · split
    · exact ⟨rfl, rfl, rfl⟩
    · exact ⟨rfl, rfl, rfl⟩

theorem ModelTimes.tallied (h : ModelTimes env height m) (c : OPoICache) :
    ModelTimes env (height + 1) (m.tallied env height c) := by
  unfold ModelManifest.tallied
  split
  · rename_i hDue
    obtain ⟨hVoting, hEnd⟩ := h.isDue_iff.mp hDue
    have hActivation := (h.voting hVoting).2
    refine ⟨h.active, Nat.le_succ_of_le h.proposed, h.ends, ?_, ?_, ?_, ?_⟩
    · unfold verdictOn
      split
      · rintro ⟨⟩
      · rintro ⟨⟩
    · intro _
      exact hEnd ▸ Nat.lt_succ_self height
    · unfold verdictOn
      split
      · intro _
        simp only [ModelManifest.withStatus]
        rw [hActivation, hEnd]
        split
        · rfl
        · omega
      · rintro ⟨⟩
    · unfold verdictOn
      split
      · rintro ⟨⟩
      · rintro ⟨⟩
  · rename_i hOpen
    rw [h.isDue_iff] at hOpen
    refine ⟨h.active, Nat.le_succ_of_le h.proposed, h.ends, fun hVoting => ?_, fun hOther => ?_,
      h.approved, fun hActive => ?_⟩
    · obtain ⟨hLe, hZero⟩ := h.voting hVoting
      exact ⟨Nat.lt_of_le_of_ne hLe fun hEq => hOpen ⟨hVoting, hEq.symm⟩, hZero⟩
    · exact Nat.lt_succ_of_lt (h.decided hOther)
    · have hLt := h.activated hActive
      omega

theorem ModelTimes.advanced (hParams : GovernanceParams env.params) (hHeight : height < 2147483648)
    (h : ModelTimes env height m) (c : OPoICache) :
    ModelTimes env (height + 1) (m.advanced env height c) := by
  have hTallied := h.tallied c
  unfold ModelManifest.advanced
  split
  · rename_i hReady
    simp only [ModelManifest.isReady, Bool.and_eq_true, beq_iff_eq, decide_eq_true_eq] at hReady
    obtain ⟨hApproved, hPos, hLe⟩ := hReady
    have hEnd := hTallied.decided (by rw [hApproved]; decide)
    have hActivation := hTallied.approved hApproved
    refine ⟨hTallied.active, hTallied.proposed, hTallied.ends, by rintro ⟨⟩, fun _ => hEnd,
      by rintro ⟨⟩, fun _ => ?_⟩
    simp only [ModelManifest.withStatus]
    have hMax := hParams.delayMax
    simp only [u32, u32OfInt] at hActivation
    omega
  · exact hTallied

/-! ## A block -/

theorem models_afterTxs (hBlock : AcceptedBlock env node block) :
    ∀ (id : String) (m : ModelManifest),
      (afterTxs env node block.vtx).mapModelManifests[id]? = some m →
      node.cache.mapModelManifests[id]? = some m ∨
        (node.cache.mapModelManifests[id]? = none ∧
          ∃ tx ∈ opoiTxs block.vtx, RegisteredBy env node.nextHeight tx id m) := by
  refine hBlock.induction (P := fun c => ∀ (id : String) (m : ModelManifest),
    c.mapModelManifests[id]? = some m → node.cache.mapModelManifests[id]? = some m ∨
      (node.cache.mapModelManifests[id]? = none ∧
        ∃ tx ∈ opoiTxs block.vtx, RegisteredBy env node.nextHeight tx id m))
    (fun _ _ hm => .inl hm) fun c tx hMem hTx hc id m hm => ?_
  by_cases hType : tx.opoiType = .modelRegister
  · simp only [applyOPoITransaction, hType, applyModelRegister, OPoICache.addModelManifest,
      getElem?_insert_eq] at hm
    split at hm
    · rename_i hKey
      cases hKey
      cases hm
      have hBranch := checkOPoITransaction_branch hTx.checked (mem_opoiTxs.mp hMem).2
      simp only [hType] at hBranch
      exact .inr ⟨Persists.checkModelRegister_new hBranch, tx, hMem, hType, rfl, rfl, rfl, rfl,
        rfl, rfl⟩
    · exact hc id m hm
  · rw [(applyOPoITransaction_txFrame env node.nextHeight c tx node.chainActive).models hType] at hm
    exact hc id m hm

section

variable (hParams : GovernanceParams env.params) (h : ManifestsTimed env node)
  (hTip : connectTip env node block = .ok node')

include hParams h hTip

theorem ManifestsTimed.afterTxs
    (hm : (afterTxs env node block.vtx).mapModelManifests[id]? = some m) :
    m.modelId = id ∧ ModelTimes env node.nextHeight m ∧
      (m.proposedHeight < node.nextHeight ∨ node.cache.mapModelManifests[id]? = none) := by
  obtain ⟨hBlock, _, _⟩ := connectTip_cache hTip
  obtain ⟨hHeight, _⟩ := connectTip_height hTip
  rcases models_afterTxs hBlock id m hm with hOld | ⟨hNew, tx, hMem, hReg⟩
  · obtain ⟨hTimes, hBefore⟩ := h.times id m hOld
    exact ⟨h.keyed id m hOld, hTimes, .inl hBefore⟩
  · have hActive := (hBlock.txs tx (mem_opoiTxs.mp hMem).1).active (mem_opoiTxs.mp hMem).2
    have hEnds : (m.voteWindowEndHeight : Int) =
        m.proposedHeight + env.params.nOPoIModelVoteWindowBlocks := by
      have hMin := hParams.window
      have hMax := hParams.windowInt
      rw [hReg.ends, hReg.proposed]
      simp only [u32, u32OfInt]
      omega
    refine ⟨hReg.modelId, ⟨?_, ?_, hEnds, fun _ => ⟨?_, hReg.activation⟩, fun h => ?_, fun h => ?_,
      fun h => ?_⟩, .inr hNew⟩
    · rw [hReg.proposed]
      exact hActive
    · exact hReg.proposed.le
    · have hMin := hParams.window
      have hAt := hReg.proposed
      omega
    · exact absurd hReg.status h
    · rw [hReg.status] at h
      cases h
    · rw [hReg.status] at h
      cases h

theorem models_of_connectTip (id : String) :
    node'.cache.mapModelManifests[id]? = ((afterTxs env node block.vtx).mapModelManifests[id]?).map
        (·.advanced env node.nextHeight (atTally env (node, block))) := by
  obtain ⟨hBlock, _, hCache⟩ := connectTip_cache hTip
  rw [hCache]
  split
  · exact connectPasses_models (fun key m hm => (h.afterTxs hParams hTip hm).1) id
  · rename_i hInactive
    -- Before activation there is no manifest, as there was no transaction.
    have hTxs : CloudService.afterTxs env node block.vtx = node.cache := by
      rw [CloudService.afterTxs, opoiTxs_of_inactive hBlock (Bool.not_eq_true _ ▸ hInactive)]
      rfl
    have hNone : node.cache.mapModelManifests[id]? = none := by
      cases hm : node.cache.mapModelManifests[id]? with
      | none => rfl
      | some m =>
        obtain ⟨hTimes, hBefore⟩ := h.times id m hm
        exact absurd (Params.opoiActive_mono hBefore.le hTimes.active) hInactive
    rw [hTxs, hNone]
    rfl

end

theorem modelVotes_of_connectTip (hTip : connectTip env node block = .ok node') :
    node'.cache.mapModelVotes = (afterTxs env node block.vtx).mapModelVotes := by
  obtain ⟨hBlock, _, hCache⟩ := connectTip_cache hTip
  rw [hCache]
  split
  · exact connectPasses_modelVotes
  · rename_i hInactive
    rw [afterTxs, opoiTxs_of_inactive hBlock (Bool.not_eq_true _ ▸ hInactive)]
    rfl

section

variable (hParams : GovernanceParams env.params) (h : ManifestsTimed env node)
  (hTip : connectTip env node block = .ok node')

include hParams h hTip

theorem ManifestsTimed.connectTip : ManifestsTimed env node' := by
  obtain ⟨hHeight, hNext⟩ := connectTip_height hTip
  constructor
  · intro id m hm
    rw [models_of_connectTip hParams h hTip] at hm
    obtain ⟨old, hOld, rfl⟩ := Option.map_eq_some_iff.mp hm
    exact (advanced_heights _ _ _ old).2.2.trans (h.afterTxs hParams hTip hOld).1
  · intro id m hm
    rw [models_of_connectTip hParams h hTip] at hm
    obtain ⟨old, hOld, rfl⟩ := Option.map_eq_some_iff.mp hm
    obtain ⟨_, hTimes, _⟩ := h.afterTxs hParams hTip hOld
    rw [hNext, (advanced_heights _ _ _ old).1]
    exact ⟨hTimes.advanced hParams hHeight _, Nat.lt_succ_of_le hTimes.proposed⟩

theorem tallies_iff :
    tallies env id (node, block) = true ↔
      ∃ m, (afterTxs env node block.vtx).mapModelManifests[id]? = some m ∧ m.status = .voting ∧
        m.voteWindowEndHeight = node.nextHeight := by
  obtain ⟨hModels, _⟩ := @beforeTally_models env node.nextHeight block.vtx
    (afterTxs env node block.vtx)
  have hDue : ∀ m, m ∈ (atTally env (node, block)).listManifestsDueForTally node.nextHeight ↔
      (afterTxs env node block.vtx).mapModelManifests[m.modelId]? = some m ∧
        m.isDue node.nextHeight = true := by
    intro m
    rw [OPoICache.listManifestsDueForTally, mem_filter, atTally, hModels, mem_vals]
    refine and_congr_left fun _ => ⟨?_, fun hm => ⟨_, hm⟩⟩
    rintro ⟨key, hm⟩
    rw [(h.afterTxs hParams hTip hm).1]
    exact hm
  simp only [tallies, Bool.and_eq_true, any_eq_true, beq_iff_eq]
  constructor
  · rintro ⟨_, m, hMem, rfl⟩
    obtain ⟨hm, hIsDue⟩ := (hDue m).mp hMem
    exact ⟨m, hm, (h.afterTxs hParams hTip hm).2.1.isDue_iff.mp hIsDue⟩
  · rintro ⟨m, hm, hVoting⟩
    obtain ⟨hKey, hTimes, _⟩ := h.afterTxs hParams hTip hm
    refine ⟨Params.opoiActive_mono hTimes.proposed hTimes.active, m, (hDue m).mpr ⟨?_, ?_⟩, hKey⟩
    · rw [hKey]
      exact hm
    · exact hTimes.isDue_iff.mpr hVoting

end

/-! ## The votes -/

theorem flatMap_filter_of_nil {α β : Type} {f : α → List β} {p : α → Bool} {l : List α}
    (h : ∀ a ∈ l, p a = false → f a = []) : (l.filter p).flatMap f = l.flatMap f := by
  induction l with
  | nil => rfl
  | cons a l ih =>
    have hRest := ih fun b hb => h b (mem_cons_of_mem _ hb)
    cases hp : p a with
    | false =>
      rw [filter_cons_of_neg (by simp [hp]), hRest, flatMap_cons, h a mem_cons_self hp, nil_append]
    | true => rw [filter_cons_of_pos hp, flatMap_cons, flatMap_cons, hRest]

theorem lastVote_append (l l' : List ModelVoteRecord) (voter : String) :
    lastVote (l ++ l') voter = (lastVote l' voter).or (lastVote l voter) := by
  rw [lastVote, reverse_append, find?_append]
  rfl

/-- A tally reads the last vote of each voter. -/
theorem tally_of_lastVote {c : OPoICache} {votes : List ModelVoteRecord}
    (h : ∀ voter, (c.mapModelVotes.getD id ∅)[voter]? = lastVote votes voter) :
    c.tallyModelVotes id = (sumInt64 (((lastVotes votes).filter (·.approve)).map (·.weight)),
      sumInt64 (((lastVotes votes).filter (!·.approve)).map (·.weight))) := by
  have hPerm : (vals (c.mapModelVotes.getD id ∅)).Perm (lastVotes votes) := by
    refine (vals_perm (nodup_dedup _) fun voter v hv => ?_).trans
      (List.Perm.of_eq (filterMap_congr fun voter _ => h voter))
    rw [h, lastVote] at hv
    have hVoter := find?_some hv
    exact mem_dedup.mpr (mem_map.mpr ⟨v,
      mem_reverse.mp (mem_of_find?_eq_some hv), beq_iff_eq.mp hVoter⟩)
  have hSum : ∀ p : ModelVoteRecord → Bool,
      sumInt64 (((vals (c.mapModelVotes.getD id ∅)).filter p).map (·.weight)) =
        sumInt64 (((lastVotes votes).filter p).map (·.weight)) := fun p => by
    rw [sumInt64_eq, sumInt64_eq, ((hPerm.filter p).map _).sum_eq]
  exact Prod.ext (hSum _) (hSum _)

theorem lastVote_singleton (v : ModelVoteRecord) {voter : String} (h : v.voterAddress = voter) :
    lastVote [v] voter = some v := by
  rw [lastVote, reverse_singleton, find?_singleton, if_pos (beq_iff_eq.mpr h)]

theorem modelVotes_apply (hKnown : tx.opoiType = .modelVote →
    c.mapModelManifests.contains tx.opoiModelId = true) (voter : String) :
    (((applyOPoITransaction env chainActive height c tx).mapModelVotes.getD id ∅)[voter]?) =
      (lastVote (castVote env height id (c, tx)).toList voter).or
        ((c.mapModelVotes.getD id ∅)[voter]?) := by
  by_cases hType : tx.opoiType = .modelVote
  · simp only [applyOPoITransaction, hType, applyModelVote, OPoICache.addModelVote, hKnown hType,
      if_true, castVote, true_and]
    rw [getD_insert_eq]
    by_cases hId : tx.opoiModelId = id
    · cases hId
      rw [if_pos rfl, if_pos rfl, getElem?_insert_eq, Option.toList_some]
      by_cases hVoter : tx.opoiRequester = voter
      · cases hVoter
        exact (if_pos rfl).trans (congrArg (Option.or · _) (lastVote_singleton _ rfl).symm)
      · simp [lastVote, hVoter]
    · rw [if_neg hId, if_neg hId]
      rfl
  · rw [(applyOPoITransaction_txFrame env height c tx chainActive).modelVotes hType, castVote,
      if_neg fun h => hType h.1]
    rfl

theorem votable_of_accepted (hTx : AcceptedTx env node tx) (hOPoI : tx.isOPoITx = true)
    (hType : tx.opoiType = .modelVote) :
    ∃ m, node.cache.mapModelManifests[tx.opoiModelId]? = some m ∧ m.status = .voting := by
  have hBranch := checkOPoITransaction_branch hTx.checked hOPoI
  simp only [hType] at hBranch
  have hVotable := (checkModelVote_iff.mp hBranch).2.1
  cases hm : node.cache.mapModelManifests[tx.opoiModelId]? with
  | none =>
    rw [hm] at hVotable
    cases hVotable
  | some m =>
    rw [hm, Option.any_some, ModelManifest.isVoting, beq_iff_eq] at hVotable
    exact ⟨m, rfl, hVotable⟩

theorem votable_of_votesCast (hBlock : AcceptedBlock env node block)
    (hVotes : votesCast env id (node, block) ≠ []) :
    ∃ m, node.cache.mapModelManifests[id]? = some m ∧ m.status = .voting := by
  obtain ⟨v, hv⟩ := exists_mem_of_ne_nil _ hVotes
  obtain ⟨t, ht, hCast⟩ := mem_filterMap.mp hv
  obtain ⟨_, hMem⟩ := inBlock_of_turn hBlock t ht
  obtain ⟨hIn, hOPoI⟩ := mem_opoiTxs.mp hMem
  rw [castVote] at hCast
  split at hCast
  · rename_i hVote
    exact hVote.2 ▸ votable_of_accepted (hBlock.txs t.2 hIn) hOPoI hVote.1
  · cases hCast

theorem modelVotes_afterTxs (hBlock : AcceptedBlock env node block) (voter : String) :
    ((afterTxs env node block.vtx).mapModelVotes.getD id ∅)[voter]? =
      (lastVote (votesCast env id (node, block)) voter).or
        ((node.cache.mapModelVotes.getD id ∅)[voter]?) := by
  have hLoop : ∀ (txs : List CTransaction) (c : OPoICache),
      (∀ t ∈ Run.withStates (applyOPoITransaction env node.chainActive node.nextHeight) c txs,
        t.2.opoiType = .modelVote → t.1.mapModelManifests.contains t.2.opoiModelId = true) →
      ((txs.foldl (applyOPoITransaction env node.chainActive node.nextHeight) c).mapModelVotes.getD
          id ∅)[voter]? =
        (lastVote ((Run.withStates (applyOPoITransaction env node.chainActive node.nextHeight) c
          txs).filterMap (castVote env node.nextHeight id)) voter).or
          ((c.mapModelVotes.getD id ∅)[voter]?) := by
    intro txs
    induction txs with
    | nil => exact fun _ _ => rfl
    | cons tx txs ih =>
      intro c hKnown
      have hFirst := hKnown (c, tx) mem_cons_self
      rw [foldl_cons, ih _ fun t ht => hKnown t (mem_cons_of_mem _ ht),
        modelVotes_apply hFirst, Run.withStates, ← Option.or_assoc, ← lastVote_append]
      congr 2
      cases hCast : castVote env node.nextHeight id (c, tx) with
      | none => rw [filterMap_cons_none hCast, Option.toList_none, nil_append]
      | some v => rw [filterMap_cons_some hCast, Option.toList_some, singleton_append]
  refine hLoop _ _ fun t ht hType => ?_
  obtain ⟨hIn, hMem⟩ := inBlock_of_turn hBlock t ht
  obtain ⟨m, hm, _⟩ := votable_of_accepted (hBlock.txs t.2 (mem_opoiTxs.mp hMem).1)
    (mem_opoiTxs.mp hMem).2 hType
  rw [Std.ExtTreeMap.contains_eq_isSome_getElem?, hIn.models _ m hm]
  rfl

theorem modelVotes_of_forwardRun {ok : NodeState → CBlock → Prop} {blocks : List CBlock}
    (hRun : ForwardRun env ok blocks node) (id voter : String) :
    (node.cache.mapModelVotes.getD id ∅)[voter]? =
      lastVote ((blockTrace env blocks).flatMap (votesCast env id))
        voter := by
  refine hRun.invariant_trace (fun past node => (node.cache.mapModelVotes.getD id ∅)[voter]? =
    lastVote (past.flatMap (votesCast env id)) voter) (fun past node block node' h _ hTip => ?_)
      [] rfl
  rw [modelVotes_of_connectTip hTip, modelVotes_afterTxs (connectTip_cache hTip).1, h,
    flatMap_append, flatMap_singleton, lastVote_append]

/-! ## The run -/

structure ModelHistory (env : Env) (id : String) (past : List (NodeState × CBlock))
    (node : NodeState) : Prop where
  timed : ManifestsTimed env node
  registered : ∀ m, node.cache.mapModelManifests[id]? = some m →
    ∃ e ∈ past, e.1.nextHeight = m.proposedHeight ∧
      ∃ tx ∈ opoiTxs e.2.vtx, tx.opoiType = .modelRegister ∧ tx.opoiModelId = id
  count : past.countP (tallies env id) =
    if (node.cache.mapModelManifests[id]?).any (decide <| ·.voteWindowEndHeight < node.nextHeight)
    then 1 else 0
  heights : ∀ e ∈ past, tallies env id e = true → ∀ m, node.cache.mapModelManifests[id]? = some m →
    e.1.nextHeight = m.voteWindowEndHeight
  voteTimes : ∀ e ∈ past, votesCast env id e ≠ [] → ∃ m,
    node.cache.mapModelManifests[id]? = some m ∧
    m.proposedHeight < e.1.nextHeight ∧ e.1.nextHeight ≤ m.voteWindowEndHeight
  settled : ∀ e ∈ past, tallies env id e = true →
    (atTally env e).mapModelVotes.getD id ∅ = node.cache.mapModelVotes.getD id ∅

theorem model_kept (hBlock : AcceptedBlock env node block)
    (hm : node.cache.mapModelManifests[id]? = some m) :
    (afterTxs env node block.vtx).mapModelManifests[id]? = some m := by
  have hIn : InBlock node.cache (afterTxs env node block.vtx) :=
    hBlock.induction (.refl _) fun _ _ hMem hTx hc => hc.apply hTx.checked (mem_opoiTxs.mp hMem).2
  exact hIn.models id m hm

theorem not_tallies_of_none (hParams : GovernanceParams env.params) (h : ManifestsTimed env node)
    (hTip : connectTip env node block = .ok node')
    (hNone : (afterTxs env node block.vtx).mapModelManifests[id]? = none) :
    tallies env id (node, block) = false := by
  rw [Bool.eq_false_iff, Ne, tallies_iff hParams h hTip]
  rintro ⟨m, hm, _⟩
  rw [hNone] at hm
  cases hm

namespace ModelHistory

variable {past : List (NodeState × CBlock)}

theorem not_tallies (h : ModelHistory env id past node)
    (hNone : node.cache.mapModelManifests[id]? = none) : ∀ e ∈ past, tallies env id e = false := by
  have hCount := h.count
  rw [hNone, Option.any_none, if_neg Bool.false_ne_true, countP_eq_zero] at hCount
  exact fun e he => Bool.eq_false_iff.mpr (hCount e he)

theorem heights_afterTxs (h : ModelHistory env id past node) (hBlock : AcceptedBlock env node block)
    (hm : (afterTxs env node block.vtx).mapModelManifests[id]? = some m) :
    ∀ e ∈ past, tallies env id e = true → e.1.nextHeight = m.voteWindowEndHeight := by
  intro e he hTallies
  rcases models_afterTxs hBlock id m hm with hOld | ⟨hNew, _⟩
  · exact h.heights e he hTallies m hOld
  · rw [h.not_tallies hNew e he] at hTallies
    cases hTallies

section

variable (hParams : GovernanceParams env.params) (h : ModelHistory env id past node)
  (hTip : connectTip env node block = .ok node')

include hParams h hTip

theorem count_afterTxs (hm : (afterTxs env node block.vtx).mapModelManifests[id]? = some m) :
    past.countP (tallies env id) = if m.voteWindowEndHeight < node.nextHeight then 1 else 0 := by
  obtain ⟨hBlock, _, _⟩ := connectTip_cache hTip
  rw [h.count]
  rcases models_afterTxs hBlock id m hm with hOld | ⟨hNew, _, _, hReg⟩
  · rw [hOld, Option.any_some]
    simp
  · have hOpen := ((h.timed.afterTxs hParams hTip hm).2.1.voting hReg.status).1
    rw [hNew, Option.any_none, if_neg Bool.false_ne_true, if_neg (Nat.not_lt.mpr hOpen)]

theorem count_step :
    (past ++ [(node, block)]).countP (tallies env id) =
      if (node'.cache.mapModelManifests[id]?).any
        (decide <| ·.voteWindowEndHeight < node'.nextHeight) then 1 else 0 := by
  obtain ⟨hBlock, _, _⟩ := connectTip_cache hTip
  rw [models_of_connectTip hParams h.timed hTip, (connectTip_height hTip).2, countP_append,
    countP_singleton]
  cases hm : (afterTxs env node block.vtx).mapModelManifests[id]? with
  | none =>
    have hNone : node.cache.mapModelManifests[id]? = none := by
      cases hOld : node.cache.mapModelManifests[id]? with
      | none => rfl
      | some m =>
        rw [model_kept hBlock hOld] at hm
        cases hm
    rw [h.count, hNone, not_tallies_of_none hParams h.timed hTip hm]
    rfl
  | some m =>
    obtain ⟨_, hTimes, _⟩ := h.timed.afterTxs hParams hTip hm
    rw [h.count_afterTxs hParams hTip hm, Option.map_some, Option.any_some,
      (advanced_heights _ _ _ m).2.1]
    simp only [tallies_iff hParams h.timed hTip, hm, Option.some.injEq, exists_eq_left',
      decide_eq_true_eq]
    by_cases hVoting : m.status = .voting
    · have hLe := (hTimes.voting hVoting).1
      simp only [hVoting, true_and]
      split
      · omega
      · split
        · rw [if_pos (by omega)]
        · rw [if_neg (by omega)]
    · have hLt := hTimes.decided hVoting
      rw [if_pos hLt, if_neg fun hBoth => hVoting hBoth.1, if_pos (Nat.lt_succ_of_lt hLt)]

end

theorem not_tallies_of_votesCast (h : ModelHistory env id past node)
    (hBlock : AcceptedBlock env node block) (hVotes : votesCast env id (node, block) ≠ []) :
    ∀ e ∈ past, tallies env id e = false := by
  obtain ⟨m, hm, hVoting⟩ := votable_of_votesCast hBlock hVotes
  have hOpen := ((h.timed.times id m hm).1.voting hVoting).1
  have hCount := h.count
  rw [hm, Option.any_some, if_neg (by simpa using hOpen), countP_eq_zero] at hCount
  exact fun e he => Bool.eq_false_iff.mpr (hCount e he)

theorem step (hParams : GovernanceParams env.params) (h : ModelHistory env id past node)
    (hTip : connectTip env node block = .ok node') :
    ModelHistory env id (past ++ [(node, block)]) node' := by
  obtain ⟨hBlock, _, _⟩ := connectTip_cache hTip
  have hModels := models_of_connectTip hParams h.timed hTip id
  have hLast : (node, block) ∈ past ++ [(node, block)] :=
    mem_append_right _ mem_cons_self
  refine
    { timed := h.timed.connectTip hParams hTip
      registered := fun m' hm' => ?_
      count := h.count_step hParams hTip
      heights := fun e he hTallies m' hm' => ?_
      voteTimes := fun e he hVotes => ?_
      settled := fun e he hTallies => ?_ }
  · rw [hModels] at hm'
    obtain ⟨m, hm, rfl⟩ := Option.map_eq_some_iff.mp hm'
    rw [(advanced_heights _ _ _ m).1]
    rcases models_afterTxs hBlock id m hm with hOld | ⟨_, tx, hMem, hReg⟩
    · obtain ⟨e, he, hRegistered⟩ := h.registered m hOld
      exact ⟨e, mem_append_left _ he, hRegistered⟩
    · exact ⟨_, hLast, hReg.proposed.symm, tx, hMem, hReg.type, hReg.model⟩
  · rw [hModels] at hm'
    obtain ⟨m, hm, rfl⟩ := Option.map_eq_some_iff.mp hm'
    rw [(advanced_heights _ _ _ m).2.1]
    rcases mem_append.mp he with hPast | hNow
    · exact h.heights_afterTxs hBlock hm e hPast hTallies
    · cases mem_singleton.mp hNow
      obtain ⟨_, hSame, _, hEnd⟩ := (tallies_iff hParams h.timed hTip).mp hTallies
      cases hSame.symm.trans hm
      exact hEnd.symm
  · -- The manifest that the vote is for is on record before the block already.
    have hOld : ∃ m, node.cache.mapModelManifests[id]? = some m ∧
        m.proposedHeight < e.1.nextHeight ∧ e.1.nextHeight ≤ m.voteWindowEndHeight := by
      rcases mem_append.mp he with hPast | hNow
      · exact h.voteTimes e hPast hVotes
      · cases mem_singleton.mp hNow
        obtain ⟨m, hm, hVoting⟩ := votable_of_votesCast hBlock hVotes
        obtain ⟨hTimes, hBefore⟩ := h.timed.times id m hm
        exact ⟨m, hm, hBefore, (hTimes.voting hVoting).1⟩
    obtain ⟨m, hm, hIn⟩ := hOld
    rw [hModels, model_kept hBlock hm, Option.map_some]
    obtain ⟨hProposed, hEnd, _⟩ :=
      advanced_heights env node.nextHeight (atTally env (node, block)) m
    exact ⟨_, rfl, by rw [hProposed, hEnd]; exact hIn⟩
  · obtain ⟨_, hVotes⟩ := @beforeTally_models env node.nextHeight block.vtx
      (afterTxs env node block.vtx)
    rw [modelVotes_of_connectTip hTip]
    rcases mem_append.mp he with hPast | hNow
    · rw [h.settled e hPast hTallies]
      -- A later block casts no vote.
      have hNil : votesCast env id (node, block) = [] := by
        by_contra hCast
        rw [h.not_tallies_of_votesCast hBlock hCast e hPast] at hTallies
        cases hTallies
      refine Std.ExtTreeMap.ext_getElem? fun voter => ?_
      rw [modelVotes_afterTxs hBlock, hNil]
      rfl
    · cases mem_singleton.mp hNow
      rw [atTally, hVotes]

end ModelHistory

theorem modelHistory (hParams : GovernanceParams env.params) {ok : NodeState → CBlock → Prop}
    {blocks : List CBlock} (hRun : ForwardRun env ok blocks node) (id : String) :
    ModelHistory env id (blockTrace env blocks) node := by
  refine hRun.invariant_trace (fun past node => ModelHistory env id past node)
    (fun _ _ _ _ h _ hTip => h.step hParams hTip) [] ?_
  have hNone : (NodeState.init env).cache.mapModelManifests[id]? = none := rfl
  exact
    { timed := ⟨fun _ _ hm => (by cases hm), fun _ _ hm => (by cases hm)⟩
      registered := fun m hm => (by cases hm)
      count := by rw [hNone]; rfl
      heights := by simp
      voteTimes := by simp
      settled := by simp }

end Lifecycle

/-! ## The life of a model -/

/-- The life of a model on a run: the arrows that its status takes, its registration, the one
    block that decides it, the votes that count there, and the first height at which it can be
    active. -/
structure ModelLife (env : Env) (blocks : List CBlock) (node : NodeState) (id : String) : Prop where
  oneWay : ∀ e ∈ blockTrace env blocks, ∀ next,
    connectTip env e.1 e.2 = .ok next →
    Relation.ReflTransGen ModelStatus.Step (statusOf e.1.cache id) (statusOf next.cache id)
  undecided : ∀ e ∈ blockTrace env blocks, ∀ next,
    connectTip env e.1 e.2 = .ok next → tallies env id e = false →
    statusOf e.1.cache id = some .voting → statusOf next.cache id = some .voting
  decided : ∀ e ∈ blockTrace env blocks, ∀ next,
    connectTip env e.1 e.2 = .ok next → tallies env id e = true →
    statusOf next.cache id ∈ (if modelApproved ((atTally env e).tallyModelVotes id).1
      (atTally env e).totalActiveStake env.params.nOPoIModelApprovalPct
      then [some .approved, some .active] else [some .rejected])
  unregistered : node.cache.mapModelManifests[id]? = none →
    (blockTrace env blocks).countP (tallies env id) = 0
  registered : ∀ m, node.cache.mapModelManifests[id]? = some m →
    ∃ e ∈ blockTrace env blocks, e.1.nextHeight = m.proposedHeight ∧
      ∃ tx ∈ opoiTxs e.2.vtx, tx.opoiType = .modelRegister ∧ tx.opoiModelId = id
  tallyOnce : ∀ m, node.cache.mapModelManifests[id]? = some m →
    (blockTrace env blocks).countP (tallies env id) =
      if (m.proposedHeight : Int) + env.params.nOPoIModelVoteWindowBlocks < node.nextHeight
      then 1 else 0
  tallyHeight : ∀ m, node.cache.mapModelManifests[id]? = some m →
    ∀ e ∈ blockTrace env blocks, tallies env id e = true →
    (e.1.nextHeight : Int) = m.proposedHeight + env.params.nOPoIModelVoteWindowBlocks
  counted : ∀ m, node.cache.mapModelManifests[id]? = some m →
    ∀ e ∈ blockTrace env blocks, tallies env id e = true → ∀ voter,
    ((atTally env e).mapModelVotes.getD id ∅)[voter]? =
      lastVote (windowVotes env blocks id m.proposedHeight e) voter
  tally : ∀ m, node.cache.mapModelManifests[id]? = some m →
    ∀ e ∈ blockTrace env blocks, tallies env id e = true →
    (atTally env e).tallyModelVotes id =
      (sumInt64 (((lastVotes (windowVotes env blocks id m.proposedHeight e)).filter
        (·.approve)).map (·.weight)),
       sumInt64 (((lastVotes (windowVotes env blocks id m.proposedHeight e)).filter
        (!·.approve)).map (·.weight)))
  active : ∀ m, node.cache.mapModelManifests[id]? = some m → m.status = .active →
    (m.proposedHeight : Int) + env.params.nOPoIModelVoteWindowBlocks +
      env.params.nOPoIModelActivationDelayBlocks < node.nextHeight

section Steps

variable {env : Env} {node node' : NodeState} {block : CBlock} {id : String}

section

variable (hParams : GovernanceParams env.params) (h : ManifestsTimed env node)
  (hTip : connectTip env node block = .ok node')

include hParams h hTip

theorem statusOf_oneWay :
    Relation.ReflTransGen ModelStatus.Step (statusOf node.cache id) (statusOf node'.cache id) := by
  obtain ⟨hBlock, _, _⟩ := connectTip_cache hTip
  simp only [statusOf, models_of_connectTip hParams h hTip]
  cases hm : (afterTxs env node block.vtx).mapModelManifests[id]? with
  | none =>
    cases hOld : node.cache.mapModelManifests[id]? with
    | none => exact .refl
    | some m =>
      rw [model_kept hBlock hOld] at hm
      cases hm
  | some m =>
    have hPass := advanced_status env node.nextHeight (atTally env (node, block)) m
    rcases models_afterTxs hBlock id m hm with hOld | ⟨hNew, _, _, hReg⟩
    · rw [hOld]
      exact hPass
    · rw [hNew]
      rw [hReg.status] at hPass
      exact hPass.head .register

theorem statusOf_undecided (hOpen : tallies env id (node, block) = false)
    (hVoting : statusOf node.cache id = some .voting) : statusOf node'.cache id = some .voting := by
  obtain ⟨hBlock, _, _⟩ := connectTip_cache hTip
  obtain ⟨m, hm, hStatus⟩ := Option.map_eq_some_iff.mp hVoting
  have hKept := model_kept hBlock hm
  have hNotDue : m.isDue node.nextHeight = false := by
    rw [Bool.eq_false_iff, Ne, (h.afterTxs hParams hTip hKept).2.1.isDue_iff]
    intro hDue
    rw [(tallies_iff hParams h hTip).mpr ⟨m, hKept, hDue⟩] at hOpen
    cases hOpen
  simp [statusOf, models_of_connectTip hParams h hTip, hKept, ModelManifest.advanced,
    ModelManifest.tallied, hNotDue, ModelManifest.isReady, hStatus]

theorem statusOf_decided (hTallies : tallies env id (node, block) = true) :
    statusOf node'.cache id ∈ (if modelApproved ((atTally env (node, block)).tallyModelVotes id).1
        (atTally env (node, block)).totalActiveStake env.params.nOPoIModelApprovalPct
      then [some .approved, some .active] else [some .rejected]) := by
  obtain ⟨m, hm, hDue⟩ := (tallies_iff hParams h hTip).mp hTallies
  obtain ⟨hKey, hTimes, _⟩ := h.afterTxs hParams hTip hm
  have hIsDue := hTimes.isDue_iff.mpr hDue
  simp only [statusOf, models_of_connectTip hParams h hTip, hm, Option.map_some,
    ModelManifest.advanced, ModelManifest.tallied, hIsDue, if_true, verdictOn, hKey]
  split
  · split
    · exact mem_cons_of_mem _ mem_cons_self
    · exact mem_cons_self
  · split
    · rename_i hReady
      simp [ModelManifest.isReady, ModelManifest.withStatus] at hReady
    · exact mem_cons_self

end

end Steps

/-- Model governance is a one-way machine with one decision. -/
theorem modelLife_of_forwardRun (env : Env) (hParams : GovernanceParams env.params)
    (blocks : List CBlock) (node : NodeState)
    (hRun : PlainRun env blocks node) (id : String) :
    ModelLife env blocks node id := by
  have hHistory := modelHistory hParams hRun id
  -- The manifests at the state before a block of the run.
  have hTimed : ∀ e ∈ blockTrace env blocks, ManifestsTimed env e.1 := by
    intro e he
    obtain ⟨before, _, _, _, hBefore, _, _⟩ := hRun.split_trace e he
    exact (modelHistory hParams hBefore id).timed
  have hCounted : ∀ m, node.cache.mapModelManifests[id]? = some m →
      ∀ e ∈ blockTrace env blocks, tallies env id e = true → ∀ voter,
      ((atTally env e).mapModelVotes.getD id ∅)[voter]? =
        lastVote (windowVotes env blocks id m.proposedHeight e) voter := by
    intro m hm e he hTallies voter
    rw [hHistory.settled e he hTallies, modelVotes_of_forwardRun hRun, windowVotes,
      flatMap_filter_of_nil]
    -- Every vote was cast in the window, so the blocks outside of it have none.
    intro b hb hOutside
    by_contra hCast
    obtain ⟨_, hSame, hAfter, hEnd⟩ := hHistory.voteTimes b hb hCast
    cases hSame.symm.trans hm
    rw [← hHistory.heights e he hTallies m hm] at hEnd
    simp [hAfter, hEnd] at hOutside
  refine
    { oneWay := fun e he next hTip => statusOf_oneWay hParams (hTimed e he) hTip
      undecided := fun e he next hTip => statusOf_undecided hParams (hTimed e he) hTip
      decided := fun e he next hTip => statusOf_decided hParams (hTimed e he) hTip
      unregistered := fun hNone => ?_
      registered := hHistory.registered
      tallyOnce := fun m hm => ?_
      tallyHeight := fun m hm e he hTallies => ?_
      counted := hCounted
      tally := fun m hm e he hTallies => tally_of_lastVote (hCounted m hm e he hTallies)
      active := fun m hm hActive => ?_ }
  · exact countP_eq_zero.mpr fun e he => Bool.eq_false_iff.mp (hHistory.not_tallies hNone e he)
  · rw [hHistory.count, hm, Option.any_some, ← (hHistory.timed.times id m hm).1.ends]
    simp
  · rw [← (hHistory.timed.times id m hm).1.ends, hHistory.heights e he hTallies m hm]
  · have hLt := (hHistory.timed.times id m hm).1.activated hActive
    rw [(hHistory.timed.times id m hm).1.ends] at hLt
    exact hLt

def revoteParams : Params :=
  { governedParams with nOPoIModelVoteWindowBlocks := 2, nOPoIModelActivationDelayBlocks := 1 }

def sampleRevote : List CBlock := sampleStaked
  [sampleBlock 4 [sampleModelRegister "model" sampleMiner 2],
   sampleBlock 5 [sampleModelVote "model" sampleMiner 3 0],
   sampleBlock 6 [sampleModelVote "model" sampleMiner 4 1], sampleBlock 7 []]

/-- The model is registered at height 3, approved at height 5 and active from height 6 on. -/
theorem modelLife_of_revote :
    ∃ node m, PlainRun (sampleEnv revoteParams) sampleRevote node ∧
      node.nextHeight = 7 ∧ node.cache.mapModelManifests["model"]? = some m ∧
      m.proposedHeight = 3 ∧ m.status = .active ∧
      ModelLife (sampleEnv revoteParams) sampleRevote node "model" := by
  exact ⟨_, _, Run.steps_value .other (by decide +kernel), by decide +kernel,
    Run.eq_valueOf (by decide +kernel), by decide +kernel, by decide +kernel,
    modelLife_of_forwardRun _ (by constructor <;> decide) _ _ (Run.steps_value .other _) "model"⟩

end CloudService
