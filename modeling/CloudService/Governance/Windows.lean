/-
  The pass over the models. Both loops run over a copy of the manifests and write through the
  id.
-/

import CloudService.Chain.Turns
import CloudService.Coinbase.Passes

namespace CloudService

open TreeMap

def ManifestsKeyed (c : OPoICache) : Prop :=
  ∀ (id : String) (m : ModelManifest), c.mapModelManifests[id]? = some m → m.modelId = id

def beforeTally (env : Env) (height : Nat) (vtx : List CTransaction) (c : OPoICache) : OPoICache :=
  upkeepPasses env height (expireChallenges env height (processChallengerRewardPayments env vtx c))

def atTally (env : Env) (e : NodeState × CBlock) : OPoICache :=
  beforeTally env e.1.nextHeight e.2.vtx (afterTxs env e.1 e.2.vtx)

/-- The decision over a model by the votes on record: its status and its activation height. -/
def verdictOn (env : Env) (height : Nat) (c : OPoICache) (id : String) : ModelStatus × Nat :=
  if modelApproved (c.tallyModelVotes id).1 c.totalActiveStake env.params.nOPoIModelApprovalPct then
    (.approved, u32 (height + u32OfInt env.params.nOPoIModelActivationDelayBlocks))
  else (.rejected, 0)

def OPoICache.withModels (c : OPoICache) (models : StrMap ModelManifest) : OPoICache :=
  { c with mapModelManifests := models }

namespace ModelManifest

def isDue (height : Nat) (m : ModelManifest) : Bool :=
  m.isVoting && decide (m.voteWindowEndHeight ≤ height)

/-- The update of `SetModelManifestStatus`. -/
def withStatus (s : ModelStatus × Nat) (m : ModelManifest) : ModelManifest :=
  { m with
    status := s.1
    activationHeight := if 0 < s.2 then s.2 else m.activationHeight }

def isReady (height : Nat) (m : ModelManifest) : Bool :=
  m.status == .approved && decide (0 < m.activationHeight ∧ m.activationHeight ≤ height)

def tallied (env : Env) (height : Nat) (c : OPoICache) (m : ModelManifest) : ModelManifest :=
  if m.isDue height then m.withStatus (verdictOn env height c m.modelId) else m

def advanced (env : Env) (height : Nat) (c : OPoICache) (m : ModelManifest) : ModelManifest :=
  if (m.tallied env height c).isReady height then (m.tallied env height c).withStatus (.active, 0)
  else m.tallied env height c

end ModelManifest

section Windows

variable {env : Env} {height : Nat} {vtx : List CTransaction} {c : OPoICache} {id : String}
  {node node' : NodeState} {block : CBlock}

theorem beforePayments_tally :
    beforePayments env height vtx c =
      processModelVotingWindows env height (beforeTally env height vtx c) := rfl

/-! ## The two loops -/

theorem foldl_tallyManifest (ms : List ModelManifest) (models : StrMap ModelManifest) :
    ms.foldl (tallyManifest env height) (c.withModels models) =
      c.withModels (ms.foldl (fun models m => models.modify m.modelId
        (ModelManifest.withStatus (verdictOn env height c m.modelId))) models) := by
  induction ms generalizing models with
  | nil => rfl
  | cons m ms ih =>
    have hTally : tallyManifest env height (c.withModels models) m =
        c.withModels (models.modify m.modelId
          (ModelManifest.withStatus (verdictOn env height c m.modelId))) := by
      have hVotes : (c.withModels models).tallyModelVotes m.modelId =
          c.tallyModelVotes m.modelId := rfl
      have hTotal : (c.withModels models).totalActiveStake = c.totalActiveStake := rfl
      rw [tallyManifest, verdictOn, hVotes, hTotal]
      split
      · rfl
      · rfl
    rw [List.foldl_cons, List.foldl_cons, hTally]
    exact ih _

theorem foldl_activateManifest (ms : List ModelManifest) (models : StrMap ModelManifest) :
    ms.foldl (activateManifest height) (c.withModels models) =
      c.withModels (ms.foldl (fun models m => models.modify m.modelId fun old =>
        if 0 < m.activationHeight ∧ m.activationHeight ≤ height then old.withStatus (.active, 0)
        else old) models) := by
  induction ms generalizing models with
  | nil => rfl
  | cons m ms ih =>
    have hActivate : activateManifest height (c.withModels models) m =
        c.withModels (models.modify m.modelId fun old =>
          if 0 < m.activationHeight ∧ m.activationHeight ≤ height then old.withStatus (.active, 0)
          else old) := by
      rw [activateManifest]
      split
      · rfl
      · rw [modify_eq_self_iff.mpr fun _ _ => rfl]
    rw [List.foldl_cons, List.foldl_cons, hActivate]
    exact ih _

theorem getElem?_foldl_models {models : StrMap ModelManifest} {p : ModelManifest → Bool}
    {g : ModelManifest → ModelManifest → ModelManifest}
    (hKeyed : ∀ (id : String) (m : ModelManifest), models[id]? = some m → m.modelId = id) :
    (((vals models).filter p).foldl (fun models m => models.modify m.modelId (g m)) models)[id]? =
      (models[id]?).map fun m => if p m then g m m else m := by
  cases hGet : models[id]? with
  | none =>
    rw [getElem?_foldl_modify_of_not_mem, hGet]
    · rfl
    · rintro m hm rfl
      obtain ⟨key, hKey⟩ := mem_vals.mp (List.mem_filter.mp hm).1
      rw [hKeyed key m hKey, hKey] at hGet
      cases hGet
  | some m =>
    rw [Option.map_some]
    have hId : m.modelId = id := hKeyed id m hGet
    split
    · rename_i hTest
      have hMem : m ∈ (vals models).filter p :=
        List.mem_filter.mpr ⟨mem_vals.mpr ⟨id, hGet⟩, hTest⟩
      have hOnce := getElem?_foldl_modify_of_mem (m := models) (g := g) hMem
        (nodup_map_filter_vals hKeyed)
      rw [hId, hGet] at hOnce
      exact hOnce
    · rename_i hTest
      rw [getElem?_foldl_modify_of_not_mem, hGet]
      rintro m' hm' rfl
      obtain ⟨hVal, hTest'⟩ := List.mem_filter.mp hm'
      obtain ⟨key, hKey⟩ := mem_vals.mp hVal
      rw [hKeyed key m' hKey, hKey] at hGet
      cases hGet
      exact hTest hTest'

theorem processModelVotingWindows_get (hKeyed : ManifestsKeyed c) (id : String) :
    (processModelVotingWindows env height c).mapModelManifests[id]? =
      (c.mapModelManifests[id]?).map (·.advanced env height c) := by
  unfold processModelVotingWindows
  have hTally : (c.listManifestsDueForTally height).foldl (tallyManifest env height) c =
      c.withModels ((c.listManifestsDueForTally height).foldl (fun models m =>
        models.modify m.modelId (ModelManifest.withStatus (verdictOn env height c m.modelId)))
        c.mapModelManifests) := foldl_tallyManifest _ c.mapModelManifests
  rw [hTally, foldl_activateManifest]
  have hGet : ∀ id : String, ((c.listManifestsDueForTally height).foldl (fun models m =>
      models.modify m.modelId (ModelManifest.withStatus (verdictOn env height c m.modelId)))
      c.mapModelManifests)[id]? = (c.mapModelManifests[id]?).map (·.tallied env height c) :=
    fun id => getElem?_foldl_models hKeyed
  generalize (c.listManifestsDueForTally height).foldl _ _ = models at hGet
  refine (getElem?_foldl_models ?_).trans ?_
  · intro key m hm
    rw [hGet] at hm
    obtain ⟨old, hOld, rfl⟩ := Option.map_eq_some_iff.mp hm
    rw [← hKeyed key old hOld]
    unfold ModelManifest.tallied
    split
    · rfl
    · rfl
  · rw [hGet, Option.map_map]
    refine Option.map_congr fun m _ => ?_
    simp only [Function.comp_apply, ModelManifest.advanced, ModelManifest.isReady, Bool.and_eq_true,
      decide_eq_true_eq]
    by_cases hStatus : ((m.tallied env height c).status == .approved) = true
    · rw [if_pos hStatus]
      simp only [hStatus, true_and]
    · rw [if_neg hStatus, if_neg fun h => hStatus h.1]

/-! ## The other passes -/

theorem PassPreserved.beforeTally {P : OPoICache → Prop} (h : PassPreserved env height P)
    (hc : P c) :
    P (beforeTally env height vtx c) :=
  h.upkeepPasses (List.foldlRecOn _ _ (h.processChallengerRewardPayments hc vtx)
    fun d hd key _ => h.expireChallenge d key hd)

theorem beforeTally_models :
    (beforeTally env height vtx c).mapModelManifests = c.mapModelManifests ∧
      (beforeTally env height vtx c).mapModelVotes = c.mapModelVotes := by
  have hUpkeep : UpkeepPreserved env height fun d : OPoICache =>
      d.mapModelManifests = c.mapModelManifests ∧ d.mapModelVotes = c.mapModelVotes :=
    { releaseStake := fun d key h => by
        obtain ⟨_, _, hEq⟩ := releaseStake_eq env height d key
        rw [hEq]
        exact h
      expireRequests := fun _ h => h
      closeWindows := fun _ h => h
      suspendOverdue := fun _ h => h
      strikeMissed := fun _ h => h
      assignCanary := fun d h => by
        obtain ⟨_, hEq⟩ := assignCanary_eq env height d
        rw [hEq]
        exact h }
  have hRewards : (processChallengerRewardPayments env vtx c).mapModelManifests =
      c.mapModelManifests ∧ (processChallengerRewardPayments env vtx c).mapModelVotes =
      c.mapModelVotes :=
    List.foldlRecOn (motive := fun d : OPoICache =>
      d.mapModelManifests = c.mapModelManifests ∧ d.mapModelVotes = c.mapModelVotes) _ _ ⟨rfl, rfl⟩
      fun _ h _ _ => h
  refine hUpkeep.upkeepPasses (List.foldlRecOn (motive := fun d : OPoICache =>
    d.mapModelManifests = c.mapModelManifests ∧ d.mapModelVotes = c.mapModelVotes) _ _ hRewards
    fun d h key _ => ?_)
  obtain ⟨_, _, _, _, hEq⟩ := expireChallenge_eq env height d key
  rw [hEq]
  exact h

theorem settle_models :
    (processAuditorVerifications env (markPayments env height c vtx)).mapModelManifests =
      c.mapModelManifests := by
  have hSettle : SettlePreserved env fun d : OPoICache =>
      d.mapModelManifests = c.mapModelManifests :=
    { shardPaid := fun _ _ _ h => h
      responsePaid := fun _ _ h => h
      resolveAuditors := fun d r h => by
        obtain ⟨_, _, _, _, _, hEq⟩ := resolveAuditors_eq env d r
        rw [hEq]
        exact h
      resolveShardAuditors := fun d key h => by
        obtain ⟨_, _, _, _, hEq⟩ := resolveShardAuditors_eq env d key
        rw [hEq]
        exact h }
  exact hSettle.processAuditorVerifications (hSettle.markPayments rfl vtx)

theorem connectPasses_models (hKeyed : ManifestsKeyed c) (id : String) :
    (connectPasses env height vtx c).mapModelManifests[id]? =
      (c.mapModelManifests[id]?).map (·.advanced env height (beforeTally env height vtx c)) := by
  obtain ⟨hModels, _⟩ := @beforeTally_models env height vtx c
  rw [connectPasses_eq, settle_models, beforePayments_tally,
    processModelVotingWindows_get (by rw [ManifestsKeyed, hModels]; exact hKeyed), hModels]

theorem connectPasses_modelVotes :
    (connectPasses env height vtx c).mapModelVotes = c.mapModelVotes := by
  have hPass := passPreserved_fixed env height (·.mapModelVotes = c.mapModelVotes)
  simpa only [OPoICache.lateFixed] using hPass.connectPasses (c := c) rfl vtx

end Windows

end CloudService
