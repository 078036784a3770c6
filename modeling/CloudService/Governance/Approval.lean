/-
  What stands behind an approval. The weight of a vote is fixed when it is cast, the stakes
  are those of the block that decides.
-/

import CloudService.Amounts.Records
import CloudService.Governance.Lifecycle
import CloudService.Library.Matching
import CloudService.Library.Ranges
import CloudService.Locks.LiveStakes

namespace CloudService

open Ranges TreeMap List

def yesStakes (c : OPoICache) (id : String) : List OPoIStake :=
  (vals c.mapStakes).filter fun s =>
    s.isActive && ((c.mapModelVotes.getD id ∅)[s.minerAddress]?).any (·.approve)

/-- The votes of a run for a model, each with the active stake that gives it its weight. -/
def castStakes (env : Env) (blocks : List CBlock) (id : String) :
    List (ModelVoteRecord × OPoIStake) :=
  (blockTrace env blocks).flatMap fun e =>
    (turns env e.1 e.2).filterMap fun t => (castVote env e.1.nextHeight id t).bind fun v =>
      ((t.1.mapStakes[v.voterAddress]?).filter (·.isActive)).map fun s => (v, s)

/-- The approving votes on record at a tally, each with the stake that it was cast with. -/
def countedStakes (env : Env) (blocks : List CBlock) (id : String) (e : NodeState × CBlock) :
    List (ModelVoteRecord × OPoIStake) :=
  (castStakes env blocks id).filter fun p =>
    p.1.approve && ((atTally env e).mapModelVotes.getD id ∅)[p.1.voterAddress]? == some p.1

/-- The block tallies the votes on the model and approves it. -/
def approves (env : Env) (id : String) (e : NodeState × CBlock) : Bool :=
  tallies env id e && (verdictOn env e.1.nextHeight (atTally env e) id).1 == .approved

/-- The active stakes behind the yes votes carry the approval, each with a collateral of its own. -/
structure ApprovalBacked (env : Env) (blocks : List CBlock) (id : String)
    (e : NodeState × CBlock) : Prop where
  stake : ((atTally env e).activeStakes.map (·.amount)).sum * env.params.nOPoIModelApprovalPct ≤
    (((yesStakes (atTally env e) id).map (·.amount)).sum : Int) * 100
  collateral : ∀ p ∈ countedStakes env blocks id e, ∀ q ∈ countedStakes env blocks id e,
    p.2.collateralIn = q.2.collateralIn → p.1.voterAddress = q.1.voterAddress

/-- Every counted vote still has its stake, no sum leaves the range of the type, and no product
    is rounded in favour of the model. -/
@[mk_iff]
structure StillStaked (env : Env) (blocks : List CBlock) (id : String)
    (e : NodeState × CBlock) : Prop where
  staked : ∀ p ∈ countedStakes env blocks id e,
    ((atTally env e).mapStakes[p.1.voterAddress]?).any (fun s => s.isActive &&
      s.collateralIn == p.2.collateralIn && s.amount == p.2.amount) = true
  stakesFit : InInt64 ((atTally env e).activeStakes.map (·.amount)).sum
  votesFit : InInt64 (((vals ((atTally env e).mapModelVotes.getD id ∅)).filter
    (·.approve)).map (·.weight)).sum
  yesWeight : roundDouble (roundDouble ((atTally env e).tallyModelVotes id).1 * 100) ≤
    ((atTally env e).tallyModelVotes id).1 * 100
  totalStake : (atTally env e).totalActiveStake * env.params.nOPoIModelApprovalPct ≤
    roundDouble (roundDouble (atTally env e).totalActiveStake * env.params.nOPoIModelApprovalPct)

instance {env : Env} {blocks : List CBlock} {id : String} {e : NodeState × CBlock} :
    Decidable (StillStaked env blocks id e) :=
  decidable_of_iff' _ (stillStaked_iff ..)

section Approval

variable {env : Env} {node node' : NodeState} {block : CBlock} {c : OPoICache} {id voter : String}
  {v : ModelVoteRecord} {blocks : List CBlock} {e : NodeState × CBlock}

/-! ## The stakes -/

theorem stakes_atTally (hRun : ForwardRun env (onBlock env (LockSafe env)) blocks node)
    (he : e ∈ blockTrace env blocks) :
    LockDiscipline (atTally env e) ∧ SoundAmounts (atTally env e) := by
  obtain ⟨before, _, next, _, hBefore, hTip, _⟩ := hRun.split_trace e he
  have hSafe := hRun.of_mem_trace e he
  have hLocks := preserved_lockInvariant.afterTxs
    (preserved_lockInvariant.forwardRun lockDiscipline_empty.invariant hBefore) hTip hSafe
  have hSound := (soundAmounts_of_reachable (reachable_of_forwardRun hBefore)).afterTxs
    (connectTip_cache hTip).1
  have hDropped : DroppedFrom (afterTxs env e.1 e.2.vtx) (atTally env e) :=
    passPreserved_droppedFrom.beforeTally ⟨hLocks.toLockDiscipline, .refl _⟩
  exact ⟨hDropped.1,
    hSound.of_same ((passPreserved_sameAmounts env e.1.nextHeight _).beforeTally (.refl _))⟩

/-! ## The votes -/

section

variable {ok : NodeState → CBlock → Prop} (hRun : ForwardRun env ok blocks node)
  (he : e ∈ blockTrace env blocks)
  (hv : ((atTally env e).mapModelVotes.getD id ∅)[voter]? = some v)

include hRun he hv

theorem exists_castVote_of_atTally :
    v.voterAddress = voter ∧ ∃ b ∈ blockTrace env blocks,
      ∃ t ∈ turns env b.1 b.2, castVote env b.1.nextHeight id t = some v := by
  obtain ⟨before, after, next, _, hBefore, hTip, hTrace⟩ := hRun.split_trace e he
  obtain ⟨_, hVotes⟩ := @beforeTally_models env e.1.nextHeight e.2.vtx (afterTxs env e.1 e.2.vtx)
  rw [atTally, hVotes, modelVotes_afterTxs (connectTip_cache hTip).1,
    modelVotes_of_forwardRun hBefore, ← lastVote_append] at hv
  have hAddress := find?_some hv
  have hMem := mem_reverse.mp (mem_of_find?_eq_some hv)
  refine ⟨beq_iff_eq.mp hAddress, ?_⟩
  rcases mem_append.mp hMem with hPast | hNow
  · obtain ⟨b, hb, hCast⟩ := mem_flatMap.mp hPast
    obtain ⟨t, ht, hEq⟩ := mem_filterMap.mp hCast
    refine ⟨b, ?_, t, ht, hEq⟩
    rw [blockTrace, hTrace]
    exact mem_append_left _ hb
  · obtain ⟨t, ht, hEq⟩ := mem_filterMap.mp hNow
    exact ⟨e, he, t, ht, hEq⟩

theorem exists_countedStake (hYes : v.approve = true) :
    v.weight = 0 ∨ ∃ s, (v, s) ∈ countedStakes env blocks id e ∧ s.amount = v.weight := by
  obtain ⟨hVoter, b, hb, t, ht, hCast⟩ := exists_castVote_of_atTally hRun he hv
  have hRecord := hCast
  rw [castVote] at hRecord
  split at hRecord
  · cases hStake : t.1.mapStakes[t.2.opoiRequester]? with
    | none =>
      cases hRecord
      exact .inl (by simp only [hStake])
    | some s =>
      cases hActive : s.isActive with
      | false =>
        cases hRecord
        exact .inl (by simp [hStake, hActive])
      | true =>
        have hAddress : v.voterAddress = t.2.opoiRequester := by
          cases hRecord
          rfl
        have hWeight : s.amount = v.weight := by
          cases hRecord
          simp [hStake, hActive]
        refine .inr ⟨s, mem_filter.mpr ⟨?_, ?_⟩, hWeight⟩
        · refine mem_flatMap.mpr ⟨b, hb, mem_filterMap.mpr ⟨t, ht, ?_⟩⟩
          rw [hCast, Option.bind_some, hAddress, hStake, Option.filter_some, if_pos hActive]
          rfl
        · rw [hYes, hVoter, hv]
          simp
  · cases hRecord

end

theorem StillStaked.exists_stake (h : StillStaked env blocks id e) {p : ModelVoteRecord × OPoIStake}
    (hp : p ∈ countedStakes env blocks id e) :
    ∃ s, (atTally env e).mapStakes[p.1.voterAddress]? = some s ∧ s.isActive = true ∧
      s.collateralIn = p.2.collateralIn ∧ s.amount = p.2.amount := by
  have hStaked := h.staked p hp
  rw [Option.any_eq_true] at hStaked
  obtain ⟨s, hGet, hSame⟩ := hStaked
  simp only [Bool.and_eq_true, beq_iff_eq] at hSame
  exact ⟨s, hGet, hSame.1.1, hSame.1.2, hSame.2⟩

theorem yesWeight_le (hRun : ForwardRun env (onBlock env (LockSafe env)) blocks node)
    (he : e ∈ blockTrace env blocks) (h : StillStaked env blocks id e) :
    ((atTally env e).tallyModelVotes id).1 ≤ ((yesStakes (atTally env e) id).map
      (·.amount)).sum := by
  obtain ⟨hLocks, hSound⟩ := stakes_atTally hRun he
  simp only [OPoICache.tallyModelVotes]
  rw [sumInt64_eq, bmod_eq h.votesFit]
  refine Matching.sum_le_of_keys (·.voterAddress) (·.minerAddress)
    (nodup_map_filter_vals fun voter v hv => (exists_castVote_of_atTally hRun he hv).1)
    (fun v hv => ?_) fun s hs => ?_
  · obtain ⟨hVal, hYes⟩ := mem_filter.mp hv
    obtain ⟨voter, hGet⟩ := mem_vals.mp hVal
    have hVoter := (exists_castVote_of_atTally hRun he hGet).1
    rcases exists_countedStake hRun he hGet hYes with hZero | ⟨s, hCounted, hWeight⟩
    · exact .inl hZero.le
    · obtain ⟨now, hNow, hActive, _, hAmount⟩ := h.exists_stake hCounted
      have hOwner := hLocks.stakeKeyed _ now hNow
      refine .inr ⟨now, mem_filter.mpr ⟨mem_vals.mpr ⟨_, hNow⟩, ?_⟩, hOwner, ?_⟩
      · rw [hActive, hOwner, hVoter, hGet]
        exact hYes
      · exact (hAmount.trans hWeight).ge
  · obtain ⟨m, hGet⟩ := mem_vals.mp (mem_filter.mp hs).1
    exact (hSound.stakes m s hGet).le

end Approval

/-- In every run that takes no lock twice, an approval is backed by active stake when the stakes
    behind the counted votes are still there. -/
theorem approvalBacked_of_stillStaked (env : Env) (blocks : List CBlock) (node : NodeState)
    (hRun : ForwardRun env (onBlock env (LockSafe env)) blocks node) (e : NodeState × CBlock)
    (he : e ∈ blockTrace env blocks) (id : String)
    (hApproves : approves env id e = true) (hStaked : StillStaked env blocks id e) :
    ApprovalBacked env blocks id e := by
  obtain ⟨hLocks, _⟩ := stakes_atTally hRun he
  constructor
  · simp only [approves, verdictOn, Bool.and_eq_true, beq_iff_eq] at hApproves
    obtain ⟨_, hVerdict⟩ := hApproves
    split at hVerdict
    · rename_i hApproved
      simp only [modelApproved, Bool.and_eq_true, decide_eq_true_eq] at hApproved
      have hTotal : (atTally env e).totalActiveStake =
          ((atTally env e).activeStakes.map (·.amount)).sum := by
        rw [OPoICache.totalActiveStake, sumInt64_eq, bmod_eq hStaked.stakesFit]
      rw [← hTotal]
      calc (atTally env e).totalActiveStake * env.params.nOPoIModelApprovalPct
          ≤ roundDouble (roundDouble (atTally env e).totalActiveStake *
              env.params.nOPoIModelApprovalPct) := hStaked.totalStake
        _ ≤ roundDouble (roundDouble ((atTally env e).tallyModelVotes id).1 * 100) := hApproved.2
        _ ≤ ((atTally env e).tallyModelVotes id).1 * 100 := hStaked.yesWeight
        _ ≤ ((yesStakes (atTally env e) id).map (·.amount)).sum * 100 :=
          Int.mul_le_mul_of_nonneg_right (yesWeight_le hRun he hStaked) (by decide)
    · cases hVerdict
  · intro p hp q hq hSame
    obtain ⟨s, hGet, hActive, hCollateral, _⟩ := hStaked.exists_stake hp
    obtain ⟨s', hGet', hActive', hCollateral', _⟩ := hStaked.exists_stake hq
    have hLive : ∀ t : OPoIStake, t.isActive = true → t.isLive = true := by
      intro t hActive
      simp only [OPoIStake.isActive, beq_iff_eq] at hActive
      simp [OPoIStake.isLive, hActive]
    refine hLocks.liveStakesLocked.2 _ _ s s' hGet hGet' (hLive s hActive) (hLive s' hActive') ?_
    rw [hCollateral, hCollateral', hSame]

def sampleTally (alice bob : CAmount) (txs : List CTransaction) : List CBlock :=
  [sampleFunding, sampleBlock 3 [{ sampleStake "alice" ⟨4002, 1⟩ 1 with opoiPayment := alice },
     { sampleStake "bob" ⟨4002, 2⟩ 2 with opoiPayment := bob }],
   sampleBlock 4 [sampleModelRegister "model" "alice" 3], sampleBlock 5 txs]

def sampleStay : List CBlock :=
  sampleTally 50 50 [sampleModelVote "model" "alice" 4 1, sampleModelVote "model" "bob" 5 1]

theorem approvalBacked_of_stay :
    ∃ node, ForwardRun votingNet
        (onBlock votingNet (LockSafe votingNet)) sampleStay node ∧
      ∃ e ∈ blockTrace votingNet
        sampleStay, approves votingNet "model" e = true ∧
        ApprovalBacked votingNet sampleStay "model" e := by
  refine Run.exists_steps_imp .other (fun _ => ∃ e ∈ blockTrace votingNet sampleStay,
    approves votingNet "model" e = true ∧
        StillStaked votingNet sampleStay "model" e) (by decide +kernel) ?_
  rintro node hRun ⟨e, he, hApproves, hStaked⟩
  exact ⟨e, he, hApproves, approvalBacked_of_stillStaked _ _ node hRun e he "model"
    hApproves hStaked⟩

def sampleLeave : List CBlock :=
  sampleTally 50 50 [sampleModelVote "model" "bob" 4 1, sampleUnstake "bob" 5]

def sampleRounded : List CBlock :=
  sampleTally (34 * 2 ^ 48 + 1) (66 * 2 ^ 48 - 1) [sampleModelVote "model" "bob" 4 1]

/-- The model is approved, and no active stake has voted for it; and it is approved by a yes
    vote that falls short of 66 percent, since both sides round to the same double. -/
theorem not_approvalBacked_of_leave :
    (∃ node, ForwardRun votingNet (onBlock votingNet (LockSafe votingNet)) sampleLeave node ∧
      ∃ e ∈ blockTrace votingNet sampleLeave, approves votingNet "model" e = true ∧
        ((atTally votingNet e).activeStakes.map (·.amount)).sum = 50 ∧
        yesStakes (atTally votingNet e) "model" = [] ∧
        ¬ ApprovalBacked votingNet sampleLeave "model" e) ∧
    ∃ node, ForwardRun votingNet
        (onBlock votingNet (LockSafe votingNet)) sampleRounded
        node ∧
      ∃ e ∈ blockTrace votingNet
        sampleRounded, approves votingNet "model" e = true ∧
        ¬ ApprovalBacked votingNet sampleRounded "model" e := by
  constructor
  · refine Run.exists_steps_imp .other (fun _ =>
        ∃ e ∈ blockTrace votingNet sampleLeave, approves votingNet "model" e = true ∧
          ((atTally votingNet e).activeStakes.map (·.amount)).sum = 50 ∧
          yesStakes (atTally votingNet e) "model" = []) (by decide +kernel) ?_
    rintro _ _ ⟨e, he, hApproves, hTotal, hNone⟩
    refine ⟨e, he, hApproves, hTotal, hNone, fun h => ?_⟩
    have hStake := h.stake
    rw [hTotal, hNone] at hStake
    exact absurd hStake (by decide)
  · refine Run.exists_steps_imp .other (fun _ =>
        ∃ e ∈ blockTrace votingNet sampleRounded, approves votingNet "model" e = true ∧
          ((yesStakes (atTally votingNet e) "model").map (·.amount)).sum * 100 <
            ((atTally votingNet e).activeStakes.map (·.amount)).sum * 66) (by decide +kernel) ?_
    rintro _ _ ⟨e, he, hApproves, hLess⟩
    exact ⟨e, he, hApproves, fun h => Int.not_lt.mpr h.stake hLess⟩

end CloudService
