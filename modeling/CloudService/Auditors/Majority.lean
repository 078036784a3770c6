/-
  The majority of the votes on a response or a shard. A resolution rewrites the status of the
  votes only, so the passes leave every majority as it is.
-/

import CloudService.OPoI.Effects

namespace CloudService

open OPoICache

def OPoICache.getShardAuditorMajorityResult (c : OPoICache) (requestId : String) (shardIndex : Nat)
    (minVerifiers : Int) : Option Nat :=
  match c.mapShardAuditorVerifications[shardKey requestId shardIndex]? with
  | some verifs => computeAuditorMajority verifs minVerifiers
  | none => none

def majorityOf (votes : StrMap (List AuditorVerification)) (key : String) (least : Int) :
    Option Nat :=
  (votes[key]?).bind (computeAuditorMajority · least)

structure SameMajorities (c c' : OPoICache) : Prop where
  whole : ∀ key least, majorityOf c'.mapAuditorVerifications key least =
    majorityOf c.mapAuditorVerifications key least
  shards : ∀ key least, majorityOf c'.mapShardAuditorVerifications key least =
    majorityOf c.mapShardAuditorVerifications key least

section Majority

variable {c c' : OPoICache} {majority : Nat} {key : String}

theorem getAuditorMajorityResult_eq (r : String) (least : Int) :
    c.getAuditorMajorityResult r least = majorityOf c.mapAuditorVerifications r least := by
  unfold getAuditorMajorityResult majorityOf
  cases c.mapAuditorVerifications[r]? with
  | none => rfl
  | some verifs => rfl

theorem getShardAuditorMajorityResult_eq (r : String) (shardIndex : Nat) (least : Int) :
    c.getShardAuditorMajorityResult r shardIndex least =
      majorityOf c.mapShardAuditorVerifications (shardKey r shardIndex) least := by
  unfold getShardAuditorMajorityResult majorityOf
  cases c.mapShardAuditorVerifications[shardKey r shardIndex]? with
  | none => rfl
  | some verifs => rfl

/-! ## A resolution -/

@[simp] theorem countResult_resolve (verifs : List AuditorVerification) (result : Nat) :
    countResult (verifs.map (resolveVote majority)) result = countResult verifs result := by
  unfold countResult
  rw [List.countP_map]
  rfl

@[simp] theorem computeAuditorMajority_resolve (verifs : List AuditorVerification) (least : Int) :
    computeAuditorMajority (verifs.map (resolveVote majority)) least =
      computeAuditorMajority verifs least := by
  simp only [computeAuditorMajority, countResult_resolve]

theorem majorityOf_resolve (votes : StrMap (List AuditorVerification)) (key' : String)
    (least : Int) :
    majorityOf (votes.modify key (·.map (resolveVote majority))) key' least =
      majorityOf votes key' least := by
  rw [majorityOf, majorityOf, TreeMap.getElem?_modify_eq]
  split
  · cases votes[key']? with
    | none => rfl
    | some verifs => exact computeAuditorMajority_resolve verifs least
  · rfl

/-! ## The passes -/

namespace SameMajorities

theorem refl (c : OPoICache) : SameMajorities c c := ⟨fun _ _ => rfl, fun _ _ => rfl⟩

theorem quiet (h : SameMajorities c c') {d : OPoICache}
    (hWhole : d.mapAuditorVerifications = c'.mapAuditorVerifications)
    (hShards : d.mapShardAuditorVerifications = c'.mapShardAuditorVerifications) :
    SameMajorities c d := by
  refine ⟨fun key least => ?_, fun key least => ?_⟩
  · rw [hWhole]
    exact h.whole key least
  · rw [hShards]
    exact h.shards key least

theorem getAuditorMajorityResult (h : SameMajorities c c') (r : String) (least : Int) :
    c'.getAuditorMajorityResult r least = c.getAuditorMajorityResult r least := by
  rw [getAuditorMajorityResult_eq, getAuditorMajorityResult_eq]
  exact h.whole r least

theorem passPreserved (env : Env) (height : Nat) (c : OPoICache) :
    PassPreserved env height (SameMajorities c) := by
  refine .of_votes (fun h _ => h.quiet) (fun c r h => ?_) fun c key h => ?_
  · rcases resolveAuditors_cases env c r with hEq | ⟨majority, _, _, _, _, hEq⟩
    · rw [hEq]
      exact h
    · obtain ⟨_, hCanary⟩ := resolveCanary_eq _ majority r
      rw [hEq, hCanary]
      exact ⟨fun key least => (majorityOf_resolve _ key least).trans (h.whole key least), h.shards⟩
  · rcases resolveShardAuditors_cases env c key with hEq | ⟨_, _, _, _, _, _, _, _, _, hEq⟩
    · rw [hEq]
      exact h
    · rw [hEq]
      exact ⟨h.whole, fun key least => (majorityOf_resolve _ key least).trans (h.shards key least)⟩

end SameMajorities

end Majority

end CloudService
