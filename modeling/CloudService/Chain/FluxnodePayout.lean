/-
  `FluxnodeCache::CheckFluxnodePayout` (`csnode/csnode.cpp`). One output can approve the
  payouts of several tiers.
-/

import CloudService.Consensus.Params

namespace CloudService

structure FluxnodePayoutInfo where
  script : CScript
  amount : CAmount
  approvedpayout : Bool := false
deriving DecidableEq

/-- The output that a payout asks for. -/
def FluxnodePayoutInfo.output (payout : FluxnodePayoutInfo) : CTxOut :=
  ⟨payout.amount, payout.script⟩

section CheckFluxnodePayout

variable (env : Env) (chainActive : List Uint256) (nHeight : Nat)

/-- `mapFluxnodePayouts`: the payouts of the tiers that have a next node. -/
def mapFluxnodePayouts : List FluxnodePayoutInfo :=
  [Tier.proton, .eletron, .neutron, .foton].filterMap fun tier =>
    (env.getNextPayment chainActive tier).map fun dest =>
      { script := getScriptForDestination dest, amount := env.getFluxnodeSubsidy nHeight tier }

/-- The body of the loop over the outputs, for one payout. -/
def approvePayout (out : CTxOut) (payout : FluxnodePayoutInfo) : FluxnodePayoutInfo :=
  if payout.approvedpayout = false ∧ out.scriptPubKey = payout.script ∧
      out.nValue = payout.amount then
    { payout with approvedpayout := true }
  else payout

def checkFluxnodePayout (coinbase : CTransaction) : Bool :=
  (coinbase.vout.foldl (fun payouts out => payouts.map (approvePayout out))
    (mapFluxnodePayouts env chainActive nHeight)).all (·.approvedpayout)

end CheckFluxnodePayout

section Spec

variable {env : Env} {chainActive : List Uint256} {nHeight : Nat} {coinbase : CTransaction}

theorem foldl_approvePayout (vout : List CTxOut) (payout : FluxnodePayoutInfo) :
    (vout.foldl (fun p out => approvePayout out p) payout).approvedpayout =
      (payout.approvedpayout || decide (payout.output ∈ vout)) := by
  induction vout generalizing payout with
  | nil => simp
  | cons out vout ih =>
    rw [List.foldl_cons, ih]
    unfold approvePayout
    split
    · rename_i hMatch
      have hEq : payout.output = out := by
        rw [FluxnodePayoutInfo.output, ← hMatch.2.1, ← hMatch.2.2]
      simp [hEq]
    · rename_i hOther
      have hNe : payout.approvedpayout = false → payout.output ≠ out := by
        rintro hOpen rfl
        exact hOther ⟨hOpen, rfl, rfl⟩
      cases hApproved : payout.approvedpayout with
      | true => simp
      | false => simp [hNe hApproved]

theorem foldl_map_approvePayout (vout : List CTxOut) (payouts : List FluxnodePayoutInfo) :
    vout.foldl (fun payouts out => payouts.map (approvePayout out)) payouts =
      payouts.map fun p => vout.foldl (fun p out => approvePayout out p) p := by
  induction vout generalizing payouts with
  | nil => simp
  | cons out vout ih =>
    rw [List.foldl_cons, ih, List.map_map]
    rfl

theorem checkFluxnodePayout_iff :
    checkFluxnodePayout env chainActive nHeight coinbase = true ↔
      ∀ payout ∈ mapFluxnodePayouts env chainActive nHeight, payout.output ∈ coinbase.vout := by
  have hFresh : ∀ payout ∈ mapFluxnodePayouts env chainActive nHeight,
      payout.approvedpayout = false := by
    intro payout hMem
    obtain ⟨tier, _, hTier⟩ := List.mem_filterMap.mp hMem
    obtain ⟨dest, _, rfl⟩ := Option.map_eq_some_iff.mp hTier
    rfl
  unfold checkFluxnodePayout
  rw [foldl_map_approvePayout, List.all_map, List.all_eq_true]
  refine forall₂_congr fun payout hMem => ?_
  simp [foldl_approvePayout, hFresh payout hMem]

end Spec

end CloudService
