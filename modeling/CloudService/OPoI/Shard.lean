/-
  The Model Execution Graph (`opoi/opoi_shard.h`) and the decisions that read it together with
  the stakes (`opoi.h`, `opoi.cpp`).
-/

import CloudService.OPoI.Cache

namespace CloudService

/-- `OPOI_SHARD_DENSE` and `OPOI_SHARD_EXPERT`. -/
inductive ShardType where
  | dense
  | expert
deriving Repr, DecidableEq

/-- `ShardDescriptor`: one node of the graph. -/
structure ShardDescriptor where
  shardIndex : Nat
  shardType : ShardType
  layerStart : Nat
  layerEnd : Nat
  expertId : Nat
deriving Repr, DecidableEq

/-- The loop of `SplitLayerRanges`, from range number `i` at `cursor`. -/
def splitLayerRangesFrom (base remainder : Nat) : Nat → Nat → Nat → List (Nat × Nat)
  | _, _, 0 => []
  | i, cursor, count + 1 =>
    let size := base + (if i < remainder then 1 else 0)
    (cursor, cursor + size) :: splitLayerRangesFrom base remainder (i + 1) (cursor + size) count

def splitLayerRanges (numLayers numShards : Nat) : List (Nat × Nat) :=
  splitLayerRangesFrom (numLayers / numShards) (numLayers % numShards) 0 0 numShards

/-- The nodes in graph order, numbered from zero (`shardIndex++`). -/
def numberShards (nodes : List ShardDescriptor) : List ShardDescriptor :=
  nodes.mapIdx fun i d => { d with shardIndex := u32 i }

def buildModelExecutionGraph (m : ModelManifest) (collapseToTitanSingleNode : Bool) :
    List ShardDescriptor :=
  if m.numLayers = 0 then []
  else if collapseToTitanSingleNode then
    [{ shardIndex := 0, shardType := .dense, layerStart := 0, layerEnd := m.numLayers,
       expertId := 0 }]
  else
    let denseOf (r : Nat × Nat) : ShardDescriptor :=
      { shardIndex := 0, shardType := .dense, layerStart := r.1, layerEnd := r.2, expertId := 0 }
    if m.isMoE then
      let ranges := splitLayerRanges m.numLayers (if 0 <
        m.numDenseShards then m.numDenseShards else 1)
      numberShards (ranges.map denseOf ++ ranges.flatMap fun r =>
        (List.range m.numExperts).map fun e =>
          { shardIndex := 0, shardType := .expert, layerStart := r.1, layerEnd := r.2,
            expertId := e })
    else numberShards ((splitLayerRanges m.numLayers m.numDenseShards).map denseOf)

def isExpertShardWithinManifestBounds (d : ShardDescriptor) (m : ModelManifest) : Bool :=
  decide (d.expertId < m.numExperts) && decide (d.layerEnd ≤ m.numLayers) &&
    decide (d.layerStart < d.layerEnd)

def isAuditorVerificationShardIndexValid (shardIndex : Nat) (m : ModelManifest)
    (collapseToTitanSingleNode : Bool) : Bool :=
  decide (shardIndex < (buildModelExecutionGraph m collapseToTitanSingleNode).length)

namespace OPoICache

variable (c : OPoICache) (params : Params)

def shouldCollapseToTitanSingleNode (m : ModelManifest) : Bool :=
  if m.archType ≠ OPOI_ARCH_DENSE ∨ m.numDenseShards ≤ 1 then false
  else if params.nOPoITitanOffloadThresholdGB = 0 then false
  else
    let thresholdBytes :=
      (params.nOPoITitanOffloadThresholdGB * 1073741824 % 18446744073709551616).toNat
    if m.totalSizeBytes = 0 ∨ m.totalSizeBytes ≤ thresholdBytes then false
    else c.hasActiveTitanStaker

/-- The graph of a manifest under the current stakes. -/
def executionGraph (m : ModelManifest) : List ShardDescriptor :=
  buildModelExecutionGraph m (c.shouldCollapseToTitanSingleNode params m)

/-- The manifest of a model, if it is registered and active. -/
def activeManifest (model : String) : Option ModelManifest :=
  match c.mapModelManifests[model]? with
  | some m => if m.isActive then some m else none
  | none => none

def getEffectiveShardMinSubmissions (req : OPoIRequest) (shardIndex : Nat) : Int :=
  let configuredMin := params.nOPoIShardMinSubmissions
  match c.activeManifest req.model with
  | none => configuredMin
  | some manifest =>
    match (c.executionGraph params manifest)[shardIndex]? with
    | none => configuredMin
    | some d =>
      let available : Nat :=
        if d.shardType = .expert then c.countActiveExpertHosts d.expertId
        else c.countActiveStakers
      if 0 < available ∧ (available : Int) < configuredMin then available else configuredMin

end OPoICache

end CloudService
