/-
  The shape of the execution graph of a model that spans several nodes: dense ranges that cover
  the layers, and for MoE models each expert once for every range.
-/

import CloudService.OPoI.Shard

namespace CloudService

open List

/-- Where range number `i` starts: the first ranges have one layer more. -/
def layerCut (numLayers numShards i : Nat) : Nat :=
  numLayers / numShards * i + min i (numLayers % numShards)

/-- The number of layers of a node, zero for an empty or inverted range. -/
def ShardDescriptor.layers (d : ShardDescriptor) : Nat := d.layerEnd - d.layerStart

/-- The nodes of an execution graph without collapse. -/
def nodeCount (m : ModelManifest) : Nat :=
  m.numDenseShards + if m.isMoE then m.numDenseShards * m.numExperts else 0

/-- An expert node of a range. -/
def isExpertOf (range : ShardDescriptor) (e : Nat) (d : ShardDescriptor) : Bool :=
  d.shardType == .expert && d.layerStart == range.layerStart && d.layerEnd == range.layerEnd &&
    d.expertId == e

/-- The dense nodes come first and cut the layers into ranges of almost one length; the expert nodes
    are those of every range and every expert, once each. -/
structure GraphShape (m : ModelManifest) (g : List ShardDescriptor) : Prop where
  length : g.length = nodeCount m
  shardIndex : ∀ {i d}, g[i]? = some d → ShardDescriptor.shardIndex d = i
  types : ∀ {i d}, g[i]? = some d →
    (ShardDescriptor.shardType d = .dense ↔ i < m.numDenseShards)
  first : ∀ {d}, g[0]? = some d → ShardDescriptor.layerStart d = 0
  next : ∀ {i d d'}, i + 1 < m.numDenseShards → g[i]? = some d → g[i + 1]? = some d' →
    ShardDescriptor.layerStart d' = ShardDescriptor.layerEnd d
  last : ∀ {d}, g[m.numDenseShards - 1]? = some d → ShardDescriptor.layerEnd d = m.numLayers
  sizes : ∀ {i j d d'}, i ≤ j → j < m.numDenseShards → g[i]? = some d → g[j]? = some d' →
    0 < ShardDescriptor.layers d' ∧ d'.layers ≤ ShardDescriptor.layers d ∧ d.layers ≤ d'.layers + 1
  bounds : ∀ d ∈ g, d.shardType = .expert → isExpertShardWithinManifestBounds d m = true
  once : m.isMoE = true → ∀ {i d e}, i < m.numDenseShards → e < m.numExperts → g[i]? = some d →
    g.countP (isExpertOf d e) = 1

section Ranges

variable {numLayers numShards : Nat}

theorem splitLayerRangesFrom_eq (base remainder i count : Nat) :
    splitLayerRangesFrom base remainder i (base * i + min i remainder) count =
      (List.range' i count).map fun k =>
        (base * k + min k remainder, base * (k + 1) + min (k + 1) remainder) := by
  induction count generalizing i with
  | zero => rfl
  | succ count ih =>
    -- the next range starts where this one ends
    have hNext : base * i + min i remainder + (base + if i < remainder then 1 else 0) =
        base * (i + 1) + min (i + 1) remainder := by
      rw [Nat.mul_succ]
      split
      · omega
      · omega
    rw [splitLayerRangesFrom, range'_succ, map_cons]
    simp only [hNext, ih]

theorem splitLayerRanges_eq (numLayers numShards : Nat) :
    splitLayerRanges numLayers numShards = (List.range numShards).map fun k =>
      (layerCut numLayers numShards k, layerCut numLayers numShards (k + 1)) := by
  have hFrom := splitLayerRangesFrom_eq (numLayers / numShards) (numLayers % numShards) 0 numShards
  rw [Nat.mul_zero, Nat.zero_min, Nat.add_zero] at hFrom
  rw [splitLayerRanges, hFrom, range_eq_range']
  rfl

theorem layerCut_zero : layerCut numLayers numShards 0 = 0 := by simp [layerCut]

theorem layerCut_last (h : 0 < numShards) : layerCut numLayers numShards numShards = numLayers := by
  have hMod := Nat.mod_lt numLayers h
  rw [layerCut, Nat.min_eq_right (by omega), Nat.mul_comm]
  exact Nat.div_add_mod numLayers numShards

theorem layerCut_succ (i : Nat) : layerCut numLayers numShards (i + 1) =
    layerCut numLayers numShards i + numLayers / numShards +
      if i < numLayers % numShards then 1 else 0 := by
  unfold layerCut
  rw [Nat.mul_succ]
  split
  · omega
  · omega

theorem layerCut_strictMono (h : 0 < numShards) (hLe : numShards ≤ numLayers) :
    StrictMono (layerCut numLayers numShards) := by
  refine strictMono_nat_of_lt_succ fun i => ?_
  have hBase := Nat.div_pos hLe h
  rw [layerCut_succ]
  omega

end Ranges

section Nodes

variable {m : ModelManifest} {i : Nat} {d d' : ShardDescriptor}

/-- A node of range `i`, before it is numbered. -/
def rangeNode (m : ModelManifest) (shardType : ShardType) (i e : Nat) : ShardDescriptor :=
  { shardIndex := 0, shardType := shardType
    layerStart := layerCut m.numLayers m.numDenseShards i
    layerEnd := layerCut m.numLayers m.numDenseShards (i + 1), expertId := e }

def expertNodes (m : ModelManifest) : List ShardDescriptor :=
  if m.isMoE then
    (List.range m.numDenseShards).flatMap fun i =>
      (List.range m.numExperts).map (rangeNode m .expert i)
  else []

theorem buildModelExecutionGraph_eq (h : 0 < m.numDenseShards)
    (hLe : m.numDenseShards ≤ m.numLayers) :
    buildModelExecutionGraph m false =
      numberShards ((List.range m.numDenseShards).map (rangeNode m .dense · 0) ++
        expertNodes m) := by
  unfold buildModelExecutionGraph expertNodes
  rw [if_neg (by omega), if_neg Bool.false_ne_true]
  cases m.isMoE with
  | true =>
    simp only [if_true, if_pos h, splitLayerRanges_eq, map_map, flatMap_map]
    rfl
  | false =>
    simp only [Bool.false_eq_true, if_false, splitLayerRanges_eq, map_map, append_nil]
    rfl

theorem mem_expertNodes : d ∈ expertNodes m ↔ m.isMoE = true ∧
    ∃ i < m.numDenseShards, ∃ e < m.numExperts, d = rangeNode m .expert i e := by
  unfold expertNodes
  split
  · next hMoE => simp [hMoE, eq_comm]
  · next hMoE => simp [hMoE]

theorem length_nodes : ((List.range m.numDenseShards).map (rangeNode m .dense · 0) ++
    expertNodes m).length = nodeCount m := by
  unfold expertNodes nodeCount
  split
  · simp [length_flatMap]
  · simp

theorem countP_expertNodes (h : 0 < m.numDenseShards) (hLe : m.numDenseShards ≤ m.numLayers)
    (hMoE : m.isMoE = true) (hi : i < m.numDenseShards) {e : Nat} (he : e < m.numExperts) :
    (expertNodes m).countP (isExpertOf (rangeNode m .dense i 0) e) = 1 := by
  -- The node is the only one of its kind, and no node is in the list twice.
  have hInj := (layerCut_strictMono h hLe).injective
  have hNodup : (expertNodes m).Nodup := by
    rw [expertNodes, if_pos hMoE, nodup_flatMap]
    constructor
    · exact fun i _ => nodup_range.map fun e e' hEq => congrArg ShardDescriptor.expertId hEq
    · refine nodup_range.imp fun {i i'} hNe => ?_
      intro d hd hd'
      obtain ⟨e, _, rfl⟩ := mem_map.mp hd
      obtain ⟨e', _, hEq⟩ := mem_map.mp hd'
      exact hNe (hInj (congrArg ShardDescriptor.layerStart hEq)).symm
  have hOnly : ∀ d ∈ expertNodes m, isExpertOf (rangeNode m .dense i 0) e d = true ↔
      (d == rangeNode m .expert i e) = true := by
    intro d hd
    obtain ⟨_, i', _, e', _, rfl⟩ := mem_expertNodes.mp hd
    simp only [isExpertOf, rangeNode, beq_self_eq_true, Bool.true_and, Bool.and_eq_true,
      beq_iff_eq, hInj.eq_iff, ShardDescriptor.mk.injEq, Nat.add_right_cancel_iff]
    tauto
  rw [countP_congr hOnly]
  exact count_eq_one_of_mem hNodup (mem_expertNodes.mpr ⟨hMoE, i, hi, e, he, rfl⟩)

theorem getElem?_numberShards {nodes : List ShardDescriptor}
    (h : (numberShards nodes)[i]? = some d) :
    ∃ node, nodes[i]? = some node ∧ d = { node with shardIndex := u32 i } := by
  rw [numberShards, getElem?_mapIdx] at h
  obtain ⟨node, hNode, rfl⟩ := Option.map_eq_some_iff.mp h
  exact ⟨node, hNode, rfl⟩

theorem countP_numberShards {p : ShardDescriptor → Bool} (nodes : List ShardDescriptor)
    (hp : ∀ d i, p { d with shardIndex := i } = p d) :
    (numberShards nodes).countP p = nodes.countP p := by
  have hMap : (numberShards nodes).map p = nodes.map p := by
    refine ext_getElem? fun i => ?_
    simp only [numberShards, getElem?_map, getElem?_mapIdx, Option.map_map, Function.comp_def, hp]
  have hCount : ∀ l : List ShardDescriptor, l.countP p = (l.map p).countP id := fun l => by
    rw [countP_map, Function.id_comp]
  rw [hCount, hMap, ← hCount]

section Shape

variable (h : 0 < m.numDenseShards) (hLe : m.numDenseShards ≤ m.numLayers)

include h hLe

theorem denseNode_eq (hi : i < m.numDenseShards)
    (hd : (buildModelExecutionGraph m false)[i]? = some d) :
    d = { rangeNode m .dense i 0 with shardIndex := u32 i } := by
  rw [buildModelExecutionGraph_eq h hLe] at hd
  obtain ⟨node, hNode, rfl⟩ := getElem?_numberShards hd
  rw [getElem?_append_left (by simpa using hi)] at hNode
  simp only [getElem?_map, getElem?_range hi, Option.map_some, Option.some.injEq] at hNode
  rw [← hNode]

theorem expertNode_of (hi : m.numDenseShards ≤ i)
    (hd : (buildModelExecutionGraph m false)[i]? = some d) :
    ∃ r < m.numDenseShards, ∃ e < m.numExperts,
      d = { rangeNode m .expert r e with shardIndex := u32 i } := by
  rw [buildModelExecutionGraph_eq h hLe] at hd
  obtain ⟨node, hNode, rfl⟩ := getElem?_numberShards hd
  rw [getElem?_append_right (by simpa using hi)] at hNode
  obtain ⟨_, r, hr, e, he, rfl⟩ := mem_expertNodes.mp (mem_of_getElem? hNode)
  exact ⟨r, hr, e, he, rfl⟩

theorem layers_dense (hi : i < m.numDenseShards)
    (hd : (buildModelExecutionGraph m false)[i]? = some d) :
    d.layers = m.numLayers / m.numDenseShards +
      if i < m.numLayers % m.numDenseShards then 1 else 0 := by
  rw [denseNode_eq h hLe hi hd, ShardDescriptor.layers]
  simp only [rangeNode, layerCut_succ, Nat.add_assoc, Nat.add_sub_cancel_left]

/-- `BuildModelExecutionGraph` for every manifest that passes the checks of MODEL_REGISTER and whose
    nodes can be numbered with 32 bits. -/
theorem graphShape_of_registered (hCount : nodeCount m < 2 ^ 32) :
    GraphShape m (buildModelExecutionGraph m false) := by
  have hMono := layerCut_strictMono h hLe
  have hLength : (buildModelExecutionGraph m false).length = nodeCount m := by
    rw [buildModelExecutionGraph_eq h hLe, numberShards, length_mapIdx, length_nodes]
  -- No index wraps: the graph has fewer nodes than `uint32_t` has values.
  have hBound : ∀ {i d}, (buildModelExecutionGraph m false)[i]? = some d → u32 i = i := by
    intro i d hd
    obtain ⟨hLt, _⟩ := List.getElem?_eq_some_iff.mp hd
    exact Nat.mod_eq_of_lt (by omega)
  have hBase := Nat.div_pos hLe h
  exact
    { length := hLength
      shardIndex := by
        intro i d hd
        rcases Nat.lt_or_ge i m.numDenseShards with hi | hi
        · rw [denseNode_eq h hLe hi hd]
          exact hBound hd
        · obtain ⟨r, _, e, _, rfl⟩ := expertNode_of h hLe hi hd
          exact hBound hd
      types := by
        intro i d hd
        rcases Nat.lt_or_ge i m.numDenseShards with hi | hi
        · simp [denseNode_eq h hLe hi hd, rangeNode, hi]
        · obtain ⟨r, _, e, _, rfl⟩ := expertNode_of h hLe hi hd
          simp [rangeNode, hi]
      first := fun hd => by rw [denseNode_eq h hLe h hd]; exact layerCut_zero
      next := fun hi hd hd' => by
        rw [denseNode_eq h hLe (by omega) hd, denseNode_eq h hLe hi hd']
        rfl
      last := fun hd => by
        rw [denseNode_eq h hLe (by omega) hd]
        simp only [rangeNode, Nat.sub_add_cancel h]
        exact layerCut_last h
      sizes := by
        intro i j d d' hij hj hd hd'
        rw [layers_dense h hLe (by omega) hd, layers_dense h hLe hj hd']
        split <;> split <;> omega
      bounds := by
        intro d hd hType
        obtain ⟨i, hi⟩ := mem_iff_getElem?.mp hd
        rcases Nat.lt_or_ge i m.numDenseShards with hLt | hGe
        · rw [denseNode_eq h hLe hLt hi] at hType
          cases hType
        · obtain ⟨r, hr, e, he, rfl⟩ := expertNode_of h hLe hGe hi
          have hEnd : layerCut m.numLayers m.numDenseShards (r + 1) ≤ m.numLayers :=
            (hMono.monotone hr).trans_eq (layerCut_last h)
          simp [isExpertShardWithinManifestBounds, rangeNode, he, hEnd, hMono (Nat.lt_succ_self r)]
      once := by
        intro hMoE i d e hi he hd
        have hRange : isExpertOf d e = isExpertOf (rangeNode m .dense i 0) e := by
          rw [denseNode_eq h hLe hi hd]
          rfl
        rw [hRange, buildModelExecutionGraph_eq h hLe, countP_numberShards _ fun _ _ => rfl,
          countP_append]
        have hDense : ((List.range m.numDenseShards).map (rangeNode m .dense · 0)).countP
            (isExpertOf (rangeNode m .dense i 0) e) = 0 := by
          simp [countP_eq_zero, isExpertOf, rangeNode]
        rw [hDense, Nat.zero_add]
        exact countP_expertNodes h hLe hMoE hi he }

end Shape

end Nodes

/-- A MoE model with ten layers, three ranges and two experts. -/
def sampleMoE : ModelManifest :=
  { modelId := "moe", archType := OPOI_ARCH_MOE, totalParams := 1, activeParamsPerToken := 1
    numLayers := 10, numDenseShards := 3, numExperts := 2, topKExperts := 1, backbonePomRoot := 1
    expertPomRoots := [1, 2], minRewardPerToken := 0, totalSizeBytes := 1, proposer := "alice"
    proposedHeight := 1, voteWindowEndHeight := 1, activationHeight := 1, txHash := 1
    status := .active, shardTopologyHash := 0 }

theorem graphShape_of_sampleMoE :
    GraphShape sampleMoE (buildModelExecutionGraph sampleMoE false) ∧
      (buildModelExecutionGraph sampleMoE false).map (fun d => (d.layerStart, d.layerEnd)) =
        [(0, 4), (4, 7), (7, 10), (0, 4), (0, 4), (4, 7), (4, 7), (7, 10), (7, 10)] :=
  ⟨graphShape_of_registered (by decide) (by decide) (by decide), by decide⟩

end CloudService
