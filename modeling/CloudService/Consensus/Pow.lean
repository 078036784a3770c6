/-
  The target of the next block (`pow.cpp`, `arith_uint256.cpp`): the LWMA-3 average with its
  clamp, and the ramp of the ZelHash fork.

  An `arith_uint256` is a natural number, and its sums and products are reduced modulo
  `2 ^ 256`. Times, weights and solve times stay far below the limits of their types.
-/

import CloudService.Primitives.Types
import Mathlib.Algebra.Order.BigOperators.Group.List
import Mathlib.Tactic.Linarith
import Mathlib.Tactic.Ring

namespace CloudService

/-- The number of values of an `arith_uint256`. -/
def arithModulus : Nat := 2 ^ 256

/-- The part of a `CBlockIndex` that the difficulty reads. -/
structure PowIndex where
  nTime : Nat
  nBits : Nat
deriving Repr, DecidableEq

/-- The part of the chain parameters that the difficulty reads. The constructors assert that
    `powLimit` fits 17 times into 256 bits. -/
structure PowParams where
  powLimit : Nat
  nPowTargetSpacing : Nat
  nZawyLWMAAveragingWindow : Nat
  ehEpoch1End : Nat
  ehEpoch2End : Nat
  spacing_pos : 0 < nPowTargetSpacing := by decide
  window_pos : 0 < nZawyLWMAAveragingWindow := by decide
  powLimit_lt : powLimit * 17 < arithModulus := by decide
  epoch1_lt : ehEpoch1End < 2 ^ 63 := by decide
  epoch2_lt : ehEpoch2End < 2 ^ 63 := by decide

/-- `CMainParams`. Both forks are active from the genesis on and fade for 11 blocks. -/
def mainPowParams : PowParams where
  powLimit := 0x0f0f0f0f0f0f0f0f0f0f0f0f0f0f0f0f0f0f0f0f0f0f0f0f0f0f0f0f0f0f0f0f
  nPowTargetSpacing := 120
  nZawyLWMAAveragingWindow := 60
  ehEpoch1End := 10
  ehEpoch2End := 10

/-! ## Compact targets -/

/-- `base_uint::bits`. -/
def arithBits (n : Nat) : Nat := if n = 0 then 0 else n.log2 + 1

def setCompact (nCompact : Nat) : Nat :=
  let nSize := nCompact / 2 ^ 24
  let nWord := nCompact % 2 ^ 23
  if nSize ≤ 3 then nWord / 256 ^ (3 - nSize) else nWord * 256 ^ (nSize - 3) % arithModulus

/-- `arith_uint256::GetCompact`. A mantissa with the sign bit set gives up its last byte. -/
def getCompact (n : Nat) : Nat :=
  let nSize := (arithBits n + 7) / 8
  let nCompact := if nSize ≤ 3 then n * 256 ^ (3 - nSize) else n / 256 ^ (nSize - 3)
  if nCompact.testBit 23 then nCompact / 256 + (nSize + 1) * 2 ^ 24
  else nCompact + nSize * 2 ^ 24

theorem lt_pow_arithBits (n : Nat) : n < 2 ^ arithBits n := by
  unfold arithBits
  split
  · omega
  · exact Nat.lt_log2_self

theorem mantissa_lt (n : Nat) :
    (if (arithBits n + 7) / 8 ≤ 3 then n * 256 ^ (3 - (arithBits n + 7) / 8)
      else n / 256 ^ ((arithBits n + 7) / 8 - 3)) < 2 ^ 24 := by
  have hBytes : n < 256 ^ ((arithBits n + 7) / 8) := by
    refine (lt_pow_arithBits n).trans_le ?_
    rw [show 256 = 2 ^ 8 by rfl, ← Nat.pow_mul]
    exact Nat.pow_le_pow_right (by decide) (by omega)
  generalize (arithBits n + 7) / 8 = nSize at hBytes
  split
  · rename_i hSmall
    calc n * 256 ^ (3 - nSize) < 256 ^ nSize * 256 ^ (3 - nSize) :=
          Nat.mul_lt_mul_of_pos_right hBytes (Nat.pow_pos (by decide))
      _ = 2 ^ 24 := by
          rw [← Nat.pow_add, show nSize + (3 - nSize) = 3 by omega]
          rfl
  · rw [Nat.div_lt_iff_lt_mul (Nat.pow_pos (by decide)), show 2 ^ 24 = 256 ^ 3 by rfl,
      ← Nat.pow_add, show 3 + (nSize - 3) = nSize by omega]
    exact hBytes

theorem setCompact_pack {m size : Nat} (hm : m < 2 ^ 23) :
    setCompact (m + size * 2 ^ 24) =
      if size ≤ 3 then m / 256 ^ (3 - size) else m * 256 ^ (size - 3) % arithModulus := by
  have hSize : (m + size * 2 ^ 24) / 2 ^ 24 = size := by omega
  have hWord : (m + size * 2 ^ 24) % 2 ^ 23 = m := by omega
  unfold setCompact
  rw [hSize, hWord]

theorem setCompact_getCompact_le (n : Nat) : setCompact (getCompact n) ≤ n := by
  have hMantissa := mantissa_lt n
  unfold getCompact
  generalize (arithBits n + 7) / 8 = nSize at hMantissa ⊢
  have hPos : ∀ e, 0 < 256 ^ e := fun e => Nat.pow_pos (by decide)
  have hTop : ∀ x e : Nat, x / 256 ^ e * 256 ^ e % arithModulus ≤ x := fun x e =>
    (Nat.mod_le _ _).trans (Nat.div_mul_le_self x _)
  have hClear : ∀ m : Nat, m < 2 ^ 24 → ¬m.testBit 23 = true → m < 2 ^ 23 := fun m hm hBit => by
    rw [Nat.testBit_eq_decide_div_mod_eq, decide_eq_true_eq] at hBit
    omega
  by_cases hSmall : nSize ≤ 3
  · simp only [if_pos hSmall] at hMantissa ⊢
    split
    · rw [setCompact_pack (by omega)]
      by_cases hThree : nSize = 3
      · subst hThree
        simpa using hTop n 1
      · rw [if_pos (by omega), Nat.div_div_eq_div_mul, ← Nat.pow_succ',
          show (3 - (nSize + 1)).succ = 3 - nSize by omega, Nat.mul_div_cancel _ (hPos _)]
    · rename_i hBit
      rw [setCompact_pack (hClear _ hMantissa hBit), if_pos hSmall, Nat.mul_div_cancel _ (hPos _)]
  · simp only [if_neg hSmall] at hMantissa ⊢
    split
    · rw [setCompact_pack (by omega), if_neg (by omega), Nat.div_div_eq_div_mul, ← Nat.pow_succ,
        show (nSize - 3).succ = nSize + 1 - 3 by omega]
      exact hTop _ _
    · rename_i hBit
      rw [setCompact_pack (hClear _ hMantissa hBit), if_neg hSmall]
      exact hTop _ _

/-! ## LWMA-3 -/

/-- The variables of the loop of `Lwma3CalculateNextWorkRequired`. The source sets
    `previousDiff` in the last turn only. -/
structure Lwma3Loop where
  previousTimestamp : Nat
  j : Nat := 0
  t : Nat := 0
  sumTarget : Nat := 0
  previousDiff : Nat := 0

section Lwma3

variable (p : PowParams) (chain : List PowIndex)

/-- `k = N * (N + 1) * T / 2`, the weighted solve time that is aimed at. -/
def PowParams.k : Nat :=
  p.nZawyLWMAAveragingWindow * (p.nZawyLWMAAveragingWindow + 1) * p.nPowTargetSpacing / 2

/-- What a block adds to the sum of targets. -/
def PowParams.part (block : PowIndex) : Nat :=
  setCompact block.nBits / (p.k * p.nZawyLWMAAveragingWindow)

def lwma3Turn (st : Lwma3Loop) (block : PowIndex) : Lwma3Loop :=
  let thisTimestamp :=
    if st.previousTimestamp < block.nTime then block.nTime else st.previousTimestamp + 1
  let solvetime := min (6 * p.nPowTargetSpacing) (thisTimestamp - st.previousTimestamp)
  { previousTimestamp := thisTimestamp
    j := st.j + 1
    t := st.t + solvetime * (st.j + 1)
    sumTarget := (st.sumTarget + p.part block) % arithModulus
    previousDiff := setCompact block.nBits }

/-- The blocks of the averaging window. -/
def lwma3Window : List PowIndex := chain.drop (chain.length - p.nZawyLWMAAveragingWindow)

/-- The loop, from the time of the block before the window on. -/
def lwma3Loop : Lwma3Loop :=
  (lwma3Window p chain).foldl (lwma3Turn p)
    { previousTimestamp :=
        (chain[chain.length - 1 - p.nZawyLWMAAveragingWindow]?.map PowIndex.nTime).getD 0 }

/-- The target of `Lwma3CalculateNextWorkRequired` for the block after a chain. -/
def lwma3Target : Nat :=
  if chain.length - 1 < p.nZawyLWMAAveragingWindow then p.powLimit
  else
    let st := lwma3Loop p chain
    let nextTarget := st.t * st.sumTarget % arithModulus
    let most := st.previousDiff * 150 % arithModulus / 100
    let nextTarget := if most < nextTarget then most else nextTarget
    let least := st.previousDiff * 67 % arithModulus / 100
    let nextTarget := if nextTarget < least then least else nextTarget
    if p.powLimit < nextTarget then p.powLimit else nextTarget

def lwma3CalculateNextWorkRequired : Nat := getCompact (lwma3Target p chain)

/-- The target of the last block. -/
def previousTarget : Nat := (chain.getLast?.map fun b => setCompact b.nBits).getD 0

/-- The sums and products of the computation, without the reduction, are below `2 ^ 256`. -/
structure Lwma3InRange : Prop where
  sums : ∀ part, part <+: lwma3Window p chain → (part.map p.part).sum < arithModulus
  product : (lwma3Loop p chain).t * ((lwma3Window p chain).map p.part).sum < arithModulus
  most : previousTarget chain * 150 < arithModulus
  least : previousTarget chain * 67 < arithModulus

/-- The next target is between 67% and 150% of the last one. -/
structure Lwma3Clamped : Prop where
  least : previousTarget chain * 67 / 100 ≤ lwma3Target p chain
  most : lwma3Target p chain ≤ previousTarget chain * 150 / 100

end Lwma3

section Spec

variable {p : PowParams}

theorem foldl_lwma3Turn (p : PowParams) (window : List PowIndex) (st : Lwma3Loop)
    (hTime : st.t * 2 ≤ 6 * p.nPowTargetSpacing * (st.j * (st.j + 1))) :
    (window.foldl (lwma3Turn p) st).t * 2 ≤
        6 * p.nPowTargetSpacing * ((st.j + window.length) * (st.j + window.length + 1)) ∧
      (window.foldl (lwma3Turn p) st).previousDiff =
        (window.getLast?.map fun b => setCompact b.nBits).getD st.previousDiff := by
  induction window generalizing st with
  | nil => exact ⟨hTime, rfl⟩
  | cons block window ih =>
    have hTurn : (lwma3Turn p st block).t * 2 ≤
        6 * p.nPowTargetSpacing * ((st.j + 1) * (st.j + 1 + 1)) := by
      -- a solve time counts for six spacings at most
      have hSolve : (lwma3Turn p st block).t ≤ st.t + 6 * p.nPowTargetSpacing * (st.j + 1) :=
        Nat.add_le_add_left (Nat.mul_le_mul_right _ (Nat.min_le_left _ _)) _
      nlinarith
    obtain ⟨hT, hLast⟩ := ih (lwma3Turn p st block) hTurn
    constructor
    · simpa [lwma3Turn, Nat.add_assoc, Nat.add_comm 1] using hT
    · rw [List.foldl_cons, hLast, List.getLast?_cons]
      cases window.getLast? <;> rfl

theorem lwma3Loop_spec (p : PowParams) (chain : List PowIndex)
    (hLong : p.nZawyLWMAAveragingWindow < chain.length) :
    (lwma3Loop p chain).t ≤ 6 * p.k ∧
      (lwma3Loop p chain).previousDiff = previousTarget chain := by
  obtain ⟨hT, hLast⟩ := foldl_lwma3Turn p (lwma3Window p chain) { previousTimestamp :=
    (chain[chain.length - 1 - p.nZawyLWMAAveragingWindow]?.map PowIndex.nTime).getD 0 } (by simp)
  have hLength : (lwma3Window p chain).length = p.nZawyLWMAAveragingWindow := by
    simp [lwma3Window]
    omega
  have hWindow := p.window_pos
  constructor
  · have hEven : 2 ∣ p.nZawyLWMAAveragingWindow * (p.nZawyLWMAAveragingWindow + 1) *
        p.nPowTargetSpacing :=
      Dvd.dvd.mul_right (Nat.even_mul_succ_self _).two_dvd _
    have hK : p.k * 2 = p.nZawyLWMAAveragingWindow * (p.nZawyLWMAAveragingWindow + 1) *
        p.nPowTargetSpacing := Nat.div_mul_cancel hEven
    rw [hLength, Nat.zero_add] at hT
    change (lwma3Loop p chain).t * 2 ≤ _ at hT
    nlinarith
  · refine hLast.trans ?_
    rw [previousTarget, lwma3Window, List.getLast?_drop, if_neg (by omega)]

theorem PowParams.k_pos (p : PowParams) : 0 < p.k := by
  have hWindow := p.window_pos
  have hSpacing := p.spacing_pos
  refine Nat.div_pos ?_ (by decide)
  exact Nat.mul_le_mul (Nat.mul_le_mul hWindow (Nat.succ_le_succ hWindow)) hSpacing

theorem sum_part_le {blocks : List PowIndex} (hLength : blocks.length ≤ p.nZawyLWMAAveragingWindow)
    (hTargets : ∀ b ∈ blocks, setCompact b.nBits ≤ p.powLimit) :
    p.k * (blocks.map p.part).sum ≤ p.powLimit := by
  have hSum : (blocks.map p.part).sum ≤
      p.nZawyLWMAAveragingWindow * (p.powLimit / (p.k * p.nZawyLWMAAveragingWindow)) := by
    refine (List.sum_le_card_nsmul _ _ fun x hx => ?_).trans (Nat.mul_le_mul_right _ ?_)
    · obtain ⟨b, hb, rfl⟩ := List.mem_map.mp hx
      exact Nat.div_le_div_right (hTargets b hb)
    · rwa [List.length_map]
  calc p.k * (blocks.map p.part).sum
      ≤ p.k * (p.nZawyLWMAAveragingWindow *
          (p.powLimit / (p.k * p.nZawyLWMAAveragingWindow))) := Nat.mul_le_mul_left _ hSum
    _ ≤ p.powLimit := by
        rw [← Nat.mul_assoc]
        exact Nat.mul_div_le _ _

end Spec

/-- On a chain that is longer than the window and whose targets are within the limit, the next
    target keeps to its clamp and no sum or product exceeds 256 bits exactly when 150 times the
    target of the last block is below `2 ^ 256`. -/
theorem lwma3_clamped_iff (p : PowParams) (chain : List PowIndex)
    (hLong : p.nZawyLWMAAveragingWindow ≤ chain.length - 1)
    (hTargets : ∀ b ∈ chain, 1 ≤ setCompact b.nBits ∧ setCompact b.nBits ≤ p.powLimit) :
    Lwma3Clamped p chain ∧ Lwma3InRange p chain ↔ previousTarget chain * 150 < arithModulus := by
  refine ⟨fun h => h.2.most, fun hMost => ?_⟩
  have hWindow := p.window_pos
  have hLimit := p.powLimit_lt
  obtain ⟨hT, hLast⟩ := lwma3Loop_spec p chain (by omega)
  have hParts : ∀ part, part <+: lwma3Window p chain → p.k * (part.map p.part).sum ≤
    p.powLimit := by
    intro part hPrefix
    refine sum_part_le (hPrefix.length_le.trans ?_) fun b hb =>
      (hTargets b (List.mem_of_mem_drop (hPrefix.subset hb))).2
    rw [lwma3Window, List.length_drop]
    omega
  have hAll := hParts _ (List.prefix_refl _)
  have hProduct : (lwma3Loop p chain).t * ((lwma3Window p chain).map p.part).sum < arithModulus :=
    (Nat.mul_le_mul_right _ hT).trans_lt (by rw [Nat.mul_assoc]; omega)
  refine ⟨?_, ⟨fun part hPrefix => ?_, hProduct, hMost, by omega⟩⟩
  · have hPrevious : previousTarget chain ≤ p.powLimit := by
      unfold previousTarget
      cases hEnd : chain.getLast? with
      | none => exact Nat.zero_le _
      | some b => exact (hTargets b (List.mem_of_getLast? hEnd)).2
    have hTarget : lwma3Target p chain = _ := if_neg (show ¬chain.length - 1 < _ by omega)
    dsimp only at hTarget
    rw [hLast, Nat.mod_eq_of_lt hMost, Nat.mod_eq_of_lt (show previousTarget chain * 67 <
      _ by omega)]
      at hTarget
    constructor
    · rw [hTarget]
      split_ifs <;> omega
    · rw [hTarget]
      split_ifs <;> omega
  · have hOne := Nat.mul_le_mul_right (part.map p.part).sum p.k_pos
    have hPart := hParts part hPrefix
    omega

/-- Blocks at the aimed spacing. -/
def sampleIndexes (count nBits : Nat) : List PowIndex :=
  (List.range count).map fun i => ⟨120 * i, nBits⟩

theorem lwma3_clamped_of_low_target :
    previousTarget (sampleIndexes 61 0x1d00ffff) = 0xffff * 256 ^ 26 ∧
      Lwma3Clamped mainPowParams (sampleIndexes 61 0x1d00ffff) :=
  ⟨by decide +kernel,
    ((lwma3_clamped_iff mainPowParams (sampleIndexes 61 0x1d00ffff) (by decide)
      (by decide +kernel)).mpr (by decide +kernel)).1⟩

/-- Blocks at the limit and at the aimed spacing: the products with 150 and 67 wrap, and the next
    target falls to less than a fifth of the last one. -/
theorem not_lwma3_clamped_at_powLimit :
    (∀ b ∈ sampleIndexes 61 0x200f0f0f, 1 ≤ setCompact b.nBits ∧
      setCompact b.nBits ≤ mainPowParams.powLimit) ∧
    lwma3Target mainPowParams (sampleIndexes 61 0x200f0f0f) * 5 <
      previousTarget (sampleIndexes 61 0x200f0f0f) ∧
    ¬Lwma3Clamped mainPowParams (sampleIndexes 61 0x200f0f0f) := by
  refine ⟨by decide +kernel, by decide +kernel, fun h => absurd h.least (by decide +kernel)⟩

section Ramp

variable (p : PowParams)

/-- `nHeight > end - 1`, in unsigned 64-bit arithmetic. -/
def pastEpoch (epochEnd nHeight : Nat) : Bool := decide ((epochEnd + 2 ^ 64 - 1) % 2 ^ 64 < nHeight)

/-- The window after the first fork, in which the difficulty is reset. -/
def inResetWindow (nHeight : Nat) : Bool :=
  pastEpoch p.ehEpoch1End nHeight && decide (nHeight < p.ehEpoch1End + 61)

/-- The heights at which `GetNextWorkRequired` takes the ZelHash branch. -/
def takesRamp (nHeight : Nat) : Bool :=
  !inResetWindow p nHeight && (pastEpoch p.ehEpoch2End nHeight &&
    decide (nHeight < p.ehEpoch2End + 64))

/-- `eh_epoch_2_end() + 61 - nHeight`, an `unsigned long` that is narrowed to `uint32_t`. -/
def rampMultiplier (nHeight : Nat) : Nat := u32 ((p.ehEpoch2End + 61 + 2 ^ 64 - nHeight) % 2 ^ 64)

/-- The target of the ZelHash branch, from the LWMA-3 target. -/
def rampTarget (nHeight fullTarget : Nat) : Nat :=
  let targetStep := fullTarget / 2 ^ 5 * rampMultiplier p nHeight % arithModulus
  let fullTarget := (fullTarget + targetStep) % arithModulus
  if p.powLimit < fullTarget then p.powLimit else fullTarget

/-- `GetNextWorkRequired`, with the algorithms outside the windows of the forks as a parameter. -/
def getNextWorkRequired (regular : List PowIndex → Nat) (chain : List PowIndex) : Nat :=
  if chain = [] ∨ inResetWindow p (chain.length - 1) = true then getCompact p.powLimit
  else if takesRamp p (chain.length - 1) then
    getCompact (rampTarget p (chain.length - 1)
      (setCompact (lwma3CalculateNextWorkRequired p chain)))
  else regular chain

/-- The ramp at a height only eases the LWMA-3 target, up to three times of it and to the limit,
    and its multiplier is not above the one of any earlier height of the ramp. -/
structure RampEases (nHeight lwma3 : Nat) : Prop where
  least : lwma3 ≤ rampTarget p nHeight lwma3
  most : rampTarget p nHeight lwma3 ≤ min p.powLimit (3 * lwma3)
  falling : ∀ earlier ≤ nHeight, takesRamp p earlier = true →
    rampMultiplier p nHeight ≤ rampMultiplier p earlier

end Ramp

section Spec

variable {p : PowParams} {nHeight : Nat}

theorem pastEpoch_iff {epochEnd : Nat} (hEnd : epochEnd < 2 ^ 63) (hHeight : nHeight < 2 ^ 31) :
    pastEpoch epochEnd nHeight = true ↔ 1 ≤ epochEnd ∧ epochEnd ≤ nHeight := by
  rw [pastEpoch, decide_eq_true_eq]
  omega

theorem takesRamp_iff (hHeight : nHeight < 2 ^ 31) :
    takesRamp p nHeight = true ↔ ¬(1 ≤ p.ehEpoch1End ∧ p.ehEpoch1End ≤ nHeight ∧
        nHeight < p.ehEpoch1End + 61) ∧ 1 ≤ p.ehEpoch2End ∧ p.ehEpoch2End ≤ nHeight ∧
      nHeight < p.ehEpoch2End + 64 := by
  simp only [takesRamp, inResetWindow, Bool.and_eq_true, Bool.not_eq_true', ← Bool.not_eq_true,
    pastEpoch_iff p.epoch1_lt hHeight, pastEpoch_iff p.epoch2_lt hHeight, decide_eq_true_eq,
    and_assoc]

theorem rampMultiplier_of_le (hFirst : p.ehEpoch2End ≤ nHeight)
    (hLast : nHeight ≤ p.ehEpoch2End + 61) :
    rampMultiplier p nHeight = p.ehEpoch2End + 61 - nHeight := by
  unfold rampMultiplier u32
  omega

theorem rampMultiplier_of_gt (hFirst : p.ehEpoch2End + 61 < nHeight)
    (hLast : nHeight < p.ehEpoch2End + 64) : 61 < rampMultiplier p nHeight := by
  unfold rampMultiplier u32
  omega

theorem lwma3Target_le (p : PowParams) (chain : List PowIndex) :
    lwma3Target p chain ≤ p.powLimit := by
  have hCap : ∀ x, (if p.powLimit < x then p.powLimit else x) ≤ p.powLimit := fun x => by
    split <;> omega
  unfold lwma3Target
  split
  · exact Nat.le_refl _
  · exact hCap _

end Spec

/-- For every chain at which `GetNextWorkRequired` takes the ZelHash branch, it returns the target
    of the ramp, and the ramp eases the LWMA-3 target up to the height `eh_epoch_2_end() + 61`
    only. -/
theorem ramp_eases_iff (p : PowParams) (regular : List PowIndex → Nat) (chain : List PowIndex)
    (hChain : chain ≠ []) (hHeight : chain.length - 1 < 2 ^ 31)
    (hTakes : takesRamp p (chain.length - 1) = true) :
    getNextWorkRequired p regular chain = getCompact (rampTarget p (chain.length - 1)
        (setCompact (lwma3CalculateNextWorkRequired p chain))) ∧
      (RampEases p (chain.length - 1) (setCompact (lwma3CalculateNextWorkRequired p chain)) ↔
        chain.length - 1 ≤ p.ehEpoch2End + 61) := by
  have hLwma3 : setCompact (lwma3CalculateNextWorkRequired p chain) ≤ p.powLimit :=
    (setCompact_getCompact_le _).trans (lwma3Target_le p chain)
  have hReturns : getNextWorkRequired p regular chain = getCompact (rampTarget p (chain.length - 1)
      (setCompact (lwma3CalculateNextWorkRequired p chain))) := by
    have hNoReset : inResetWindow p (chain.length - 1) = false := by
      simp only [takesRamp, Bool.and_eq_true, Bool.not_eq_true'] at hTakes
      exact hTakes.1
    rw [getNextWorkRequired, if_neg (by simp [hChain, hNoReset]), if_pos hTakes]
  refine ⟨hReturns, ?_⟩
  generalize setCompact (lwma3CalculateNextWorkRequired p chain) = lwma3 at hLwma3 ⊢
  generalize chain.length - 1 = nHeight at hHeight hTakes ⊢
  have hTaken := (takesRamp_iff hHeight).mp hTakes
  have hLimit := p.powLimit_lt
  constructor
  · intro h
    by_contra hLate
    have hHere := rampMultiplier_of_gt (p := p) (by omega) hTaken.2.2.2
    -- the reset covers 61 heights, so the ramp has started at one of 62 heights before
    by_cases hFirst : p.ehEpoch1End = 0 ∨ p.ehEpoch2End < p.ehEpoch1End
    · have hEarly := h.falling p.ehEpoch2End (by omega) ((takesRamp_iff (by omega)).mpr (by omega))
      have hThen : rampMultiplier p p.ehEpoch2End = _ := rampMultiplier_of_le (by omega) (by omega)
      omega
    · have hEarly := h.falling (p.ehEpoch2End + 61) (by omega)
        ((takesRamp_iff (by omega)).mpr (by omega))
      have hThen : rampMultiplier p (p.ehEpoch2End + 61) = _ :=
        rampMultiplier_of_le (by omega) (by omega)
      omega
  · intro hEarly
    have hNow := rampMultiplier_of_le (p := p) (by omega) hEarly
    have hStep : lwma3 / 2 ^ 5 * rampMultiplier p nHeight ≤ 2 * lwma3 := by
      have hMul : lwma3 / 2 ^ 5 * rampMultiplier p nHeight ≤ lwma3 / 2 ^ 5 * 61 :=
        Nat.mul_le_mul_left _ (by omega)
      omega
    have hTarget : rampTarget p nHeight lwma3 =
        min p.powLimit (lwma3 + lwma3 / 2 ^ 5 * rampMultiplier p nHeight) := by
      unfold rampTarget
      dsimp only
      rw [Nat.mod_eq_of_lt (show lwma3 / 2 ^ 5 * rampMultiplier p nHeight < _ by omega),
        Nat.mod_eq_of_lt (show lwma3 + lwma3 / 2 ^ 5 * rampMultiplier p nHeight < _ by omega)]
      split <;> omega
    refine ⟨by omega, by omega, fun earlier hLe hRamp => ?_⟩
    have hThen := (takesRamp_iff (by omega)).mp hRamp
    rw [hNow, rampMultiplier_of_le (by omega) (by omega)]
    omega

theorem ramp_eases_at_end :
    takesRamp mainPowParams 71 = true ∧
      RampEases mainPowParams 71 (setCompact (lwma3CalculateNextWorkRequired mainPowParams
        (sampleIndexes 72 0x1d00ffff))) :=
  ⟨by decide, ((ramp_eases_iff mainPowParams (fun _ => 0) (sampleIndexes 72 0x1d00ffff) (by decide)
    (by decide) (by decide)).2.mpr (by decide))⟩

/-- One block later the multiplier wraps to `2 ^ 32 - 1`. -/
theorem not_ramp_eases_after_end :
    takesRamp mainPowParams 72 = true ∧ rampMultiplier mainPowParams 72 = 4294967295 ∧
      3 * setCompact (lwma3CalculateNextWorkRequired mainPowParams (sampleIndexes 73 0x1d00ffff)) <
        rampTarget mainPowParams 72 (setCompact (lwma3CalculateNextWorkRequired mainPowParams
          (sampleIndexes 73 0x1d00ffff))) :=
  ⟨by decide, by decide, by decide +kernel⟩

end CloudService
