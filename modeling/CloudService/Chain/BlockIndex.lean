/-
  The tree of block index entries and the active chain (`chain.h`, `chain.cpp`): `GetAncestor`
  walks over skip pointers that `BuildSkip` set with `GetAncestor` itself, and `SetTip` stops
  at the first entry that is in place already.
-/

import Mathlib.Data.List.Induction
import Mathlib.Logic.Relation

namespace CloudService.ActiveChain

def invertLowestOne (n : Nat) : Nat := n &&& (n - 1)

/-- The height that the skip pointer of an entry leads to. -/
def getSkipHeight (height : Nat) : Nat :=
  if height < 2 then 0
  else if height &&& 1 ≠ 0 then invertLowestOne (invertLowestOne (height - 1)) + 1
  else invertLowestOne height

/-- `CBlockIndex`, with addresses of type `P` as pointers. -/
structure CBlockIndex (P : Type) where
  nHeight : Nat
  pprev : Option P
  pskip : Option P
deriving DecidableEq

section Code

variable {P : Type} (mem : P → CBlockIndex P)

/-- One turn of the loop of `GetAncestor`; `none` stands for the failed assertion. -/
def ancestorTurn (height : Nat) (pindexWalk : P) (heightWalk : Nat) : Option (P × Nat) :=
  let heightSkip := getSkipHeight heightWalk
  let heightSkipPrev := getSkipHeight (heightWalk - 1)
  match (mem pindexWalk).pskip with
  | some pskip =>
    if heightSkip = height ∨ height < heightSkip ∧
        ¬(heightSkipPrev + 2 < heightSkip ∧ height ≤ heightSkipPrev) then some (pskip, heightSkip)
    else (mem pindexWalk).pprev.map (·, heightWalk - 1)
  | none => (mem pindexWalk).pprev.map (·, heightWalk - 1)

def ancestorLoop (height : Nat) : Nat → P → Nat → Option P
  | 0, pindexWalk, _ => some pindexWalk
  | fuel + 1, pindexWalk, heightWalk =>
    if height < heightWalk then
      (ancestorTurn mem height pindexWalk heightWalk).bind fun next =>
        ancestorLoop height fuel next.1 next.2
    else some pindexWalk

/-- `GetAncestor`; the inner `none` stands for `NULL`. The height falls in every turn. -/
def getAncestor (p : P) (height : Int) : Option (Option P) :=
  if (mem p).nHeight < height ∨ height < 0 then some none
  else (ancestorLoop mem height.toNat (mem p).nHeight p (mem p).nHeight).map some

/-- `BuildSkip`: the skip pointer that an entry gets. -/
def buildSkip (p : P) : Option (Option P) :=
  match (mem p).pprev with
  | some pprev => getAncestor mem pprev (getSkipHeight (mem p).nHeight)
  | none => some none

/-- `CChain`: the vector of entries by height. -/
def chainAt (vChain : List (Option P)) (nHeight : Int) : Option P :=
  if nHeight < 0 ∨ vChain.length ≤ nHeight then none else (vChain[nHeight.toNat]?).join

section

variable [DecidableEq P]

def chainContains (vChain : List (Option P)) (p : P) : Bool :=
  chainAt vChain (mem p).nHeight == some p

/-- `vChain.resize`: the new entries are `NULL`. -/
def resized (vChain : List (Option P)) (size : Nat) : List (Option P) :=
  vChain.take size ++ List.replicate (size - vChain.length) none

def setTipLoop : Nat → Option P → List (Option P) → List (Option P)
  | fuel + 1, some p, vChain =>
    if vChain[(mem p).nHeight]? = some (some p) then vChain
    else setTipLoop fuel (mem p).pprev (vChain.set (mem p).nHeight (some p))
  | _, _, vChain => vChain

def setTip (vChain : List (Option P)) : Option P → List (Option P)
  | none => []
  | some p =>
    setTipLoop mem ((mem p).nHeight + 1) (some p) (resized vChain ((mem p).nHeight + 1))

def forkLoop (vChain : List (Option P)) : Nat → Option P → Option P
  | fuel + 1, some p =>
    if chainContains mem vChain p then some p else forkLoop vChain fuel (mem p).pprev
  | _, p => p

def findFork (vChain : List (Option P)) (p : P) : Option (Option P) :=
  let height : Int := vChain.length - 1
  (if height < (mem p).nHeight then getAncestor mem p height else some (some p)).map
    (forkLoop mem vChain ((mem p).nHeight + 1))

end

/-- A tree of entries whose skip pointers were set by `BuildSkip`. -/
structure BlockTree : Prop where
  genesis : ∀ p, (mem p).pprev = none → (mem p).nHeight = 0
  child : ∀ p q, (mem p).pprev = some q → (mem p).nHeight = (mem q).nHeight + 1
  skip : ∀ p, buildSkip mem p = some (mem p).pskip

/-- The entry is reached by following `pprev`. -/
def Reaches (p a : P) : Prop := Relation.ReflTransGen (fun p q => (mem p).pprev = some q) p a

end Code

/-! ## Ancestors -/

theorem getSkipHeight_lt {height : Nat} (h : 0 < height) : getSkipHeight height < height := by
  have hInvert : ∀ n, invertLowestOne n ≤ n - 1 := fun n => Nat.and_le_right
  unfold getSkipHeight
  split
  · exact h
  · split
    · have hOnce := hInvert (height - 1)
      have hTwice := hInvert (invertLowestOne (height - 1))
      omega
    · have hOnce := hInvert height
      omega

section Tree

variable {P : Type} {mem : P → CBlockIndex P} {p q a b : P} {height fuel : Nat}
  {vChain old : List (Option P)}

/-- The skip pointer leads to the ancestor at the skip height. -/
def SkipsTo (mem : P → CBlockIndex P) (p : P) : Prop :=
  ∀ q, (mem p).pskip = some q → Reaches mem p q ∧ (mem q).nHeight = getSkipHeight (mem p).nHeight

/-- Up to the height of an entry, the vector holds its ancestors. -/
def HoldsUpTo (mem : P → CBlockIndex P) (vChain : List (Option P)) (p : P) : Prop :=
  ∀ h ≤ (mem p).nHeight, ∃ a, vChain[h]? = some (some a) ∧ Reaches mem p a ∧ (mem a).nHeight = h

/-- The vector is the chain of a tip, or empty without one. -/
def IsChain (mem : P → CBlockIndex P) (vChain : List (Option P)) : Option P → Prop
  | none => vChain = []
  | some p => vChain.length = (mem p).nHeight + 1 ∧ HoldsUpTo mem vChain p

/-- The highest entry that is on the chain and an ancestor of an entry, if there is one. -/
def IsFork [DecidableEq P] (mem : P → CBlockIndex P) (vChain : List (Option P)) (p : P) :
    Option P → Prop
  | some a => chainContains mem vChain a = true ∧ Reaches mem p a ∧
      ∀ b, chainContains mem vChain b = true → Reaches mem p b → (mem b).nHeight ≤ (mem a).nHeight
  | none => ∀ b, chainContains mem vChain b = true → ¬Reaches mem p b

section

variable (hTree : BlockTree mem)

include hTree

theorem Reaches.height_le (h : Reaches mem p a) : (mem a).nHeight ≤ (mem p).nHeight := by
  induction h with
  | refl => exact Nat.le_refl _
  | tail _ hStep ih =>
    rw [hTree.child _ _ hStep] at ih
    omega

/-- Of two ancestors, the higher one reaches the other. -/
theorem Reaches.of_height_le (ha : Reaches mem p a) (hb : Reaches mem p b)
    (h : (mem b).nHeight ≤ (mem a).nHeight) : Reaches mem a b := by
  induction ha using Relation.ReflTransGen.head_induction_on with
  | refl => exact hb
  | head hStep hRest ih =>
    rcases Relation.ReflTransGen.cases_head hb with rfl | ⟨q, hStep', hRest'⟩
    · have hLe := Reaches.height_le hTree hRest
      rw [hTree.child _ _ hStep] at h
      omega
    · rw [hStep] at hStep'
      cases hStep'
      exact ih hRest'

theorem Reaches.eq_of_height (ha : Reaches mem p a) (hb : Reaches mem p b)
    (h : (mem a).nHeight = (mem b).nHeight) : a = b := by
  have hReaches := ha.of_height_le hTree hb (Nat.le_of_eq h.symm)
  rcases Relation.ReflTransGen.cases_head hReaches with hEq | ⟨q, hStep, hRest⟩
  · exact hEq
  · have hLe := Reaches.height_le hTree hRest
    rw [hTree.child _ _ hStep] at h
    omega

theorem ancestorTurn_spec (hSkip : SkipsTo mem p) (hHeight : height < (mem p).nHeight) :
    ∃ q, ancestorTurn mem height p (mem p).nHeight = some (q, (mem q).nHeight) ∧
      Reaches mem p q ∧ (mem q).nHeight < (mem p).nHeight ∧ height ≤ (mem q).nHeight := by
  have hPrev : ∃ q, (mem p).pprev.map (·, (mem p).nHeight - 1) = some (q, (mem q).nHeight) ∧
      Reaches mem p q ∧ (mem q).nHeight < (mem p).nHeight ∧ height ≤ (mem q).nHeight := by
    cases hParent : (mem p).pprev with
    | none => exact absurd (hTree.genesis p hParent) (by omega)
    | some q =>
      have hChild := hTree.child p q hParent
      exact ⟨q, by simp [hChild], .single hParent, by omega, by omega⟩
  unfold ancestorTurn
  cases hPskip : (mem p).pskip with
  | none => exact hPrev
  | some q =>
    obtain ⟨hReaches, hAt⟩ := hSkip q hPskip
    dsimp only
    split
    · exact ⟨q, by rw [hAt], hReaches, hAt ▸ getSkipHeight_lt (by omega), by omega⟩
    · exact hPrev

theorem ancestorLoop_spec (hFuel : (mem p).nHeight ≤ fuel)
    (hSkip : ∀ q, (mem q).nHeight ≤ (mem p).nHeight → SkipsTo mem q)
    (hHeight : height ≤ (mem p).nHeight) :
    ∃ a, ancestorLoop mem height fuel p (mem p).nHeight = some a ∧ Reaches mem p a ∧
      (mem a).nHeight = height := by
  induction fuel generalizing p with
  | zero => exact ⟨p, rfl, .refl, by omega⟩
  | succ fuel ih =>
    unfold ancestorLoop
    split
    · rename_i hAbove
      obtain ⟨q, hTurn, hReaches, hLower, hStill⟩ :=
        ancestorTurn_spec hTree (hSkip p (Nat.le_refl _)) hAbove
      obtain ⟨a, hLoop, hRest, hAt⟩ :=
        ih (by omega) (fun r hr => hSkip r (by omega)) hStill
      rw [hTurn]
      exact ⟨a, hLoop, hReaches.trans hRest, hAt⟩
    · exact ⟨p, rfl, .refl, by omega⟩

theorem BlockTree.skipsTo (p : P) : SkipsTo mem p := by
  -- Strong induction on the height: `BuildSkip` only walks over lower entries.
  induction hn : (mem p).nHeight using Nat.strongRecOn generalizing p with
  | ind n ih =>
    intro q hPskip
    have hBuilt := hTree.skip p
    unfold buildSkip at hBuilt
    rw [hPskip] at hBuilt
    cases hParent : (mem p).pprev with
    | none => simp [hParent] at hBuilt
    | some parent =>
      have hChild := hTree.child p parent hParent
      have hLower : getSkipHeight (mem p).nHeight < (mem p).nHeight := getSkipHeight_lt (by omega)
      have hSkip : getSkipHeight (mem p).nHeight ≤ (mem parent).nHeight := by omega
      obtain ⟨a, hLoop, hReaches, hAt⟩ :=
        ancestorLoop_spec hTree (Nat.le_refl _) (fun r hr => ih _ (by omega) r rfl) hSkip
      rw [hParent] at hBuilt
      dsimp only at hBuilt
      rw [getAncestor, if_neg (by omega), Int.toNat_natCast, hLoop] at hBuilt
      cases hBuilt
      exact ⟨hReaches.head hParent, hAt⟩

theorem getAncestor_spec (p : P) (h : height ≤ (mem p).nHeight) :
    ∃ a, getAncestor mem p height = some (some a) ∧ Reaches mem p a ∧ (mem a).nHeight = height := by
  obtain ⟨a, hLoop, hReaches, hAt⟩ :=
    ancestorLoop_spec hTree (Nat.le_refl _) (fun r _ => hTree.skipsTo r) h
  refine ⟨a, ?_, hReaches, hAt⟩
  rw [getAncestor, if_neg (by omega), Int.toNat_natCast, hLoop]
  rfl

/-! ## The active chain -/

theorem HoldsUpTo.step (hPrev : ∀ q, (mem p).pprev = some q → HoldsUpTo mem vChain q)
    (hSelf : vChain[(mem p).nHeight]? = some (some p)) : HoldsUpTo mem vChain p := by
  intro h hLe
  rcases Nat.lt_or_eq_of_le hLe with hLt | rfl
  · cases hParent : (mem p).pprev with
    | none => exact absurd (hTree.genesis p hParent) (by omega)
    | some q =>
      have hChild := hTree.child p q hParent
      obtain ⟨a, hGet, hReaches, hAt⟩ := hPrev q hParent h (by omega)
      exact ⟨a, hGet, hReaches.head hParent, hAt⟩
  · exact ⟨p, hSelf, .refl, rfl⟩

/-- An entry of a chain has its ancestors below it. -/
theorem IsChain.holdsUpTo {tip : Option P} (h : IsChain mem old tip)
    (hSelf : old[(mem p).nHeight]? = some (some p)) : HoldsUpTo mem old p := by
  cases tip with
  | none =>
    rw [show old = [] from h] at hSelf
    cases hSelf
  | some t =>
    obtain ⟨hLength, hHolds⟩ := h
    have hLow : (mem p).nHeight < old.length := (List.getElem?_eq_some_iff.mp hSelf).1
    obtain ⟨p', hGet, hReaches, _⟩ := hHolds (mem p).nHeight (by omega)
    rw [hSelf] at hGet
    cases hGet
    intro k hk
    obtain ⟨a, hBelow, hReaches', hAt⟩ := hHolds k (by omega)
    exact ⟨a, hBelow, hReaches.of_height_le hTree hReaches' (by omega), hAt⟩

theorem chainAt_of_isChain (h : IsChain mem vChain (some p)) (height : Int) :
    getAncestor mem p height = some (chainAt vChain height) := by
  obtain ⟨hLength, hHolds⟩ := h
  unfold chainAt
  by_cases hOut : (mem p).nHeight < height ∨ height < 0
  · rw [getAncestor, if_pos hOut, if_pos (by omega)]
  · obtain ⟨a, hAncestor, hReaches, hAt⟩ :=
      getAncestor_spec hTree p (show height.toNat ≤ (mem p).nHeight by omega)
    obtain ⟨b, hGet, hReaches', hAt'⟩ := hHolds height.toNat (by omega)
    rw [Int.toNat_of_nonneg (by omega)] at hAncestor
    rw [hAncestor, if_neg (by omega), hGet, hReaches.eq_of_height hTree hReaches' (by omega)]
    rfl

variable [DecidableEq P]

/-- The loop of `SetTip`, on a vector that still has the entries of a chain up to the height that
    is reached. -/
theorem setTipLoop_spec {tip : Option P} (hOld : IsChain mem old tip)
    (hFuel : (mem p).nHeight < fuel) (hLength : (mem p).nHeight < vChain.length)
    (hSame : ∀ k ≤ (mem p).nHeight, ∀ a, vChain[k]? = some (some a) ↔ old[k]? = some (some a)) :
    (setTipLoop mem fuel (some p) vChain).length = vChain.length ∧
      (∀ k, (mem p).nHeight < k → (setTipLoop mem fuel (some p) vChain)[k]? = vChain[k]?) ∧
      HoldsUpTo mem (setTipLoop mem fuel (some p) vChain) p := by
  induction fuel generalizing p vChain with
  | zero => omega
  | succ fuel ih =>
    unfold setTipLoop
    split
    · -- The entry is in place, and with it all that is below.
      rename_i hSelf
      refine ⟨rfl, fun _ _ => rfl, fun k hk => ?_⟩
      obtain ⟨a, hGet, hReaches⟩ :=
        hOld.holdsUpTo hTree ((hSame _ (Nat.le_refl _) p).mp hSelf) k hk
      exact ⟨a, (hSame k hk a).mpr hGet, hReaches⟩
    · cases hParent : (mem p).pprev with
      | none =>
        have hRoot : setTipLoop mem fuel none (vChain.set (mem p).nHeight (some p)) =
            vChain.set (mem p).nHeight (some p) := by cases fuel <;> rfl
        rw [hRoot]
        refine ⟨List.length_set, fun k hk => List.getElem?_set_ne (by omega), ?_⟩
        refine HoldsUpTo.step hTree (fun q hq => ?_) (by simp [hLength])
        rw [hParent] at hq
        cases hq
      | some q =>
        have hChild := hTree.child p q hParent
        obtain ⟨hSize, hAbove, hHolds⟩ := @ih q
          (vChain.set (mem p).nHeight (some p)) (by omega) (by simp; omega)
          fun k hk a => by rw [List.getElem?_set_ne (by omega), hSame k (by omega)]
        rw [List.length_set] at hSize
        refine ⟨hSize, fun k hk => ?_, ?_⟩
        · rw [hAbove k (by omega), List.getElem?_set_ne (by omega)]
        · refine HoldsUpTo.step hTree (fun r hr => ?_) ?_
          · rw [hParent] at hr
            cases hr
            exact hHolds
          · rw [hAbove _ (by omega)]
            simp [hLength]

omit hTree [DecidableEq P] in
/-- `resize` keeps what it does not cut off. -/
theorem getElem?_resized {size k : Nat} (hk : k < size) :
    (resized vChain size)[k]? = some (some a) ↔ vChain[k]? = some (some a) := by
  unfold resized
  by_cases hIn : k < vChain.length
  · rw [List.getElem?_append_left (by simp; omega), List.getElem?_take_of_lt hk]
  · rw [List.getElem?_append_right (by simp; omega), List.getElem?_replicate,
      List.getElem?_eq_none (l := vChain) (by omega)]
    simp

theorem IsChain.setTip {last : Option P} (h : IsChain mem vChain last) (tip : Option P) :
    IsChain mem (setTip mem vChain tip) tip := by
  cases tip with
  | none => rfl
  | some p =>
    have hSize : (resized vChain ((mem p).nHeight + 1)).length = (mem p).nHeight + 1 := by
      simp [resized]
      omega
    have hFits : (mem p).nHeight < (resized vChain ((mem p).nHeight + 1)).length := by omega
    obtain ⟨hLength, _, hHolds⟩ := setTipLoop_spec hTree h (Nat.lt_succ_self _) hFits
      fun k hk a => getElem?_resized (Nat.lt_succ_of_le hk)
    exact ⟨hLength.trans hSize, hHolds⟩

theorem isChain_foldl (tips : List (Option P)) :
    IsChain mem (tips.foldl (setTip mem) []) tips.getLast?.join := by
  induction tips using List.reverseRecOn with
  | nil => rfl
  | append_singleton tips tip ih =>
    rw [List.foldl_append, List.getLast?_concat]
    exact ih.setTip hTree tip

omit hTree in
/-- The search may start at an ancestor that everything on the chain is reached through. -/
theorem IsFork.of_reaches {r : Option P} (h : IsFork mem vChain q r)
    (hq : Reaches mem p q) (hThrough : ∀ b, chainContains mem vChain b = true → Reaches mem p b →
      Reaches mem q b) : IsFork mem vChain p r := by
  cases r with
  | some a => exact ⟨h.1, hq.trans h.2.1, fun b hb hp => h.2.2 b hb (hThrough b hb hp)⟩
  | none => exact fun b hb hp => h b hb (hThrough b hb hp)

theorem forkLoop_spec (vChain : List (Option P)) (hFuel : (mem p).nHeight < fuel) :
    IsFork mem vChain p (forkLoop mem vChain fuel (some p)) := by
  induction fuel generalizing p with
  | zero => omega
  | succ fuel ih =>
    unfold forkLoop
    split
    · rename_i hOn
      exact ⟨hOn, .refl, fun b _ hb => hb.height_le hTree⟩
    · rename_i hOff
      cases hParent : (mem p).pprev with
      | none =>
        have hRoot : forkLoop mem vChain fuel none = none := by cases fuel <;> rfl
        rw [hRoot]
        intro b hb hReaches
        rcases Relation.ReflTransGen.cases_head hReaches with rfl | ⟨q, hStep, _⟩
        · exact hOff hb
        · rw [hParent] at hStep
          cases hStep
      | some q =>
        have hChild := hTree.child p q hParent
        refine (ih (by omega)).of_reaches (.single hParent) fun b hb hReaches => ?_
        rcases Relation.ReflTransGen.cases_head hReaches with rfl | ⟨q', hStep, hRest⟩
        · exact absurd hb hOff
        · rw [hParent] at hStep
          cases hStep
          exact hRest

theorem findFork_spec (vChain : List (Option P)) (p : P) :
    ∃ r, findFork mem vChain p = some r ∧ IsFork mem vChain p r := by
  unfold findFork
  have hLow : ∀ b, chainContains mem vChain b = true → (mem b).nHeight < vChain.length := by
    intro b hb
    simp only [chainContains, chainAt, beq_iff_eq] at hb
    split at hb
    · cases hb
    · omega
  dsimp only
  split
  · rename_i hAbove
    cases hSize : vChain.length with
    | zero =>
      refine ⟨none, ?_, fun b hb => absurd (hLow b hb) (by omega)⟩
      rw [getAncestor, if_pos (by omega)]
      rfl
    | succ n =>
      obtain ⟨a, hAncestor, hReaches, hAt⟩ :=
        getAncestor_spec hTree p (show n ≤ (mem p).nHeight by omega)
      rw [show (((n + 1 : Nat) : Int) - 1) = n by omega, hAncestor]
      refine ⟨_, rfl, (forkLoop_spec hTree vChain (by omega)).of_reaches hReaches fun b hb hp => ?_⟩
      have hLt := hLow b hb
      exact hReaches.of_height_le hTree hp (by omega)
  · exact ⟨_, rfl, forkLoop_spec hTree vChain (Nat.lt_succ_self _)⟩

end

/-- `GetAncestor` finds the ancestor at every height and never fails its assertion; after any
    calls of `SetTip` the chain has the ancestors of the last tip, at every height; and `FindFork`
    finds the highest ancestor on the chain. -/
theorem ancestors_and_activeChain [DecidableEq P] (hTree : BlockTree mem) :
    (∀ (p : P) (h : Nat), h ≤ (mem p).nHeight → ∃ a, getAncestor mem p h = some (some a) ∧
      Reaches mem p a ∧ (mem a).nHeight = h) ∧
    ∀ tips : List (Option P), let vChain := tips.foldl (setTip mem) []
      (match tips.getLast?.join with
        | some tip => ∀ h : Int, getAncestor mem tip h = some (chainAt vChain h)
        | none => vChain = []) ∧
      ∀ p, ∃ r, findFork mem vChain p = some r ∧ IsFork mem vChain p r := by
  refine ⟨fun p h => getAncestor_spec hTree p, fun tips => ⟨?_, fun p => findFork_spec hTree _ p⟩⟩
  have hChain := isChain_foldl hTree tips
  cases hTip : tips.getLast?.join with
  | some tip =>
    rw [hTip] at hChain
    exact fun h => chainAt_of_isChain hTree hChain h
  | none =>
    rw [hTip] at hChain
    exact hChain

end Tree

/-- Heights 0 to 3 with a second entry at height 3. -/
def sampleIndex (p : Fin 5) : CBlockIndex (Fin 5) :=
  match p with
  | 0 => ⟨0, none, none⟩
  | 1 => ⟨1, some 0, some 0⟩
  | 2 => ⟨2, some 1, some 0⟩
  | 3 => ⟨3, some 2, some 1⟩
  | 4 => ⟨3, some 2, some 1⟩

theorem ancestors_and_activeChain_of_fork :
    BlockTree sampleIndex ∧
      ∃ r, findFork sampleIndex ([some 3].foldl (setTip sampleIndex) []) 4 = some r ∧
        IsFork sampleIndex ([some 3].foldl (setTip sampleIndex) []) 4 r := by
  have hTree : BlockTree sampleIndex := ⟨by decide, by decide, by decide⟩
  exact ⟨hTree, ((ancestors_and_activeChain hTree).2 [some 3]).2 4⟩

end CloudService.ActiveChain
