/-
  The payment lists: the order of `FluxnodeListData` is strict, and the set of a list has the
  outpoints of its entries (`FluxnodeList.WellFormed`).
-/

import CloudService.Fluxnode.Flush
import CloudService.Library.LazyQueue
import CloudService.Primitives.Hex

namespace CloudService

open List

/-! ## The order -/

namespace FluxnodeListData

def paidRank (e : FluxnodeListData) : Nat := if e.nLastPaidHeight = 0 then 0 else 1

/-- The order: by height, then never paid before paid, then by outpoint. -/
def cmp : FluxnodeListData → FluxnodeListData → Ordering :=
  compareLex (compareOn comparatorHeight) (compareLex (compareOn paidRank)
    (compareLex (compareOn fun e => e.out.hash.bytes) (compareOn fun e => e.out.n)))

instance : Std.TransCmp cmp := inferInstanceAs (Std.TransCmp (compareLex _ _))

theorem lt_iff_cmp (a b : FluxnodeListData) : a.lt b = true ↔ cmp a b = .lt := by
  have hOut : ∀ a b : FluxnodeListData, compareLex (compareOn fun e => e.out.hash.bytes)
      (compareOn fun e => e.out.n) a b = a.out.memCompare b.out := fun _ _ => rfl
  unfold cmp lt
  rw [compareLex, compareLex, hOut]
  unfold compareOn
  rcases Nat.lt_trichotomy a.comparatorHeight b.comparatorHeight with hLess | hEqual | hMore
  · rw [Std.compare_eq_lt.mpr hLess]
    by_cases ha : a.nLastPaidHeight = 0 <;> by_cases hb : b.nLastPaidHeight = 0 <;>
      simp [ha, hb, hLess]
  · rw [hEqual]
    by_cases ha : a.nLastPaidHeight = 0 <;> by_cases hb : b.nLastPaidHeight = 0 <;>
      simp [ha, hb, paidRank, Ordering.then, Nat.compare_eq_ite_lt]
  · rw [Std.compare_eq_gt.mpr hMore]
    by_cases ha : a.nLastPaidHeight = 0 <;> by_cases hb : b.nLastPaidHeight = 0 <;>
      simp [ha, hb, hMore.le, hMore.ne']

theorem lt_asymm {a b : FluxnodeListData} (h : a.lt b = true) : b.lt a = false := by
  rw [← Bool.not_eq_true, lt_iff_cmp]
  rw [lt_iff_cmp] at h
  rw [Std.OrientedCmp.gt_of_lt h]
  simp

theorem lt_of_not_lt {a b : FluxnodeListData} (h : ¬ b.lt a = true) (hOut : a.out ≠ b.out) :
    a.lt b = true := by
  rw [lt_iff_cmp] at *
  cases hCmp : cmp a b with
  | lt => rfl
  | gt => exact absurd (Std.OrientedCmp.lt_of_gt hCmp) h
  | eq =>
    refine absurd ?_ hOut
    simp only [cmp, compareLex_eq_eq, compareOn] at hCmp
    obtain ⟨_, _, hHash, hIndex⟩ := hCmp
    have hHash := Uint256.bytes_inj (Std.LawfulEqOrd.eq_of_compare hHash)
    cases ha : a.out
    cases hb : b.out
    simp_all

theorem not_lt_trans {a b c : FluxnodeListData} (h₁ : ¬ b.lt a = true) (h₂ : ¬ c.lt b = true) :
    ¬ c.lt a = true := by
  rw [lt_iff_cmp, ← Std.OrientedCmp.gt_iff_lt, ← Ordering.isLE_iff_ne_gt] at *
  exact Std.TransCmp.isLE_trans h₁ h₂

end FluxnodeListData

namespace FluxnodeList

def outs (l : FluxnodeList) : List COutPoint := l.listConfirmedFluxnodes.map (·.out)

/-- The entries have different outpoints, and the set has the outpoints. -/
structure WellFormed (l : FluxnodeList) : Prop where
  nodup : l.outs.Nodup
  set : ∀ o, l.setConfirmedTxInList.contains o = true ↔ o ∈ l.outs

def Sorted (l : FluxnodeList) : Prop := l.listConfirmedFluxnodes.Pairwise fun a b => a.lt b = true

variable {l : FluxnodeList}

namespace WellFormed

theorem empty : WellFormed {} := ⟨nodup_nil, fun o => by simp [outs]⟩

theorem size_eq (h : l.WellFormed) :
    l.setConfirmedTxInList.size = l.listConfirmedFluxnodes.length := by
  have hNodup : l.setConfirmedTxInList.toList.Nodup :=
    Std.ExtTreeSet.distinct_toList.imp fun hNe hSame => hNe (Std.compare_eq_iff_eq.mpr hSame)
  have hPerm : l.setConfirmedTxInList.toList.Perm l.outs := by
    refine (perm_ext_iff_of_nodup hNodup h.nodup).mpr fun o => ?_
    rw [Std.ExtTreeSet.mem_toList, ← Std.ExtTreeSet.contains_iff_mem, h.set]
  rw [← Std.ExtTreeSet.length_toList, hPerm.length_eq, outs, length_map]

theorem of_perm (h : l.WellFormed) {entries : List FluxnodeListData}
    (hPerm : (entries.map (·.out)).Perm l.outs) :
    WellFormed { l with listConfirmedFluxnodes := entries } :=
  ⟨hPerm.nodup_iff.mpr h.nodup, fun o => (h.set o).trans hPerm.mem_iff.symm⟩

theorem sortList (h : l.WellFormed) : l.sortList.WellFormed :=
  h.of_perm ((perm_insertionSort _ _).map _)

theorem insertIntoList (h : l.WellFormed) {d : FluxnodeCacheData} (hNew : d.collateralIn ∉ l.outs) :
    (l.insertIntoList d).WellFormed where
  nodup := nodup_cons.mpr ⟨hNew, h.nodup⟩
  set o := by
    simp only [FluxnodeList.insertIntoList, Std.ExtTreeSet.contains_insert, Bool.or_eq_true, h.set,
      outs, map_cons, mem_cons, beq_iff_eq, Std.compare_eq_iff_eq, FluxnodeCacheData.listData]
    rw [eq_comm]

theorem foldl_insertIntoList (h : l.WellFormed) {add : List FluxnodeCacheData}
    (hNodup : (add.map (·.collateralIn)).Nodup) (hNew : ∀ d ∈ add, d.collateralIn ∉ l.outs) :
    (add.foldl FluxnodeList.insertIntoList l).WellFormed := by
  induction add generalizing l with
  | nil => exact h
  | cons d add ih =>
    rw [map_cons, nodup_cons] at hNodup
    refine ih (h.insertIntoList (hNew d mem_cons_self)) hNodup.2 fun e he hMem => ?_
    rcases mem_cons.mp hMem with hSame | hOld
    · have hKey : d.collateralIn = e.collateralIn := hSame.symm
      exact hNodup.1 (hKey ▸ mem_map_of_mem he)
    · exact hNew e (mem_cons_of_mem _ he) hOld

theorem contains_foldl_erase (xs : List FluxnodeListData) (t : Std.ExtTreeSet COutPoint)
    (o : COutPoint) : (xs.foldl (fun s e => s.erase e.out) t).contains o = true ↔
      t.contains o = true ∧ o ∉ xs.map (·.out) := by
  induction xs generalizing t with
  | nil => simp
  | cons e xs ih =>
    rw [foldl_cons, ih]
    simp only [Std.ExtTreeSet.contains_erase, Bool.and_eq_true, map_cons, mem_cons, not_or,
      bne_iff_ne, ne_eq, Std.compare_eq_iff_eq, eq_comm (a := o)]
    tauto

theorem eraseFromList (h : l.WellFormed) (setToRemove : Std.ExtTreeSet COutPoint) :
    (l.eraseFromList setToRemove).WellFormed where
  nodup := h.nodup.sublist (filter_sublist.map _)
  set o := by
    simp only [FluxnodeList.eraseFromList, contains_foldl_erase, h.set, outs, mem_map,
      mem_filter, not_exists]
    constructor
    · rintro ⟨⟨e, hMem, rfl⟩, hKept⟩
      refine ⟨e, ⟨hMem, ?_⟩, rfl⟩
      cases hRemove : setToRemove.contains e.out with
      | false => rfl
      | true => exact absurd ⟨⟨hMem, hRemove⟩, rfl⟩ (hKept e)
    · rintro ⟨e, ⟨hMem, hKept⟩, rfl⟩
      refine ⟨⟨e, hMem, rfl⟩, ?_⟩
      rintro e' ⟨⟨_, hRemove⟩, hSame⟩
      rw [hSame] at hRemove
      rw [hRemove] at hKept
      cases hKept

end WellFormed

theorem sorted_sortList (h : l.WellFormed) : l.sortList.Sorted :=
  LazyQueue.pairwise_insertionSort
    (fun a b => by
      by_cases hLess : b.lt a = true
      · exact .inr (by rw [FluxnodeListData.lt_asymm hLess]; simp)
      · exact .inl hLess)
    (fun a b c h₁ h₂ => FluxnodeListData.not_lt_trans h₁ h₂)
    (fun a b hLe hOut => FluxnodeListData.lt_of_not_lt hLe hOut) h.nodup

/-! ## GetNextPayment -/

theorem nextConfirmed_eq (confirmed : COutPoint → Bool) {n : Nat}
    (hFuel : l.listConfirmedFluxnodes.length ≤ n) :
    (l.nextConfirmed confirmed n).2.listConfirmedFluxnodes =
        LazyQueue.clean (·.out) confirmed l.listConfirmedFluxnodes ∧
      (l.nextConfirmed confirmed n).1 =
        (LazyQueue.clean (·.out) confirmed l.listConfirmedFluxnodes).head?.map (·.out) := by
  induction n generalizing l with
  | zero =>
    have hNil := length_eq_zero_iff.mp (Nat.le_zero.mp hFuel)
    rw [nextConfirmed, hNil]
    exact ⟨rfl, rfl⟩
  | succ n ih =>
    rw [nextConfirmed]
    cases hList : l.listConfirmedFluxnodes with
    | nil => exact ⟨hList, rfl⟩
    | cons first rest =>
      rw [LazyQueue.clean_cons]
      dsimp only
      split
      · exact ⟨hList, rfl⟩
      · refine ih ?_
        rw [hList, length_cons] at hFuel
        exact Nat.le_of_succ_le_succ hFuel

theorem WellFormed.nextConfirmed (h : l.WellFormed) (confirmed : COutPoint → Bool) (n : Nat) :
    (l.nextConfirmed confirmed n).2.WellFormed := by
  induction n generalizing l with
  | zero => exact h
  | succ n ih =>
    rw [FluxnodeList.nextConfirmed]
    split
    · exact h
    · rename_i first rest hList
      split
      · exact h
      · refine ih ⟨?_, fun o => ?_⟩
        · have hNodup := h.nodup
          rw [outs, hList, map_cons] at hNodup
          exact (nodup_cons.mp hNodup).2
        · have hNodup := h.nodup
          rw [outs, hList, map_cons, nodup_cons] at hNodup
          simp only [Std.ExtTreeSet.contains_erase, Bool.and_eq_true, h.set, outs, hList,
            map_cons, mem_cons, bne_iff_ne, ne_eq, Std.compare_eq_iff_eq]
          constructor
          · rintro ⟨hNe, hSame | hRest⟩
            · exact absurd hSame.symm hNe
            · exact hRest
          · intro hRest
            exact ⟨fun hSame => hNodup.1 (hSame ▸ hRest), .inr hRest⟩

/-! ## The undo of a payment -/

theorem eraseP_eq_filter {xs : List FluxnodeListData} (hNodup : (xs.map (·.out)).Nodup)
    (o : COutPoint) : xs.eraseP (·.out == o) = xs.filter (·.out != o) := by
  induction xs with
  | nil => rfl
  | cons e xs ih =>
    rw [map_cons, nodup_cons] at hNodup
    rw [eraseP_cons, filter_cons]
    by_cases hKey : e.out = o
    · have hNone : xs.filter (·.out != o) = xs := by
        rw [filter_eq_self]
        intro x hx
        refine bne_iff_ne.mpr fun hSame => hNodup.1 ?_
        rw [hKey, ← hSame]
        exact mem_map_of_mem hx
      simp [hKey, hNone]
    · rw [ih hNodup.2, beq_eq_false_iff_ne.mpr hKey, if_pos (bne_iff_ne.mpr hKey)]
      rfl

theorem moveToFront_of_mem (h : l.WellFormed) {first e : FluxnodeListData}
    {rest : List FluxnodeListData} (hList : l.listConfirmedFluxnodes = first :: rest)
    (hMem : e ∈ rest) (nLastPaidHeight : Nat) :
    l.moveToFront e.out nLastPaidHeight = some { l with
      listConfirmedFluxnodes :=
        { e with nLastPaidHeight } :: first :: rest.filter (·.out != e.out) } := by
  have hNodup : (rest.map (·.out)).Nodup := by
    have hAll := h.nodup
    rw [outs, hList, map_cons] at hAll
    exact (nodup_cons.mp hAll).2
  have hReverse : (rest.reverse.map (·.out)).Nodup := by
    rw [map_reverse, nodup_reverse]
    exact hNodup
  have hFind : (rest.reverse.find? fun x => x.out == e.out) = some e := by
    obtain ⟨y, hFind⟩ : ∃ y, (rest.reverse.find? fun x => x.out == e.out) = some y :=
      Option.isSome_iff_exists.mp (find?_isSome.mpr ⟨e, by simpa using hMem, by simp⟩)
    have hKey : y.out = e.out := by simpa using find?_some hFind
    have hIn : y ∈ rest := by simpa using mem_of_find?_eq_some hFind
    rw [hFind, inj_on_of_nodup_map hNodup hIn hMem hKey]
  unfold moveToFront
  rw [hList]
  dsimp only
  rw [hFind, eraseP_eq_filter hReverse, filter_reverse, reverse_reverse]
  rfl

end FluxnodeList

end CloudService
