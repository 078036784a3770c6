/-
  `ApplyTxInUndo` puts a spent coin back. The undo data keeps the height of a transaction with
  its last output only.
-/

import CloudService.Chain.Disconnect
import CloudService.Coins.Value

namespace CloudService

open CoinsView List

variable {coin : Coin} {txid : Uint256} {tx : CTransaction}

/-! ## Records -/

namespace CCoins

variable {c a b : CCoins} {n m : Nat}

/-- The normal form of a record: every null output is the default one, and none is at the
    end. -/
structure Normal (c : CCoins) : Prop where
  null : ∀ o ∈ c.vout, o.isNull = true → o = {}
  last : ∀ o, c.vout.getLast? = some o → o.isNull = false

theorem Normal.empty : Normal {} where
  null _ hMem := by cases hMem
  last _ hLast := by cases hLast

theorem Normal.cleanup (h : ∀ o ∈ c.vout, o.isNull = true → o = {}) : c.cleanup.Normal where
  null o hMem := by
    have hSub : o ∈ c.vout.reverse :=
      (dropWhile_sublist CTxOut.isNull).subset (mem_reverse.mp hMem)
    exact h o (mem_reverse.mp hSub)
  last o hLast := by
    unfold CCoins.cleanup at hLast
    rw [getLast?_reverse] at hLast
    have hHead := head?_dropWhile_not CTxOut.isNull c.vout.reverse
    rw [hLast] at hHead
    simpa using hHead

theorem Normal.coin_last (h : c.Normal) (hLength : c.vout.length = n + 1) :
    ∃ coin, c.coin n = some coin := by
  have hLt : n < c.vout.length := by omega
  have hGet : c.vout[n]? = some c.vout[n] := getElem?_eq_getElem hLt
  have hNull := h.last c.vout[n] (by rw [getLast?_eq_getElem?, hLength]; exact hGet)
  exact ⟨_, by unfold coin; rw [hGet]; simp [Option.filter, hNull]; rfl⟩

theorem Normal.getElem?_of_none (h : c.Normal) (hNone : c.coin n = none) :
    c.vout[n]?.getD {} = {} := by
  cases hGet : c.vout[n]? with
  | none => rfl
  | some o =>
    refine h.null o (mem_of_getElem? hGet) ?_
    unfold coin at hNone
    rw [hGet] at hNone
    by_contra hNull
    simp [Option.filter, hNull] at hNone

theorem lt_of_coin (h : c.coin n = some coin) : n < c.vout.length :=
  (List.getElem?_eq_some_iff.mp (getElem?_of_coin h).1).1

theorem Normal.length_le (h : b.Normal) (hCoins : ∀ n, a.coin n = b.coin n) :
    b.vout.length ≤ a.vout.length := by
  match hLength : b.vout.length with
  | 0 => exact Nat.zero_le _
  | n + 1 =>
    obtain ⟨coin, hCoin⟩ := h.coin_last hLength
    exact lt_of_coin ((hCoins n).trans hCoin)

theorem Normal.vout_eq (ha : a.Normal) (hb : b.Normal) (hCoins : ∀ n, a.coin n = b.coin n) :
    a.vout = b.vout := by
  have hLength : a.vout.length = b.vout.length :=
    Nat.le_antisymm (ha.length_le fun n => (hCoins n).symm) (hb.length_le hCoins)
  refine ext_getElem hLength fun n hLt hLt' => ?_
  have hGetD : a.vout[n]?.getD {} = b.vout[n]?.getD {} := by
    cases hCoin : a.coin n with
    | none => rw [ha.getElem?_of_none hCoin, hb.getElem?_of_none ((hCoins n).symm.trans hCoin)]
    | some coin =>
      rw [(getElem?_of_coin hCoin).1, (getElem?_of_coin ((hCoins n).symm.trans hCoin)).1]
  rwa [getElem?_eq_getElem hLt, getElem?_eq_getElem hLt'] at hGetD

theorem meta_of_coin (h : c.coin n = some coin) :
    coin.fCoinBase = c.fCoinBase ∧ coin.nHeight = c.nHeight ∧ coin.nVersion = c.nVersion := by
  obtain ⟨out, _, rfl⟩ := Option.map_eq_some_iff.mp h
  exact ⟨rfl, rfl, rfl⟩

theorem Normal.same (ha : a.Normal) (hb : b.Normal) (hCoins : ∀ n, a.coin n = b.coin n) :
    (if b.nVersion < 0 then { a with nVersion := b.nVersion } else a).same b = true := by
  have hOut := ha.vout_eq hb hCoins
  cases hPruned : b.isPruned with
  | true =>
    have hPrunedA : a.isPruned = true := by rwa [isPruned, hOut, ← isPruned]
    unfold CCoins.same
    split
    · simp only [isPruned, hOut, Bool.or_eq_true, Bool.and_self]
      exact .inl hPruned
    · simp [hPruned, hPrunedA]
  | false =>
    obtain ⟨n, coin, hCoin⟩ := b.isPruned_eq_false.mp hPruned
    obtain ⟨hBaseB, hHeightB, hVersionB⟩ := meta_of_coin hCoin
    obtain ⟨hBaseA, hHeightA, hVersionA⟩ := meta_of_coin ((hCoins n).trans hCoin)
    have hEq : a = b := by
      cases a
      simp_all
    subst hEq
    simp [CCoins.same]

/-! ## Operations on records -/

theorem null_clear {outs : List CTxOut} (h : ∀ o ∈ outs, o.isNull = true → o = {}) :
    ∀ o ∈ outs.map (fun o => if isUnspendable o.scriptPubKey then {} else o),
      o.isNull = true → o = {} := by
  intro o hMem hNull
  obtain ⟨o', hOld, rfl⟩ := mem_map.mp hMem
  split at hNull
  · rename_i hUnspendable
    rw [if_pos hUnspendable]
  · rename_i hSpendable
    rw [if_neg hSpendable]
    exact h o' hOld hNull

theorem Normal.clearUnspendable (h : c.Normal) : c.clearUnspendable.Normal :=
  .cleanup (null_clear h.null)

theorem Normal.fromTx (h : ∀ out ∈ tx.vout, 0 ≤ out.nValue) (nHeight : Nat) :
    (fromTx tx nHeight).Normal := by
  refine .cleanup (null_clear fun o hMem hNull => ?_)
  have hValue : o.nValue = -1 := by simpa [CTxOut.isNull] using hNull
  have hNonneg := h o hMem
  rw [hValue] at hNonneg
  exact absurd hNonneg (by decide)

theorem coin_clearUnspendable :
    c.clearUnspendable.coin n =
      (c.coin n).filter fun coin => !isUnspendable coin.out.scriptPubKey := by
  unfold clearUnspendable
  rw [coin_cleanup]
  unfold coin
  simp only [getElem?_map]
  have hDefault : CTxOut.isNull {} = true := rfl
  cases c.vout[n]? with
  | none => rfl
  | some o =>
    cases hUnspendable : isUnspendable o.scriptPubKey with
    | true =>
      cases hNull : o.isNull with
      | true => simp [Option.filter, hUnspendable, hNull, hDefault]
      | false => simp [Option.filter, hUnspendable, hNull, hDefault]
    | false =>
      cases hNull : o.isNull with
      | true => simp [Option.filter, hUnspendable, hNull]
      | false => simp [Option.filter, hUnspendable, hNull]

theorem spendable_of_coin_fromTx {nHeight : Nat}
    (h : (fromTx tx nHeight).coin n = some coin) : isUnspendable coin.out.scriptPubKey = false := by
  rw [coin_fromTx] at h
  obtain ⟨out, hFilter, rfl⟩ := Option.map_eq_some_iff.mp h
  have hBoth := (Option.filter_eq_some_iff.mp hFilter).2
  rw [Bool.and_eq_true] at hBoth
  simpa using hBoth.2

theorem coin_setOutput {o : CTxOut} (hNull : o.isNull = false) :
    (c.setOutput n o).coin m =
      if m = n then some ⟨o, c.fCoinBase, c.nHeight, c.nVersion⟩ else c.coin m := by
  unfold setOutput coin
  simp only [getElem?_set]
  by_cases hPos : m = n
  · have hLt : n < (c.vout ++ List.replicate (n + 1 - c.vout.length) ({} : CTxOut)).length := by
      rw [length_append, length_replicate]
      omega
    rw [if_pos hPos, if_pos hPos.symm, if_pos hLt]
    simp [Option.filter, hNull]
  · rw [if_neg hPos, if_neg (Ne.symm hPos), getElem?_append]
    split
    · rfl
    · rename_i hLength
      rw [getElem?_eq_none (Nat.not_lt.mp hLength), getElem?_replicate]
      split
      · simp [Option.filter, CTxOut.isNull]
      · rfl

theorem Normal.setOutput {o : CTxOut} (h : c.Normal) (hNull : o.isNull = false) :
    (c.setOutput n o).cleanup.Normal := by
  refine .cleanup fun o' hMem hNull' => ?_
  rcases mem_or_eq_of_mem_set hMem with hOld | rfl
  · rcases mem_append.mp hOld with hOut | hPad
    · exact h.null o' hOut hNull'
    · exact (mem_replicate.mp hPad).2
  · rw [hNull] at hNull'
    cases hNull'

theorem Normal.spend (h : c.Normal) : (c.spend n).Normal := by
  unfold CCoins.spend
  split
  · refine .cleanup fun o hMem hNull => ?_
    rcases mem_or_eq_of_mem_set hMem with hOld | rfl
    · exact h.null o hOld hNull
    · rfl
  · exact h

theorem cleanup_vout_isEmpty : c.cleanup.vout.isEmpty = c.isPruned := by
  unfold cleanup isPruned
  rw [Bool.eq_iff_iff, List.isEmpty_iff, reverse_eq_nil_iff, dropWhile_eq_nil_iff, all_eq_true]
  simp

theorem isPruned_eq_true : c.isPruned = true ↔ ∀ n, c.coin n = none := by
  constructor
  · intro hPruned n
    cases hCoin : c.coin n with
    | none => rfl
    | some coin =>
      rw [c.isPruned_eq_false.mpr ⟨n, coin, hCoin⟩] at hPruned
      cases hPruned
  · intro hNone
    by_contra hPruned
    obtain ⟨n, coin, hCoin⟩ := c.isPruned_eq_false.mp (Bool.not_eq_true _ ▸ hPruned)
    rw [hNone n] at hCoin
    cases hCoin

theorem isPruned_cleanup : c.cleanup.isPruned = c.isPruned := by
  rw [Bool.eq_iff_iff, isPruned_eq_true, isPruned_eq_true]
  simp only [coin_cleanup]

theorem spend_vout_isEmpty (h : c.coin n = some coin) :
    (c.spend n).vout.isEmpty = true ↔ ∀ m, m ≠ n → c.coin m = none := by
  have hAvailable : c.isAvailable n = true := by rw [isAvailable_eq, h]; rfl
  have hPruned : (c.spend n).vout.isEmpty = (c.spend n).isPruned := by
    rw [CCoins.spend, if_pos hAvailable, cleanup_vout_isEmpty, isPruned_cleanup]
  rw [hPruned, isPruned_eq_true]
  simp only [coin_spend]
  constructor
  · intro hNone m hNe
    simpa [hNe] using hNone m
  · intro hNone m
    split
    · rfl
    · exact hNone m ‹_›

end CCoins

/-! ## The undo of one spend -/

namespace CoinsView

variable {v : CoinsView} {o y : COutPoint} {c : Coin}

theorem coin_accessCoins (txid : Uint256) (n : Nat) :
    (v.accessCoins txid).coin n = v.coin ⟨txid, n⟩ := by
  unfold accessCoins coin
  cases v.cacheCoins[txid]? with
  | none => rfl
  | some coins => rfl

theorem accessCoins_modifyCoins (txid txid' : Uint256) (coins : CCoins) :
    (v.modifyCoins txid coins).accessCoins txid' =
      if txid = txid' then coins.cleanup else v.accessCoins txid' := by
  unfold accessCoins modifyCoins
  simp only [TreeMap.getElem?_insert_eq]
  split
  · rfl
  · rfl

theorem coin_modifyCoins (txid : Uint256) (coins : CCoins) :
    (v.modifyCoins txid coins).coin y =
      if y.hash = txid then coins.coin y.n else v.coin y := by
  rw [← coin_accessCoins, accessCoins_modifyCoins]
  by_cases hHash : y.hash = txid
  · rw [if_pos hHash.symm, if_pos hHash, CCoins.coin_cleanup]
  · rw [if_neg (Ne.symm hHash), if_neg hHash, coin_accessCoins]

theorem accessCoins_spendInput (txid : Uint256) :
    (v.spendInput o).accessCoins txid =
      if o.hash = txid then (v.accessCoins txid).spend o.n else v.accessCoins txid := by
  unfold accessCoins spendInput
  simp only [TreeMap.getElem?_modify_eq]
  split
  · cases v.cacheCoins[txid]? with
    | none => rfl
    | some coins => rfl
  · rfl

theorem Normal.spendInputs
    (h : (v.accessCoins txid).Normal) : ((v.spendInputs tx).accessCoins txid).Normal := by
  rw [spendInputs_eq]
  induction spentBy tx generalizing v with
  | nil => exact h
  | cons o os ih =>
    refine ih ?_
    rw [accessCoins_spendInput]
    split
    · exact h.spend
    · exact h

theorem accessCoins_updateCoins (txid txid' : Uint256) (tx : CTransaction) (nHeight : Nat) :
    (v.updateCoins txid tx nHeight).accessCoins txid' =
      if txid = txid' then .fromTx tx nHeight else (v.spendInputs tx).accessCoins txid' := by
  unfold accessCoins updateCoins
  simp only [TreeMap.getElem?_insert_eq]
  split
  · rfl
  · rfl

/-- A coin can be put back: it is not the last one of a transaction at height zero. -/
def Restorable (v : CoinsView) (o : COutPoint) : Prop :=
  ∀ c, v.coin o = some c → c.nHeight = 0 → ∃ n c', n ≠ o.n ∧ v.coin ⟨o.hash, n⟩ = some c'

theorem inputUndo_eq (h : v.coin o = some c) :
    v.inputUndo o =
      if (v.accessCoins o.hash |>.spend o.n).vout.isEmpty then
        ⟨c.out, c.fCoinBase, c.nHeight, c.nVersion⟩
      else { txout := c.out } := by
  have hCoin : (v.accessCoins o.hash).coin o.n = some c := by rw [coin_accessCoins, h]
  obtain ⟨hBase, hHeight, hVersion⟩ := CCoins.meta_of_coin hCoin
  have hOut : (v.accessCoins o.hash).vout[o.n]?.getD {} = c.out := by
    rw [(CCoins.getElem?_of_coin hCoin).1]
    rfl
  unfold inputUndo
  rw [hBase, hHeight, hVersion, ← hOut]
  rfl

theorem inputUndo_cases (h : v.coin o = some c) :
    (v.inputUndo o = { txout := c.out } ∧ ∃ n c', n ≠ o.n ∧ v.coin ⟨o.hash, n⟩ = some c') ∨
      (v.inputUndo o = ⟨c.out, c.fCoinBase, c.nHeight, c.nVersion⟩ ∧
        ∀ n, n ≠ o.n → v.coin ⟨o.hash, n⟩ = none) := by
  have hCoin : (v.accessCoins o.hash).coin o.n = some c := by rw [coin_accessCoins, h]
  have hLast := CCoins.spend_vout_isEmpty hCoin
  simp only [coin_accessCoins] at hLast
  rw [inputUndo_eq h]
  split
  · rename_i hEmpty
    exact .inr ⟨rfl, hLast.mp hEmpty⟩
  · rename_i hEmpty
    refine .inl ⟨rfl, ?_⟩
    by_contra hNone
    refine hEmpty (hLast.mpr fun n hNe => ?_)
    cases hOther : v.coin ⟨o.hash, n⟩ with
    | none => rfl
    | some c' => exact absurd ⟨n, c', hNe, hOther⟩ hNone

theorem meta_eq_of_hash {n m : Nat} {c c' : Coin}
    (h : v.coin ⟨txid, n⟩ = some c) (h' : v.coin ⟨txid, m⟩ = some c') :
    c.fCoinBase = c'.fCoinBase ∧ c.nHeight = c'.nHeight ∧ c.nVersion = c'.nVersion := by
  rw [← coin_accessCoins] at h h'
  obtain ⟨hBase, hHeight, hVersion⟩ := CCoins.meta_of_coin h
  obtain ⟨hBase', hHeight', hVersion'⟩ := CCoins.meta_of_coin h'
  exact ⟨hBase.trans hBase'.symm, hHeight.trans hHeight'.symm, hVersion.trans hVersion'.symm⟩

end CoinsView

section Restore

variable {v : CoinsView} {s : DisconnectState} {o : COutPoint} {c : Coin} {os : List COutPoint}

section

variable (hSame : ∀ y, s.view.coin y = (v.spendInput o).coin y)

include hSame

theorem coin_accessCoins_spent (n : Nat) :
    (s.view.accessCoins o.hash).coin n = if n = o.n then none else v.coin ⟨o.hash, n⟩ := by
  rw [coin_accessCoins, hSame, coin_spendInput]
  by_cases hPos : n = o.n
  · rw [if_pos hPos, if_pos (by rw [hPos])]
  · rw [if_neg hPos, if_neg fun hEq => hPos (congrArg COutPoint.n hEq)]

theorem isPruned_accessCoins_spent :
    (s.view.accessCoins o.hash).isPruned = true ↔ ∀ n, n ≠ o.n → v.coin ⟨o.hash, n⟩ = none := by
  rw [CCoins.isPruned_eq_true]
  simp only [coin_accessCoins_spent hSame]
  constructor
  · intro hNone n hNe
    simpa [hNe] using hNone n
  · intro hNone n
    split
    · rfl
    · exact hNone n ‹_›

theorem coin_putBack (hCoin : v.coin o = some c) {coins : CCoins}
    (hMeta : c = ⟨c.out, coins.fCoinBase, coins.nHeight, coins.nVersion⟩)
    (hOthers : ∀ n, n ≠ o.n → coins.coin n = v.coin ⟨o.hash, n⟩) (y : COutPoint) :
    (s.view.modifyCoins o.hash (coins.setOutput o.n c.out)).coin y = v.coin y := by
  have hNull : c.out.isNull = false := by
    rw [← coin_accessCoins o.hash o.n] at hCoin
    exact (CCoins.getElem?_of_coin hCoin).2
  rw [coin_modifyCoins]
  by_cases hHash : y.hash = o.hash
  · rw [if_pos hHash, CCoins.coin_setOutput hNull]
    by_cases hPos : y.n = o.n
    · rw [if_pos hPos, ← hMeta, COutPoint.eq_of_fields hHash hPos, hCoin]
    · rw [if_neg hPos, hOthers _ hPos, ← hHash]
  · rw [if_neg hHash, hSame, coin_spendInput, if_neg fun hEq => hHash (congrArg COutPoint.hash hEq)]

theorem applyTxInUndo_restores (hCoin : v.coin o = some c) (h : v.Restorable o) :
    (applyTxInUndo (v.inputUndo o) s o).fClean = s.fClean ∧
      ∀ y, (applyTxInUndo (v.inputUndo o) s o).view.coin y = v.coin y := by
  have hPruned := isPruned_accessCoins_spent hSame
  have hCoins := coin_accessCoins_spent hSame
  unfold applyTxInUndo
  rcases inputUndo_cases hCoin with ⟨hUndo, n, c', hNe, hOther⟩ | ⟨hUndo, hLast⟩
  · -- Another coin of the transaction is left, with its data.
    have hLeft : (s.view.accessCoins o.hash).isPruned = false :=
      Bool.not_eq_true _ ▸ fun hNone => by
        rw [hPruned.mp hNone n hNe] at hOther
        cases hOther
    have hFree : (s.view.accessCoins o.hash).isAvailable o.n = false := by
      rw [CCoins.isAvailable_eq, hCoins, if_pos rfl]
      rfl
    obtain ⟨hBase, hHeight, hVersion⟩ := meta_eq_of_hash (v := v) hCoin hOther
    obtain ⟨hBase', hHeight', hVersion'⟩ :=
      CCoins.meta_of_coin ((hCoins n).trans (by rw [if_neg hNe, hOther]))
    have hRecord : undoneCoins { txout := c.out } (s.view.accessCoins o.hash) =
        s.view.accessCoins o.hash := rfl
    dsimp only
    rw [hUndo, hRecord]
    refine ⟨by simp [hLeft, hFree], coin_putBack hSame hCoin ?_ fun m hPos => ?_⟩
    · rw [← hBase', ← hHeight', ← hVersion', ← hBase, ← hHeight, ← hVersion]
    · rw [hCoins, if_neg hPos]
  · have hHeight : c.nHeight ≠ 0 := fun hZero => by
      obtain ⟨n, c', hNe, hOther⟩ := h c hCoin hZero
      rw [hLast n hNe] at hOther
      cases hOther
    rw [hUndo]
    simp only [undoneCoins, hHeight, ne_eq, not_false_eq_true, if_true]
    refine ⟨?_, coin_putBack hSame hCoin rfl fun m hPos => (hLast m hPos).symm⟩
    rw [hPruned.mpr hLast]
    simp [CCoins.isAvailable]

theorem restorable_of_clean (hCoin : v.coin o = some c)
    (h : (applyTxInUndo (v.inputUndo o) s o).fClean = true) : v.Restorable o := by
  intro c' hCoin' hZero
  rw [hCoin, Option.some.injEq] at hCoin'
  subst hCoin'
  rcases inputUndo_cases hCoin with ⟨_, hOther⟩ | ⟨hUndo, hLast⟩
  · exact hOther
  · have hPruned := (isPruned_accessCoins_spent hSame).mpr hLast
    simp [applyTxInUndo, hUndo, hZero, hPruned] at h

end

theorem fClean_of_applyTxInUndo {undo : CTxInUndo}
    (h : (applyTxInUndo undo s o).fClean = true) : s.fClean = true := by
  simp only [applyTxInUndo, Bool.and_eq_true] at h
  exact h.1.1

theorem Normal.applyTxInUndo {undo : CTxInUndo} (hNull : undo.txout.isNull = false)
    (h : (s.view.accessCoins txid).Normal) :
    ((applyTxInUndo undo s o).view.accessCoins txid).Normal := by
  unfold CloudService.applyTxInUndo
  rw [accessCoins_modifyCoins]
  split
  · rename_i hHash
    refine CCoins.Normal.setOutput ?_ hNull
    unfold undoneCoins
    split
    · exact ⟨by simp, by simp⟩
    · rwa [hHash]
  · exact h

/-! ## The undo of the inputs of a transaction -/

def AllRestorable : CoinsView → List COutPoint → Prop
  | _, [] => True
  | v, o :: os => v.Restorable o ∧ AllRestorable (v.spendInput o) os

theorem coin_spendInput_of_nodup {o' : COutPoint} (hNodup : (o :: os).Nodup)
    (hHave : ∀ o' ∈ o :: os, ∃ c, v.coin o' = some c) (hMem : o' ∈ os) :
    ∃ c, (v.spendInput o).coin o' = some c := by
  obtain ⟨c, hCoin⟩ := hHave o' (mem_cons_of_mem _ hMem)
  have hNe : o' ≠ o := fun hEq => (nodup_cons.mp hNodup).1 (hEq ▸ hMem)
  exact ⟨c, by rw [coin_spendInput, if_neg hNe, hCoin]⟩

theorem length_inputsUndo (v : CoinsView) (os : List COutPoint) :
    (v.inputsUndo os).length = os.length := by
  induction os generalizing v with
  | nil => rfl
  | cons o os ih => rw [inputsUndo, length_cons, length_cons, ih]

section

variable (hNodup : os.Nodup) (hHave : ∀ o ∈ os, ∃ c, v.coin o = some c)
  (hSame : ∀ y, s.view.coin y = (os.foldl spendInput v).coin y)

include hNodup hHave hSame

theorem restoreInputs_restores (h : AllRestorable v os) :
    (restoreInputs os (v.inputsUndo os) s).fClean = s.fClean ∧
      ∀ y, (restoreInputs os (v.inputsUndo os) s).view.coin y = v.coin y := by
  induction os generalizing v with
  | nil => exact ⟨rfl, hSame⟩
  | cons o os ih =>
    obtain ⟨c, hCoin⟩ := hHave o mem_cons_self
    obtain ⟨hClean, hCoins⟩ := ih (nodup_cons.mp hNodup).2
      (fun _ hMem => coin_spendInput_of_nodup hNodup hHave hMem) hSame h.2
    obtain ⟨hClean', hCoins'⟩ := applyTxInUndo_restores hCoins hCoin h.1
    exact ⟨hClean'.trans hClean, hCoins'⟩

theorem allRestorable_of_clean (h : (restoreInputs os (v.inputsUndo os) s).fClean = true) :
    s.fClean = true ∧ AllRestorable v os := by
  induction os generalizing v with
  | nil => exact ⟨h, trivial⟩
  | cons o os ih =>
    obtain ⟨c, hCoin⟩ := hHave o mem_cons_self
    have hHave' : ∀ o' ∈ os, ∃ c, (v.spendInput o).coin o' = some c := fun _ hMem =>
      coin_spendInput_of_nodup hNodup hHave hMem
    have hNodup' := (nodup_cons.mp hNodup).2
    obtain ⟨hClean, hRest⟩ := ih hNodup' hHave' hSame (fClean_of_applyTxInUndo h)
    obtain ⟨_, hCoins⟩ := restoreInputs_restores hNodup' hHave' hSame hRest
    exact ⟨hClean, restorable_of_clean hCoins hCoin h, hRest⟩

end

theorem fClean_of_restoreInputs {undo : CTxUndo} (h : (restoreInputs os undo s).fClean = true) :
    s.fClean = true := by
  unfold restoreInputs at h
  generalize os.zip undo = es at h
  induction es with
  | nil => exact h
  | cons e es ih => exact ih (fClean_of_applyTxInUndo h)

theorem restoreInputs_frame (undo : CTxUndo) :
    (restoreInputs os undo s).view =
      { s.view with cacheCoins := (restoreInputs os undo s).view.cacheCoins } := by
  unfold restoreInputs
  induction os.zip undo with
  | nil => rfl
  | cons e es ih =>
    rw [foldr_cons]
    generalize es.foldr (fun e s => applyTxInUndo e.2 s e.1) s = s' at ih ⊢
    exact congrArg (fun view : CoinsView =>
      { view with cacheCoins := (applyTxInUndo e.2 s' e.1).view.cacheCoins }) ih

theorem Normal.restoreInputs (hNodup : os.Nodup) (hHave : ∀ o ∈ os, ∃ c, v.coin o = some c)
    (h : (s.view.accessCoins txid).Normal) :
    ((restoreInputs os (v.inputsUndo os) s).view.accessCoins txid).Normal := by
  induction os generalizing v with
  | nil => exact h
  | cons o os ih =>
    obtain ⟨c, hCoin⟩ := hHave o mem_cons_self
    have hNull : (v.inputUndo o).txout.isNull = false := by
      have hOut : (v.inputUndo o).txout = c.out := by
        rcases inputUndo_cases hCoin with ⟨hUndo, _⟩ | ⟨hUndo, _⟩
        · rw [hUndo]
        · rw [hUndo]
      rw [hOut]
      rw [← coin_accessCoins o.hash o.n] at hCoin
      exact (CCoins.getElem?_of_coin hCoin).2
    exact Normal.applyTxInUndo hNull (ih (nodup_cons.mp hNodup).2
      fun _ hMem => coin_spendInput_of_nodup hNodup hHave hMem)

end Restore

end CloudService
