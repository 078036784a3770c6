/-
  Loops whose turns change only what is kept under the key of their item, so the loop can be
  followed one key at a time.
-/

import CloudService.Library.TreeMap

namespace Pointwise

variable {σ ι κ ω β ε : Type} [DecidableEq κ]

/-- A turn that changes only what is kept under the key of its item. -/
structure LocalTurn (Inv : σ → Prop) (get : σ → κ → ω) (key : ι → κ) (f : ι → ω → ω)
    (turn : σ → ι → σ) : Prop where
  keeps : ∀ s i, Inv s → Inv (turn s i)
  get_turn : ∀ s i a, Inv s → get (turn s i) a = if key i = a then f i (get s a) else get s a

/-- The item with a key, when the items have different keys. -/
theorem find?_key_eq_some_iff {key : ι → κ} {xs : List ι} (hNodup : (xs.map key).Nodup) {a : κ}
    {x : ι} : (xs.find? fun i => decide (key i = a)) = some x ↔ x ∈ xs ∧ key x = a := by
  constructor
  · intro hFind
    exact ⟨List.mem_of_find?_eq_some hFind, by simpa using List.find?_some hFind⟩
  · rintro ⟨hMem, rfl⟩
    obtain ⟨y, hFind⟩ : ∃ y, (xs.find? fun i => decide (key i = key x)) = some y :=
      Option.isSome_iff_exists.mp (List.find?_isSome.mpr ⟨x, hMem, by simp⟩)
    have hKey : key y = key x := by simpa using List.find?_some hFind
    rw [hFind, List.inj_on_of_nodup_map hNodup (List.mem_of_find?_eq_some hFind) hMem hKey]

namespace LocalTurn

variable {Inv : σ → Prop} {get : σ → κ → ω} {key : ι → κ} {f : ι → ω → ω} {turn : σ → ι → σ}
  {s : σ}

/-- A key that no item has keeps what it has. -/
theorem get_foldl_of_not_mem (h : LocalTurn Inv get key f turn) {xs : List ι} {a : κ}
    (hNot : a ∉ xs.map key) (hs : Inv s) : get (xs.foldl turn s) a = get s a := by
  induction xs generalizing s with
  | nil => rfl
  | cons i xs ih =>
    rw [List.map_cons, List.mem_cons, not_or] at hNot
    rw [List.foldl_cons, ih hNot.2 (h.keeps s i hs), h.get_turn s i a hs, if_neg (Ne.symm hNot.1)]

/-- What the loop makes of a key, when the items have different keys. -/
theorem get_foldl (h : LocalTurn Inv get key f turn) {xs : List ι} (hNodup : (xs.map key).Nodup)
    (hs : Inv s) (a : κ) :
    get (xs.foldl turn s) a =
      (xs.find? fun i => decide (key i = a)).elim (get s a) fun i => f i (get s a) := by
  induction xs generalizing s with
  | nil => rfl
  | cons i xs ih =>
    rw [List.map_cons, List.nodup_cons] at hNodup
    rw [List.foldl_cons, List.find?_cons]
    by_cases hKey : key i = a
    · rw [decide_eq_true hKey, h.get_foldl_of_not_mem (hKey ▸ hNodup.1) (h.keeps s i hs),
        h.get_turn s i a hs, if_pos hKey]
      rfl
    · rw [decide_eq_false hKey, ih hNodup.2 (h.keeps s i hs), h.get_turn s i a hs, if_neg hKey]

/-- What every turn keeps that finds its key in good order, the loop keeps when all keys are in
    good order at its start. -/
theorem foldl_of_good (h : LocalTurn Inv get key f turn) {P : σ → Prop} {G : ι → ω → Prop}
    (hTurn : ∀ s i, Inv s → G i (get s (key i)) → P s → P (turn s i)) {xs : List ι}
    (hNodup : (xs.map key).Nodup) (hs : Inv s) (hGood : ∀ i ∈ xs, G i (get s (key i)))
    (hP : P s) : P (xs.foldl turn s) := by
  induction xs generalizing s with
  | nil => exact hP
  | cons i xs ih =>
    rw [List.map_cons, List.nodup_cons] at hNodup
    refine ih hNodup.2 (h.keeps s i hs) (fun j hj => ?_)
      (hTurn s i hs (hGood i List.mem_cons_self) hP)
    have hOther : key i ≠ key j := fun hSame => hNodup.1 (hSame ▸ List.mem_map_of_mem hj)
    rw [h.get_turn s i _ hs, if_neg hOther]
    exact hGood j (List.mem_cons_of_mem _ hj)

end LocalTurn

/-! ## Loops over maps and sets -/

section Ordered

variable [Ord κ] [Std.TransOrd κ] [Std.LawfulEqOrd κ]

omit [DecidableEq κ] in
theorem nodup_keys_toList (m : Std.ExtTreeMap κ β) : (m.toList.map Prod.fst).Nodup := by
  rw [List.Nodup, List.pairwise_map]
  refine Std.ExtTreeMap.distinct_keys_toList.imp fun hNe hSame => ?_
  exact hNe (Std.compare_eq_iff_eq.mpr hSame)

omit [DecidableEq κ] in
theorem nodup_toList_set (t : Std.ExtTreeSet κ) : t.toList.Nodup :=
  Std.ExtTreeSet.distinct_toList.imp fun hNe hSame => hNe (Std.compare_eq_iff_eq.mpr hSame)

omit [DecidableEq κ] [Std.LawfulEqOrd κ] in
theorem toList_empty_map : (∅ : Std.ExtTreeMap κ β).toList = [] := by
  rw [← List.isEmpty_iff, Std.ExtTreeMap.isEmpty_toList]
  exact Std.ExtTreeMap.isEmpty_empty

omit [DecidableEq κ] [Std.LawfulEqOrd κ] in
theorem toList_empty_set : (∅ : Std.ExtTreeSet κ).toList = [] := by
  rw [← List.isEmpty_iff, Std.ExtTreeSet.isEmpty_toList]
  exact Std.ExtTreeSet.isEmpty_empty

theorem find?_toList (m : Std.ExtTreeMap κ β) (a : κ) :
    (m.toList.find? fun i => decide (i.1 = a)) = m[a]?.map fun v => (a, v) := by
  ext ⟨k, v⟩
  rw [find?_key_eq_some_iff (nodup_keys_toList m), Std.ExtTreeMap.mem_toList_iff_getElem?_eq_some]
  constructor
  · rintro ⟨hGet, rfl⟩
    simp [hGet]
  · intro h
    obtain ⟨w, hGet, hPair⟩ := Option.map_eq_some_iff.mp h
    cases hPair
    exact ⟨hGet, rfl⟩

theorem find?_toList_set (t : Std.ExtTreeSet κ) (a : κ) :
    (t.toList.find? fun k => decide (k = a)) = if t.contains a then some a else none := by
  ext k
  have hNodup : (t.toList.map fun k => k).Nodup := by simpa using nodup_toList_set t
  rw [find?_key_eq_some_iff hNodup, Std.ExtTreeSet.mem_toList, ← Std.ExtTreeSet.contains_iff_mem,
    Option.ite_none_right_eq_some, Option.some.injEq]
  constructor
  · rintro ⟨hMem, rfl⟩
    exact ⟨hMem, rfl⟩
  · rintro ⟨hMem, rfl⟩
    exact ⟨hMem, rfl⟩

variable {Inv : σ → Prop} {get : σ → κ → ω} {s : σ}

/-- What a loop over a map makes of a key. -/
theorem LocalTurn.get_foldl_map {f : κ × β → ω → ω} {turn : σ → κ × β → σ}
    (h : LocalTurn Inv get Prod.fst f turn) (m : Std.ExtTreeMap κ β) (hs : Inv s) (a : κ) :
    get (m.toList.foldl turn s) a = m[a]?.elim (get s a) fun v => f (a, v) (get s a) := by
  rw [h.get_foldl (nodup_keys_toList m) hs, find?_toList]
  cases m[a]? <;> rfl

/-- What a loop over a set makes of a key. -/
theorem LocalTurn.get_foldl_set {f : κ → ω → ω} {turn : σ → κ → σ}
    (h : LocalTurn Inv get id f turn) (t : Std.ExtTreeSet κ) (hs : Inv s) (a : κ) :
    get (t.toList.foldl turn s) a = if t.contains a then f a (get s a) else get s a := by
  rw [h.get_foldl (by simpa using nodup_toList_set t) hs]
  simp only [id_eq]
  rw [find?_toList_set]
  split <;> rfl

/-- A map that is filled from the entries of another one that pass a test. -/
theorem getElem?_foldl_insert_if {γ : Type} (p : κ × β → Prop) [DecidablePred p] (v : κ × β → γ)
    (m : Std.ExtTreeMap κ β) (a : κ) :
    (m.toList.foldl (fun acc i => if p i then acc.insert i.1 (v i) else acc)
      (∅ : Std.ExtTreeMap κ γ))[a]? =
      m[a]?.bind fun b => if p (a, b) then some (v (a, b)) else none := by
  have hTurn : LocalTurn (fun _ => True) (fun (acc : Std.ExtTreeMap κ γ) a => acc[a]?) Prod.fst
      (fun i old => if p i then some (v i) else old)
      fun acc i => if p i then acc.insert i.1 (v i) else acc :=
    { keeps := fun _ _ _ => trivial
      get_turn := fun acc i a _ => by
        by_cases hp : p i <;> simp [hp] }
  rw [hTurn.get_foldl_map m trivial]
  cases m[a]? <;> simp

end Ordered

end Pointwise
