/-
  Lookup in extensional tree maps and sets over a lawfully ordered key type: the
  library lemmas speak about `cmp k a = .eq`, the ones here about `k = a`, and
  they are the simp set of every proof about a map update.
-/

import Mathlib.Algebra.BigOperators.Group.List.Basic
import Mathlib.Algebra.Order.Ring.Int
import Mathlib.Data.List.Nodup

namespace TreeMap

variable {κ β γ : Type} [Ord κ] [Std.TransOrd κ] [Std.LawfulEqOrd κ] [DecidableEq κ]
  (m : Std.ExtTreeMap κ β) (k a : κ)

@[simp] theorem getElem?_insert_eq (v : β) :
    (m.insert k v)[a]? = if k = a then some v else m[a]? := by
  simp [Std.ExtTreeMap.getElem?_insert]

omit [Std.LawfulEqOrd κ] [DecidableEq κ] in
theorem getD_of_get {m : Std.ExtTreeMap κ β} {k : κ} {v d : β} (h : m[k]? = some v) :
    m.getD k d = v := by
  rw [Std.ExtTreeMap.getD_eq_getD_getElem?, h, Option.getD_some]

theorem getD_insert_eq (v d : β) : (m.insert k v).getD a d = if k = a then v else m.getD a d := by
  simp only [Std.ExtTreeMap.getD_eq_getD_getElem?, getElem?_insert_eq]
  split <;> rfl

@[simp] theorem getElem?_erase_eq : (m.erase k)[a]? = if k = a then none else m[a]? := by
  simp [Std.ExtTreeMap.getElem?_erase]

@[simp] theorem getElem?_modify_eq (f : β → β) :
    (m.modify k f)[a]? = if k = a then m[a]?.map f else m[a]? := by
  rw [Std.ExtTreeMap.getElem?_modify]
  simp only [Std.compare_eq_iff_eq]
  split
  · rename_i hEq
    rw [hEq]
  · rfl

theorem getD_modify_map (m : Std.ExtTreeMap κ (List β)) (f : β → β) :
    (m.modify k (·.map f)).getD a [] = if k = a then (m.getD a []).map f else m.getD a [] := by
  simp only [Std.ExtTreeMap.getD_eq_getD_getElem?, getElem?_modify_eq]
  split
  · cases m[a]? <;> rfl
  · rfl

variable {m k}

/-! ## What holds of every entry -/

section Entries

variable {P : κ → β → Prop} (h : ∀ (a : κ) (v : β), m[a]? = some v → P a v)

include h

theorem forall_insert {v : β} (hv : P k v) (a : κ) (w : β) (hGet : (m.insert k v)[a]? = some w) :
    P a w := by
  rw [getElem?_insert_eq] at hGet
  split at hGet
  · rename_i hKey
    cases hGet
    exact hKey ▸ hv
  · exact h a w hGet

theorem forall_erase (a : κ) (v : β) (hGet : (m.erase k)[a]? = some v) : P a v := by
  rw [getElem?_erase_eq] at hGet
  split at hGet
  · cases hGet
  · exact h a v hGet

theorem forall_modify {f : β → β} (hf : ∀ v, P k v → P k (f v)) (a : κ) (w : β)
    (hGet : (m.modify k f)[a]? = some w) : P a w := by
  rw [getElem?_modify_eq] at hGet
  split at hGet
  · rename_i hKey
    subst hKey
    obtain ⟨v, hv, rfl⟩ := Option.map_eq_some_iff.mp hGet
    exact hf v (h _ v hv)
  · exact h a w hGet

end Entries

/-! ## Two updates of one key -/

theorem insert_empty_inj {v v' : β} {k' : κ}
    (h : (∅ : Std.ExtTreeMap κ β).insert k v = (∅ : Std.ExtTreeMap κ β).insert k' v') :
    k = k' ∧ v = v' := by
  have hAt := congrArg (·[k]?) h
  simp only [getElem?_insert_eq, if_true] at hAt
  split at hAt
  · rename_i hKey
    exact ⟨hKey.symm, Option.some.inj hAt⟩
  · cases hAt

@[simp] theorem erase_insert {v : β} : (m.insert k v).erase k = m.erase k := by
  apply Std.ExtTreeMap.ext_getElem?
  intro a
  by_cases hEq : k = a <;> simp [hEq]

@[simp] theorem insert_erase {v : β} : (m.erase k).insert k v = m.insert k v := by
  apply Std.ExtTreeMap.ext_getElem?
  intro a
  by_cases hEq : k = a <;> simp [hEq]

@[simp] theorem modify_insert {v : β} {f : β → β} : (m.insert k v).modify k f = m.insert k
    (f v) := by
  apply Std.ExtTreeMap.ext_getElem?
  intro a
  by_cases hEq : k = a <;> simp [hEq]

@[simp] theorem modify_modify {f g : β → β} :
    (m.modify k f).modify k g = m.modify k fun v => g (f v) := by
  apply Std.ExtTreeMap.ext_getElem?
  intro a
  by_cases hEq : k = a
  · subst hEq
    simp [Function.comp_def]
  · simp [hEq]

/-! ## Updates that change nothing -/

@[simp] theorem erase_eq_self_iff : m.erase k = m ↔ m[k]? = none := by
  constructor
  · intro h
    rw [← h]
    simp
  · intro h
    apply Std.ExtTreeMap.ext_getElem?
    intro a
    rw [getElem?_erase_eq]
    split
    · rename_i hEq
      rw [← hEq, h]
    · rfl

@[simp] theorem insert_eq_self_iff {v : β} : m.insert k v = m ↔ m[k]? = some v := by
  constructor
  · intro h
    rw [← h]
    simp
  · intro h
    apply Std.ExtTreeMap.ext_getElem?
    intro a
    rw [getElem?_insert_eq]
    split
    · rename_i hEq
      rw [← hEq, h]
    · rfl

/-- A value other than the default is written back. -/
theorem insert_getD_eq_self {d : β} (h : m.getD k d ≠ d) : m.insert k (m.getD k d) = m := by
  rw [insert_eq_self_iff]
  rw [Std.ExtTreeMap.getD_eq_getD_getElem?] at h ⊢
  cases hGet : m[k]? with
  | none =>
    rw [hGet] at h
    exact absurd rfl h
  | some v => rfl

@[simp] theorem modify_eq_self_iff {f : β → β} : m.modify k f = m ↔ ∀ v, m[k]? = some v →
    f v = v := by
  constructor
  · intro h v hGet
    have hSame : (m.modify k f)[k]? = m[k]? := by rw [h]
    rw [getElem?_modify_eq, if_pos rfl, hGet] at hSame
    simpa using hSame
  · intro h
    apply Std.ExtTreeMap.ext_getElem?
    intro a
    rw [getElem?_modify_eq]
    split
    · rename_i hEq
      subst hEq
      cases hGet : m[k]? with
      | none => rfl
      | some v => rw [Option.map_some, h v hGet]
    · rfl

/-- Only the value at the key matters for a modification. -/
theorem modify_congr {f g : β → β} (h : ∀ v, m[k]? = some v → f v = g v) :
    m.modify k f = m.modify k g := by
  apply Std.ExtTreeMap.ext_getElem?
  intro a
  rw [getElem?_modify_eq, getElem?_modify_eq]
  split
  · rename_i hEq
    subst hEq
    cases hGet : m[k]? with
    | none => rfl
    | some v => rw [Option.map_some, Option.map_some, h v hGet]
  · rfl

omit [DecidableEq κ] in
@[simp] theorem setErase_eq_self_iff {s : Std.ExtTreeSet κ} : s.erase k = s ↔
    s.contains k = false := by
  constructor
  · intro h
    rw [← h]
    simp
  · intro h
    apply Std.ExtTreeSet.ext_contains
    intro a
    rw [Std.ExtTreeSet.contains_erase]
    by_cases hEq : compare k a = .eq
    · rw [Std.LawfulEqOrd.eq_of_compare hEq] at h
      simp [h]
    · simp [hEq]

omit [Ord κ] [Std.TransOrd κ] [Std.LawfulEqOrd κ] [DecidableEq κ] in
/-- The members of a set after a loop of insertions. -/
theorem contains_foldl_insert {cmp : κ → κ → Ordering} [Std.TransCmp cmp] [Std.LawfulEqCmp cmp]
    {s : Std.ExtTreeSet κ cmp} (f : γ → κ) (xs : List γ) :
    (xs.foldl (fun s x => s.insert (f x)) s).contains k = true ↔
      s.contains k = true ∨ ∃ x ∈ xs, f x = k := by
  induction xs generalizing s with
  | nil => simp
  | cons x xs ih =>
    rw [List.foldl_cons, ih]
    simp [or_assoc, or_left_comm]

/-- The values of a map in the order of the keys. -/
def vals (m : Std.ExtTreeMap κ β) : List β := m.toList.map Prod.snd

omit [DecidableEq κ] in
theorem mem_vals {v : β} : v ∈ vals m ↔ ∃ a : κ, m[a]? = some v := by
  simp [vals]

omit [DecidableEq κ] in
theorem nodup_toList : m.toList.Nodup := by
  refine List.Pairwise.imp ?_ Std.ExtTreeMap.distinct_keys_toList
  rintro x y hNe rfl
  exact hNe (Std.compare_eq_iff_eq.mpr rfl)

omit [DecidableEq κ] in
/-- The values in the order of any list of all keys. -/
theorem vals_perm {ks : List κ} (hNodup : ks.Nodup)
    (hAll : ∀ (a : κ) (v : β), m[a]? = some v → a ∈ ks) : (vals m).Perm
      (ks.filterMap fun a => m[a]?) := by
  have hEntries : m.toList.Perm (ks.filterMap fun a => (m[a]?).map (Prod.mk a)) := by
    refine (List.perm_ext_iff_of_nodup nodup_toList (List.Nodup.filterMap ?_ hNodup)).mpr ?_
    · rintro a b ⟨c, v⟩ ha hb
      simp only [Option.mem_def, Option.map_eq_some_iff, Prod.mk.injEq] at ha hb
      obtain ⟨_, _, rfl, _⟩ := ha
      obtain ⟨_, _, rfl, _⟩ := hb
      rfl
    · rintro ⟨a, v⟩
      simp only [Std.ExtTreeMap.mem_toList_iff_getElem?_eq_some, List.mem_filterMap,
        Option.map_eq_some_iff, Prod.mk.injEq]
      constructor
      · exact fun h => ⟨a, hAll a v h, v, h, rfl, rfl⟩
      · rintro ⟨_, _, _, h, rfl, rfl⟩
        exact h
  refine (hEntries.map Prod.snd).trans (List.Perm.of_eq ?_)
  rw [List.map_filterMap]
  exact List.filterMap_congr fun a _ => by cases m[a]? <;> rfl

/-- An entry can be listed first. -/
theorem toList_perm_of_getElem? {v : β} (h : m[k]? = some v) :
    m.toList.Perm ((k, v) :: (m.erase k).toList) := by
  refine (List.perm_ext_iff_of_nodup nodup_toList (List.nodup_cons.mpr ⟨?_, nodup_toList⟩)).mpr ?_
  · rw [Std.ExtTreeMap.mem_toList_iff_getElem?_eq_some, getElem?_erase_eq]
    simp
  · rintro ⟨a, w⟩
    rw [List.mem_cons, Std.ExtTreeMap.mem_toList_iff_getElem?_eq_some,
      Std.ExtTreeMap.mem_toList_iff_getElem?_eq_some, getElem?_erase_eq, Prod.mk.injEq]
    by_cases hKey : k = a
    · subst hKey
      rw [if_pos rfl, h]
      simp [eq_comm]
    · rw [if_neg hKey]
      simp [Ne.symm hKey]

/-- An entry can be taken out of a sum over the values. -/
theorem sum_vals_of_getElem? {M : Type} [AddCommMonoid M] (f : β → M) {v : β} (h : m[k]? = some v) :
    ((vals m).map f).sum = f v + ((vals (m.erase k)).map f).sum := by
  unfold vals
  rw [(((toList_perm_of_getElem? h).map Prod.snd).map f).sum_eq]
  rfl

/-- The sum of a quantity over the values of a map. -/
def total (f : β → ℤ) (m : Std.ExtTreeMap κ β) : ℤ := ((vals m).map f).sum

theorem total_erase (f : β → ℤ) :
    total f m = total f (m.erase k) + (m[k]?.map f).getD 0 := by
  cases hGet : m[k]? with
  | none => rw [erase_eq_self_iff.mpr hGet, Option.map_none, Option.getD_none, add_zero]
  | some v =>
    unfold total
    rw [sum_vals_of_getElem? f hGet, Option.map_some, Option.getD_some, add_comm]

theorem total_insert (f : β → ℤ) (v : β) :
    total f (m.insert k v) = total f m - (m[k]?.map f).getD 0 + f v := by
  rw [total_erase f (m := m) (k := k), total_erase f (m := m.insert k v) (k := k), erase_insert]
  simp

theorem total_modify (f : β → ℤ) {g : β → β} {v : β} (h : m[k]? = some v) :
    total f (m.modify k g) = total f m - f v + f (g v) := by
  have hInsert : m.modify k g = m.insert k (g v) := by
    refine Std.ExtTreeMap.ext_getElem? fun a => ?_
    rw [getElem?_modify_eq, getElem?_insert_eq]
    split
    · rename_i hKey
      rw [← hKey, h, Option.map_some]
    · rfl
  rw [hInsert, total_insert, h, Option.map_some, Option.getD_some]

omit [DecidableEq κ] in
/-- What a partial function yields for the values is free of duplicates when no two keys
    yield the same. -/
theorem nodup_filterMap_vals {f : β → Option γ}
    (h : ∀ (a b : κ) (v w : β) (g : γ), m[a]? = some v → m[b]? = some w → f v = some g →
      f w = some g → a = b) : ((vals m).filterMap f).Nodup := by
  unfold vals List.Nodup
  rw [List.filterMap_map, List.pairwise_filterMap]
  refine List.Pairwise.imp_of_mem ?_ Std.ExtTreeMap.distinct_keys_toList
  intro x y hx hy hNe g hg g' hg' hEq
  subst hEq
  rw [Std.ExtTreeMap.mem_toList_iff_getElem?_eq_some] at hx hy
  exact hNe (Std.compare_eq_iff_eq.mpr (h x.1 y.1 x.2 y.2 g hx hy hg hg'))

omit [DecidableEq κ] in
/-- At most one value yields something with a property when only one key can. -/
theorem countP_filterMap_vals_le_one {f : β → Option γ} {p : γ → Bool}
    (h : ∀ (a b : κ) (v w : β) (x y : γ), m[a]? = some v → m[b]? = some w → f v = some x →
      f w = some y → p x = true → p y = true → a = b) :
    ((vals m).filterMap f).countP p ≤ 1 := by
  have hNodup : ((vals m).filterMap fun v => ((f v).filter p).map fun _ => ()).Nodup := by
    refine nodup_filterMap_vals fun a b v w _ ha hb hv hw => ?_
    obtain ⟨x, hx, _⟩ := Option.map_eq_some_iff.mp hv
    obtain ⟨y, hy, _⟩ := Option.map_eq_some_iff.mp hw
    rw [Option.filter_eq_some_iff] at hx hy
    exact h a b v w x y ha hb hx.1 hy.1 hx.2 hy.2
  have hLength : ((vals m).filterMap f).countP p =
      ((vals m).filterMap fun v => ((f v).filter p).map fun _ => ()).length := by
    rw [← List.map_filterMap, List.length_map, ← List.filter_filterMap,
      List.countP_eq_length_filter]
  rw [hLength]
  generalize ((vals m).filterMap fun v => ((f v).filter p).map fun _ => ()) = units at hNodup ⊢
  match units, hNodup with
  | [], _ => simp
  | [_], _ => simp
  | _ :: _ :: _, hTwo => simp at hTwo

omit [DecidableEq κ] in
/-- The keys of the values that pass a test are free of duplicates when every value knows its
    key. -/
theorem nodup_map_filter_vals {key : β → κ} {p : β → Bool}
    (h : ∀ (a : κ) (v : β), m[a]? = some v → key v = a) :
    (((vals m).filter p).map key).Nodup := by
  have hNodup : ((vals m).filterMap fun v => if p v then some (key v) else none).Nodup := by
    refine nodup_filterMap_vals fun a b v w g ha hb hv hw => ?_
    rw [Option.ite_none_right_eq_some] at hv hw
    rw [← h a v ha, ← h b w hb, Option.some.inj hv.2, Option.some.inj hw.2]
  have hEq : ((vals m).filter p).map key =
      (vals m).filterMap fun v => if p v then some (key v) else none := by
    induction vals m with
    | nil => rfl
    | cons v vs ih =>
      rw [List.filter_cons, List.filterMap_cons]
      split
      · rw [List.map_cons, ih]
      · exact ih
  rw [hEq]
  exact hNodup

/-- A loop of updates leaves the other keys alone. -/
theorem getElem?_foldl_modify_of_not_mem {key : γ → κ} {g : γ → β → β} {xs : List γ}
    (h : ∀ x ∈ xs, key x ≠ a) :
    (xs.foldl (fun m x => m.modify (key x) (g x)) m)[a]? = m[a]? := by
  induction xs generalizing m with
  | nil => rfl
  | cons x xs ih =>
    rw [List.foldl_cons, ih fun y hy => h y (List.mem_cons_of_mem _ hy), getElem?_modify_eq,
      if_neg (h x List.mem_cons_self)]

/-- A loop of updates at different keys updates each of them once. -/
theorem getElem?_foldl_modify_of_mem {key : γ → κ} {g : γ → β → β} {xs : List γ} {x : γ}
    (hx : x ∈ xs) (hNodup : (xs.map key).Nodup) :
    (xs.foldl (fun m x => m.modify (key x) (g x)) m)[key x]? = (m[key x]?).map (g x) := by
  induction xs generalizing m with
  | nil => cases hx
  | cons y xs ih =>
    rw [List.map_cons, List.nodup_cons] at hNodup
    rw [List.foldl_cons]
    rcases List.mem_cons.mp hx with rfl | hRest
    · rw [getElem?_foldl_modify_of_not_mem, getElem?_modify_eq, if_pos rfl]
      intro z hz hKey
      exact hNodup.1 (hKey ▸ List.mem_map_of_mem hz)
    · rw [ih hRest hNodup.2, getElem?_modify_eq, if_neg]
      intro hKey
      exact hNodup.1 (hKey ▸ List.mem_map_of_mem hRest)

end TreeMap
