import Mathlib.Data.List.Nodup

/-!
# Extensional tree maps with lawful keys

Lookups after one update and after collecting a list, in terms of equality of
keys rather than of the comparison that orders them.
-/

namespace Sleepytale.Lib.Maps

open Std (ExtTreeMap TransOrd LawfulEqOrd)

variable {κ ν : Type*} [Ord κ] [TransOrd κ] [LawfulEqOrd κ]

theorem getElem?_insert_ne (m : ExtTreeMap κ ν) {k a : κ} (v : ν) (h : k ≠ a) :
    (m.insert k v)[a]? = m[a]? := by
  rw [ExtTreeMap.getElem?_insert, if_neg]
  exact fun he => h (LawfulEqOrd.eq_of_compare he)

theorem getElem?_insert_eq [DecidableEq κ] (m : ExtTreeMap κ ν) (k a : κ) (v : ν) :
    (m.insert k v)[a]? = if k = a then some v else m[a]? := by
  by_cases h : k = a
  · subst h
    rw [ExtTreeMap.getElem?_insert_self, if_pos rfl]
  · rw [getElem?_insert_ne m v h, if_neg h]

/-- An entry after an update is the new one, or was there before under another key. -/
theorem getElem?_insert_cases [DecidableEq κ] {m : ExtTreeMap κ ν} {k a : κ} {v w : ν}
    (h : (m.insert k v)[a]? = some w) : a = k ∧ w = v ∨ a ≠ k ∧ m[a]? = some w := by
  by_cases he : a = k
  · subst he
    rw [ExtTreeMap.getElem?_insert_self, Option.some.injEq] at h
    exact Or.inl ⟨rfl, h.symm⟩
  · rw [getElem?_insert_ne m v (Ne.symm he)] at h
    exact Or.inr ⟨he, h⟩

/-- Inserting a value again where it already stands changes nothing. -/
theorem insert_same (m : ExtTreeMap κ ν) {k : κ} {v : ν} (h : m[k]? = some v) :
    m.insert k v = m := by
  apply ExtTreeMap.ext_getElem?
  intro a
  rw [ExtTreeMap.getElem?_insert]
  split
  · next he => rw [← LawfulEqOrd.eq_of_compare he, h]
  · rfl

omit [TransOrd κ] in
theorem distinct_of_nodup {l : List (κ × ν)} (h : (l.map Prod.fst).Nodup) :
    l.Pairwise (fun a b => ¬ compare a.1 b.1 = .eq) := by
  rw [List.Nodup, List.pairwise_map] at h
  exact h.imp fun hne he => hne (LawfulEqOrd.eq_of_compare he)

/-- Collecting pairs with distinct keys loses none of them. -/
theorem size_ofList {l : List (κ × ν)} (h : (l.map Prod.fst).Nodup) :
    (ExtTreeMap.ofList l).size = l.length :=
  ExtTreeMap.size_ofList (distinct_of_nodup h)

theorem getElem?_ofList [DecidableEq κ] {l : List (κ × ν)} (h : (l.map Prod.fst).Nodup)
    (k : κ) (v : ν) : (ExtTreeMap.ofList l)[k]? = some v ↔ (k, v) ∈ l := by
  constructor
  · intro hv
    have hk : k ∈ l.map Prod.fst := by
      by_contra hk
      rw [ExtTreeMap.getElem?_ofList_of_contains_eq_false (by simpa using hk)] at hv
      cases hv
    obtain ⟨⟨k', v'⟩, hm, rfl⟩ := List.mem_map.mp hk
    have hv' : (ExtTreeMap.ofList l)[k']? = some v' :=
      ExtTreeMap.getElem?_ofList_of_mem Std.ReflCmp.compare_self (distinct_of_nodup h) hm
    rw [hv'] at hv
    obtain rfl := Option.some.inj hv
    exact hm
  · intro hm
    exact ExtTreeMap.getElem?_ofList_of_mem Std.ReflCmp.compare_self (distinct_of_nodup h) hm

/-- Collecting pairs invents no entry, whatever their keys. -/
theorem mem_of_getElem?_ofList [DecidableEq κ] {l : List (κ × ν)} {k : κ} {v : ν}
    (h : (ExtTreeMap.ofList l)[k]? = some v) : (k, v) ∈ l := by
  have hfold : ∀ (l : List (κ × ν)) (m : ExtTreeMap κ ν),
      (l.foldl (fun m entry => m.insert entry.1 entry.2) m)[k]? = some v →
        (k, v) ∈ l ∨ m[k]? = some v := by
    intro l
    induction l with
    | nil => exact fun m hm => Or.inr hm
    | cons entry l ih =>
      intro m hm
      rcases ih _ hm with hl | hi
      · exact Or.inl (List.mem_cons_of_mem _ hl)
      · rcases getElem?_insert_cases hi with ⟨rfl, rfl⟩ | ⟨_, hi⟩
        · exact Or.inl List.mem_cons_self
        · exact Or.inr hi
  rw [ExtTreeMap.ofList_eq_foldl] at h
  rcases hfold l ∅ h with hl | he
  · exact hl
  · simp at he

omit [LawfulEqOrd κ] in
theorem nodup_toList_fst (m : ExtTreeMap κ ν) : (m.toList.map Prod.fst).Nodup := by
  rw [ExtTreeMap.map_fst_toList_eq_keys]
  exact ExtTreeMap.nodup_keys

/-- However the entries of a map are listed, the ones under one key are what a
lookup finds. -/
theorem filterMap_key_of_perm [DecidableEq κ] {m : ExtTreeMap κ ν} {l : List (κ × ν)}
    (h : l.Perm m.toList) (k : κ) :
    (l.filterMap fun entry => if entry.1 = k then some entry.2 else none) = m[k]?.toList := by
  have hnodup : (l.map Prod.fst).Nodup := by
    rw [(h.map Prod.fst).nodup_iff]
    exact nodup_toList_fst m
  have hmem : ∀ v, (k, v) ∈ l ↔ m[k]? = some v := fun v => by
    rw [h.mem_iff, ExtTreeMap.mem_toList_iff_getElem?_eq_some]
  generalize m[k]? = found at hmem
  clear h
  induction l generalizing found with
  | nil =>
    cases found with
    | none => rfl
    | some v => simpa using (hmem v).mpr rfl
  | cons entry l ih =>
    rw [List.map_cons, List.nodup_cons] at hnodup
    by_cases he : entry.1 = k
    · have hfound : found = some entry.2 := (hmem entry.2).mp (by rw [← he]; simp)
      have hrest : ∀ v, (k, v) ∈ l ↔ none = some v := by
        intro v
        refine ⟨fun hv => (hnodup.1 ?_).elim, fun he => by cases he⟩
        rw [he]
        exact List.mem_map.mpr ⟨(k, v), hv, rfl⟩
      rw [List.filterMap_cons, if_pos he, ih hnodup.2 none hrest, hfound]
      rfl
    · have hrest : ∀ v, (k, v) ∈ l ↔ found = some v := by
        intro v
        rw [← hmem v, List.mem_cons]
        refine ⟨Or.inr, fun hv => hv.resolve_left ?_⟩
        intro heq
        exact he (by rw [← heq])
      rw [List.filterMap_cons, if_neg he]
      exact ih hnodup.2 found hrest

theorem getElem?_erase_ne (m : ExtTreeMap κ ν) {k a : κ} (h : k ≠ a) :
    (m.erase k)[a]? = m[a]? := by
  rw [ExtTreeMap.getElem?_erase, if_neg]
  exact fun he => h (LawfulEqOrd.eq_of_compare he)

theorem keys_erase [DecidableEq κ] (m : ExtTreeMap κ ν) (k : κ) :
    (m.erase k).keys = m.keys.filter (· ≠ k) := by
  have herased : (m.erase k).keys.Pairwise fun a b => compare a b = .lt := ExtTreeMap.ordered_keys
  have hkept : (m.keys.filter (· ≠ k)).Pairwise fun a b => compare a b = .lt :=
    ExtTreeMap.ordered_keys.filter _
  refine List.Perm.eq_of_pairwise ?_ herased hkept ?_
  · intro a b _ _ hab hba
    rw [Std.OrientedCmp.gt_iff_lt.mpr hba] at hab
    cases hab
  · rw [List.perm_ext_iff_of_nodup ExtTreeMap.nodup_keys (ExtTreeMap.nodup_keys.filter _)]
    intro a
    rw [ExtTreeMap.mem_keys, List.mem_filter, ExtTreeMap.mem_keys, ExtTreeMap.mem_erase]
    constructor
    · intro h
      refine ⟨h.2, ?_⟩
      simp only [decide_eq_true_eq]
      intro heq
      exact h.1 (by rw [heq]; exact Std.ReflCmp.compare_self)
    · intro h
      refine ⟨?_, h.1⟩
      intro heq
      have hne : a ≠ k := by simpa using h.2
      exact hne (LawfulEqOrd.eq_of_compare heq).symm

end Sleepytale.Lib.Maps
