import Mathlib.Data.List.Induction
import Mathlib.Data.List.Nodup

/-!
# Lists that only grow at the end

Lookups in a list of everything created so far, where an index names the thing
created and appending never moves an older one.
-/

namespace Sleepytale.Lib.Lists

variable {α β : Type*}

theorem getElem?_append_of_some {l : List α} {i : Nat} {a : α} (h : l[i]? = some a)
    (l' : List α) : (l ++ l')[i]? = some a := by
  obtain ⟨hi, _⟩ := List.getElem?_eq_some_iff.mp h
  rw [List.getElem?_append_left hi, h]

theorem getElem?_concat_some {l : List α} {a b : α} {i : Nat}
    (h : (l ++ [a])[i]? = some b) : l[i]? = some b ∨ i = l.length ∧ b = a := by
  rcases Nat.lt_trichotomy i l.length with hi | rfl | hi
  · rw [List.getElem?_append_left hi] at h
    exact Or.inl h
  · rw [List.getElem?_concat_length] at h
    exact Or.inr ⟨rfl, (Option.some.inj h).symm⟩
  · rw [List.getElem?_eq_none (by simp; omega)] at h
    cases h

/-- A lookup in the first of two lists of one length succeeds in the second. -/
theorem exists_getElem?_of_length_eq {l : List α} {l' : List β} (hl : l'.length = l.length)
    {i : Nat} {a : α} (h : l[i]? = some a) : ∃ b, l'[i]? = some b := by
  obtain ⟨hi, _⟩ := List.getElem?_eq_some_iff.mp h
  exact ⟨_, List.getElem?_eq_getElem (by omega)⟩

theorem mapIdx_eq_self {l : List α} {f : Nat → α → α} (h : ∀ i, i < l.length → ∀ a, f i a = a) :
    l.mapIdx f = l := by
  refine List.ext_getElem List.length_mapIdx fun i _ hi => ?_
  rw [List.getElem_mapIdx]
  exact h i hi _

theorem length_flatMap_pair (f g : α → β) (l : List α) :
    (l.flatMap fun a => [f a, g a]).length = 2 * l.length := by
  induction l with
  | nil => rfl
  | cons a l ih =>
    rw [List.flatMap_cons, List.length_append, ih, List.length_cons]
    show 2 + 2 * l.length = 2 * (l.length + 1)
    omega

/-- In a list of pairs laid out flat the first halves stand at the even places. -/
theorem getElem?_flatMap_pair {f g : α → β} {l : List α} {i : Nat} {b : β}
    (h : (l.flatMap fun a => [f a, g a])[i]? = some b) :
    i % 2 = 0 ∧ (∃ a, b = f a) ∨ i % 2 = 1 ∧ ∃ a, b = g a := by
  induction l generalizing i with
  | nil => simp at h
  | cons a l ih =>
    change (f a :: g a :: l.flatMap fun a => [f a, g a])[i]? = some b at h
    rcases i with _ | _ | i
    · exact Or.inl ⟨rfl, a, (Option.some.inj h).symm⟩
    · exact Or.inr ⟨rfl, a, (Option.some.inj h).symm⟩
    · rcases ih h with ⟨heven, hb⟩ | ⟨hodd, hb⟩
      · exact Or.inl ⟨by omega, hb⟩
      · exact Or.inr ⟨by omega, hb⟩

/-- Every entry of a log meets `P`, a condition on the entries before it and the
entry. -/
def Along (P : List α → α → Prop) (log : List α) : Prop :=
  ∀ before a after, log = before ++ a :: after → P before a

variable {P : List α → α → Prop}

theorem along_nil : Along P [] := by
  intro before a after h
  simp at h

theorem Along.concat {log : List α} {a : α} (h : Along P log) (ha : P log a) :
    Along P (log ++ [a]) := by
  intro before b after heq
  rcases after.eq_nil_or_concat with rfl | ⟨after, c, rfl⟩
  · obtain ⟨rfl, hb⟩ := List.append_inj' heq rfl
    cases hb
    exact ha
  · rw [List.concat_eq_append, ← List.cons_append, ← List.append_assoc] at heq
    exact h before b after (List.append_inj' heq rfl).1

theorem Along.of_concat {log : List α} {a : α} (h : Along P (log ++ [a])) : Along P log := by
  intro before b after heq
  apply h before b (after ++ [a])
  rw [heq, List.append_assoc, List.cons_append]

/-- The entries after the last one that meets `p`. -/
def lastStretch (p : α → Bool) (log : List α) : List α :=
  (log.reverse.takeWhile fun a => !p a).reverse

theorem lastStretch_concat (p : α → Bool) (log : List α) (a : α) :
    lastStretch p (log ++ [a]) = if p a then [] else lastStretch p log ++ [a] := by
  unfold lastStretch
  rw [List.reverse_append, List.reverse_singleton, List.singleton_append, List.takeWhile_cons]
  cases p a with
  | true => rfl
  | false => exact List.reverse_cons

/-- Of a list without duplicates at most one element is left exactly if any two
are the same. -/
theorem nodup_length_le_one_iff {α : Type*} {l : List α} (hl : l.Nodup) :
    l.length ≤ 1 ↔ ∀ a ∈ l, ∀ b ∈ l, a = b := by
  cases l with
  | nil => simp
  | cons a l =>
    cases l with
    | nil => simp
    | cons b l =>
      refine iff_of_false (by simp) fun h => ?_
      have hab := h a (by simp) b (by simp)
      simp [hab] at hl

end Sleepytale.Lib.Lists
