import Mathlib.Data.List.Induction
import Sleepytale.Lib.Maps

/-!
# A map that keeps the first keys of a history

`put` overwrites a key that is present and adds a new one only while the map is
smaller than its cap. After any history of puts the map assigns to each of the
first `cap` distinct keys its latest value, and nothing else.
-/

namespace Sleepytale.Lib.Capped

open Sleepytale.Lib.Maps
open Std (ExtTreeMap TransOrd LawfulEqOrd)

section History

variable {κ ν : Type*} [DecidableEq κ]

/-- The distinct keys of a history, in order of first appearance. -/
def firsts (history : List (κ × ν)) : List κ :=
  history.foldl (fun seen entry => if entry.1 ∈ seen then seen else seen ++ [entry.1]) []

/-- The value a history last gave to a key. -/
def latest (k : κ) (history : List (κ × ν)) : Option ν :=
  history.foldl (fun value entry => if entry.1 = k then some entry.2 else value) none

theorem firsts_snoc (history : List (κ × ν)) (entry : κ × ν) :
    firsts (history ++ [entry]) =
      if entry.1 ∈ firsts history then firsts history else firsts history ++ [entry.1] := by
  rw [firsts, List.foldl_append]
  rfl

theorem latest_snoc (k : κ) (history : List (κ × ν)) (entry : κ × ν) :
    latest k (history ++ [entry]) = if entry.1 = k then some entry.2 else latest k history := by
  rw [latest, List.foldl_append]
  rfl

theorem mem_firsts {history : List (κ × ν)} {k : κ} :
    k ∈ firsts history ↔ latest k history ≠ none := by
  induction history using List.reverseRecOn with
  | nil => simp [firsts, latest]
  | append_singleton history entry ih =>
    rw [firsts_snoc, latest_snoc]
    by_cases hk : entry.1 = k
    · subst hk
      by_cases hm : entry.1 ∈ firsts history <;> simp [hm]
    · have hk' : k ≠ entry.1 := fun he => hk he.symm
      by_cases hm : entry.1 ∈ firsts history <;> simp [hm, hk, hk', ih]

end History

variable {κ ν : Type*} [Ord κ] [TransOrd κ]

def put (cap : Nat) (m : ExtTreeMap κ ν) (k : κ) (v : ν) : ExtTreeMap κ ν :=
  if k ∉ m ∧ m.size ≥ cap then m else m.insert k v

def capped (cap : Nat) (history : List (κ × ν)) : ExtTreeMap κ ν :=
  history.foldl (fun m entry => put cap m entry.1 entry.2) ∅

theorem capped_snoc (cap : Nat) (history : List (κ × ν)) (entry : κ × ν) :
    capped cap (history ++ [entry]) = put cap (capped cap history) entry.1 entry.2 := by
  rw [capped, List.foldl_append]
  rfl

variable [LawfulEqOrd κ] [DecidableEq κ]

/-- The size of the map and what it maps, after any history. -/
theorem capped_spec (cap : Nat) (history : List (κ × ν)) :
    (capped cap history).size = min cap (firsts history).length ∧
    ∀ k : κ, (capped cap history)[k]? =
      if k ∈ (firsts history).take cap then latest k history else none := by
  induction history using List.reverseRecOn with
  | nil => simp [capped, firsts]
  | append_singleton history entry ih =>
    obtain ⟨k₀, v₀⟩ := entry
    obtain ⟨hsize, hget⟩ := ih
    have hmem : k₀ ∈ capped cap history ↔ k₀ ∈ (firsts history).take cap := by
      rw [← ExtTreeMap.isSome_getElem?_iff_mem, hget]
      by_cases h : k₀ ∈ (firsts history).take cap
      · rw [if_pos h, Option.isSome_iff_ne_none]
        exact iff_of_true (mem_firsts.mp (List.mem_of_mem_take h)) h
      · simp [h]
    rw [capped_snoc, firsts_snoc, put]
    simp only [latest_snoc]
    by_cases hseen : k₀ ∈ firsts history
    · rw [if_pos hseen]
      by_cases htake : k₀ ∈ (firsts history).take cap
      · -- The key is held: its value is replaced.
        have hin := hmem.mpr htake
        rw [if_neg (fun h => h.1 hin)]
        refine ⟨?_, fun k => ?_⟩
        · rw [ExtTreeMap.size_insert, if_pos (ExtTreeMap.mem_iff_contains.mp hin), hsize]
        · rw [getElem?_insert_eq, hget]
          by_cases hk : k₀ = k
          · subst hk
            simp [htake]
          · simp [hk]
      · -- The key came after the cap was reached: it is refused again.
        have hlong : cap ≤ (firsts history).length := by
          by_contra hlt
          rw [List.take_of_length_le (by omega)] at htake
          exact htake hseen
        have hfull : (capped cap history).size ≥ cap := by omega
        rw [if_pos ⟨fun hin => htake (hmem.mp hin), hfull⟩]
        refine ⟨hsize, fun k => ?_⟩
        rw [hget]
        by_cases hk : k₀ = k
        · subst hk
          simp [htake]
        · simp [hk]
    · rw [if_neg hseen]
      have hout : k₀ ∉ capped cap history := fun hin => hseen (List.mem_of_mem_take (hmem.mp hin))
      have hlength : (firsts history ++ [k₀]).length = (firsts history).length + 1 := by simp
      by_cases hroom : (firsts history).length < cap
      · have hsmall : ¬ (capped cap history).size ≥ cap := by omega
        rw [if_neg (fun h => hsmall h.2), List.take_of_length_le (by omega)]
        refine ⟨?_, fun k => ?_⟩
        · rw [ExtTreeMap.size_insert, if_neg (fun h => hout (ExtTreeMap.mem_iff_contains.mpr h)),
            hsize, hlength]
          omega
        · rw [getElem?_insert_eq, hget, List.take_of_length_le (by omega)]
          by_cases hk : k₀ = k
          · subst hk
            simp
          · have hk' : k ≠ k₀ := fun he => hk he.symm
            simp [hk, hk']
      · have hfull : (capped cap history).size ≥ cap := by omega
        have htake : (firsts history ++ [k₀]).take cap = (firsts history).take cap :=
          List.take_append_of_le_length (by omega)
        rw [if_pos ⟨hout, hfull⟩, htake]
        refine ⟨by omega, fun k => ?_⟩
        rw [hget]
        by_cases hk : k₀ = k
        · subst hk
          have hno : k₀ ∉ (firsts history).take cap := fun h => hseen (List.mem_of_mem_take h)
          simp [hno]
        · simp [hk]

end Sleepytale.Lib.Capped
