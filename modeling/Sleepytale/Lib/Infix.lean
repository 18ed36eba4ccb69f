import Mathlib.Data.List.DropRight
import Mathlib.Data.List.Infix

/-!
# Looking for a pattern in a stream

A pattern that occurs in a stream with a new piece at its end occurs in the
stream before, or in the piece together with the last bytes before it, one fewer
than the pattern has.
-/

namespace Sleepytale.Lib.Infix

variable {α : Type*}

/-- `list.windows(n)`: the contiguous parts of length `n`, from left to right. -/
def windows (n : Nat) (list : List α) : List (List α) :=
  (List.range (list.length + 1 - n)).map fun i => (list.drop i).take n

theorem any_windows_iff [DecidableEq α] (pattern list : List α) :
    ((windows pattern.length list).any fun window => window == pattern) = true ↔
      pattern <:+: list := by
  simp only [windows, List.any_map, List.any_eq_true, List.mem_range, Function.comp_apply,
    beq_iff_eq]
  constructor
  · rintro ⟨i, _, hi⟩
    rw [← hi]
    exact (List.take_prefix _ _).isInfix.trans (List.drop_suffix _ _).isInfix
  · rintro ⟨before, after, rfl⟩
    refine ⟨before.length, ?_, ?_⟩
    · simp only [List.length_append]
      omega
    · rw [List.append_assoc, List.drop_left, List.take_left]

theorem rtake_append_eq_drop (list piece : List α) (n : Nat) :
    list.rtake n ++ piece = (list ++ piece).drop (list.length - n) := by
  rw [List.drop_append_of_le_length (Nat.sub_le _ _)]
  rfl

/-- The last `n` elements can be kept up to date from themselves. -/
theorem rtake_append (list piece : List α) (n : Nat) :
    (list.rtake n ++ piece).rtake n = (list ++ piece).rtake n := by
  rw [rtake_append_eq_drop, List.rtake, List.rtake, List.drop_drop, List.length_drop,
    List.length_append]
  congr 1
  omega

theorem infix_append_iff {pattern : List α} (hne : pattern ≠ []) (stream piece : List α) :
    pattern <:+: stream ++ piece ↔
      pattern <:+: stream ∨ pattern <:+: stream.rtake (pattern.length - 1) ++ piece := by
  have hpos : 0 < pattern.length := List.length_pos_iff.mpr hne
  constructor
  · rintro ⟨before, after, h⟩
    by_cases hin : before.length + pattern.length ≤ stream.length
    · -- The occurrence ends within the stream.
      left
      have hlen : (before ++ pattern).length ≤ stream.length := by
        rw [List.length_append]
        exact hin
      have hwhole : before ++ pattern <+: stream :=
        List.prefix_of_prefix_length_le ⟨after, h⟩ (List.prefix_append _ _) hlen
      exact (List.suffix_append before pattern).isInfix.trans hwhole.isInfix
    · right
      rw [rtake_append_eq_drop, ← h, List.append_assoc, List.drop_append_of_le_length (by omega)]
      exact ⟨_, after, List.append_assoc _ _ _⟩
  · rintro (h | h)
    · exact h.trans (List.prefix_append _ _).isInfix
    · rw [rtake_append_eq_drop] at h
      exact h.trans (List.drop_suffix _ _).isInfix

end Sleepytale.Lib.Infix
