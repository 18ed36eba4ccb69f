import Mathlib.Data.List.Infix
import Mathlib.Logic.Relation

/-!
# Channels that may lose but never reorder

A channel remembers what was put into it, what waits in it and what came out,
oldest first. It may refuse an item, replace what waits by a newer item, or lose
what waits. Whatever it does, what came out and what waits is a subsequence of
what went in; a stretch of steps that lose nothing passes everything on.
-/

namespace Sleepytale.Lib

structure Channel (α : Type*) where
  sent : List α
  waiting : List α
  delivered : List α

namespace Channel

open Relation

variable {α : Type*}

/-- Steps that keep every item: one is taken in, or the oldest ones come out. -/
inductive Keeps : Channel α → Channel α → Prop where
  | accept (a : α) (ch : Channel α) :
      Keeps ch ⟨ch.sent ++ [a], ch.waiting ++ [a], ch.delivered⟩
  | deliver {sent out rest delivered : List α} :
      Keeps ⟨sent, out ++ rest, delivered⟩ ⟨sent, rest, delivered ++ out⟩

inductive Step : Channel α → Channel α → Prop where
  | keeps {ch ch' : Channel α} (h : Keeps ch ch') : Step ch ch'
  | refuse (a : α) (ch : Channel α) : Step ch ⟨ch.sent ++ [a], ch.waiting, ch.delivered⟩
  | replace (a : α) (ch : Channel α) : Step ch ⟨ch.sent ++ [a], [a], ch.delivered⟩
  | lose {ch : Channel α} {waiting : List α} (h : waiting.Sublist ch.waiting) :
      Step ch ⟨ch.sent, waiting, ch.delivered⟩

/-- What came out and what waits were put in, in this order and no more often. -/
def Ordered (ch : Channel α) : Prop := (ch.delivered ++ ch.waiting).Sublist ch.sent

/-- Nothing was lost so far. -/
def Lossless (ch : Channel α) : Prop := ch.sent = ch.delivered ++ ch.waiting

theorem Keeps.balance {ch ch' : Channel α} (h : Keeps ch ch') :
    ∃ more, ch'.sent = ch.sent ++ more ∧
      ch'.delivered ++ ch'.waiting = ch.delivered ++ ch.waiting ++ more := by
  cases h with
  | accept a => exact ⟨[a], rfl, (List.append_assoc _ _ _).symm⟩
  | deliver => exact ⟨[], (List.append_nil _).symm, by simp⟩

/-- Over steps that keep every item, what is put in later comes out or waits
behind what was there. -/
theorem balance_of_keeps {ch ch' : Channel α} (h : ReflTransGen Keeps ch ch') :
    ∃ more, ch'.sent = ch.sent ++ more ∧
      ch'.delivered ++ ch'.waiting = ch.delivered ++ ch.waiting ++ more := by
  induction h with
  | refl => exact ⟨[], by simp, by simp⟩
  | tail _ hstep ih =>
    obtain ⟨first, hsent, hrest⟩ := ih
    obtain ⟨last, hsent', hrest'⟩ := hstep.balance
    exact ⟨first ++ last, by rw [hsent', hsent, List.append_assoc],
      by rw [hrest', hrest, List.append_assoc]⟩

theorem Ordered.of_step {ch ch' : Channel α} (ho : ch.Ordered) (h : Step ch ch') :
    ch'.Ordered := by
  cases h with
  | keeps h =>
    obtain ⟨more, hsent, hrest⟩ := h.balance
    rw [Ordered, hsent, hrest]
    exact ho.append (List.Sublist.refl more)
  | refuse a => exact ho.trans (List.sublist_append_left _ _)
  | replace a =>
    exact ((List.sublist_append_left _ _).trans ho).append (List.Sublist.refl [a])
  | lose h => exact ((List.Sublist.refl _).append h).trans ho

theorem Ordered.of_steps {ch ch' : Channel α} (ho : ch.Ordered) (h : ReflTransGen Step ch ch') :
    ch'.Ordered := by
  induction h with
  | refl => exact ho
  | tail _ hstep ih => exact ih.of_step hstep

/-- An item passed straight through an empty channel. -/
theorem keeps_through {ch : Channel α} (h : ch.waiting = []) (a : α) :
    ReflTransGen Keeps ch ⟨ch.sent ++ [a], [], ch.delivered ++ [a]⟩ := by
  have hout : Keeps (⟨ch.sent ++ [a], [a] ++ [], ch.delivered⟩ : Channel α)
      ⟨ch.sent ++ [a], [], ch.delivered ++ [a]⟩ := Keeps.deliver
  refine (ReflTransGen.single (Keeps.accept a ch)).tail ?_
  rw [h]
  exact hout

theorem steps_of_keeps {ch ch' : Channel α} (h : ReflTransGen Keeps ch ch') :
    ReflTransGen Step ch ch' :=
  ReflTransGen.mono (fun _ _ => Step.keeps) _ _ h

end Channel

end Sleepytale.Lib
