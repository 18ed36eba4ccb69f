import Mathlib.Data.List.Nodup

/-!
# Computations that count the iterations of their loops

`Counted α` is what a computation answers, a value or an early return, with the
number of loop iterations it has begun by then.

`Pays c o budget P` says that `c` answers `o`, that its count stays within
`budget`, and that what is left of the budget after a value `a` is a number that
`P a` holds of. Counting is amortised: a step that finds more budget than it needs
leaves it to the steps after it.
-/

namespace Sleepytale.Lib.Ticks

structure Counted (α : Type) where
  ticks : Nat
  result : Option α
  deriving DecidableEq

namespace Counted

variable {α β : Type}

/-- A step without a loop; `None` returns early. -/
def ofOption (o : Option α) : Counted α := ⟨0, o⟩

def bind (c : Counted α) (f : α → Counted β) : Counted β :=
  match c.result with
  | none => ⟨c.ticks, none⟩
  | some a => ⟨c.ticks + (f a).ticks, (f a).result⟩

instance : Monad Counted where
  pure a := ofOption (some a)
  bind := bind

/-- An iteration of a loop: its body and what follows it. -/
def iteration (body : Counted α) : Counted α := ⟨body.ticks + 1, body.result⟩

theorem bind_congr {c : Counted α} {f g : α → Counted β}
    (h : ∀ a, c.result = some a → f a = g a) : (c >>= f) = (c >>= g) := by
  show bind c f = bind c g
  unfold bind
  cases hresult : c.result with
  | none => rfl
  | some a => simp only [h a hresult]

structure Pays (c : Counted α) (o : Option α) (budget : Nat) (P : α → Nat → Prop) : Prop where
  result : c.result = o
  ticks : c.ticks ≤ budget
  rest : ∀ a, o = some a → ∃ n, c.ticks + n ≤ budget ∧ P a n

namespace Pays

variable {c : Counted α} {o : Option α} {budget : Nat} {P : α → Nat → Prop}

theorem none : Pays (ofOption Option.none) (Option.none : Option α) budget P where
  result := rfl
  ticks := Nat.zero_le _
  rest a h := by cases h

theorem pure {a : α} (h : P a budget) : Pays (Pure.pure a) (some a) budget P where
  result := rfl
  ticks := Nat.zero_le _
  rest a' ha := by
    cases ha
    exact ⟨budget, Nat.le_of_eq (Nat.zero_add _), h⟩

theorem mono {budget' : Nat} {P' : α → Nat → Prop} (h : Pays c o budget P)
    (hle : budget ≤ budget') (hp : ∀ a n, P a n → P' a n) : Pays c o budget' P' where
  result := h.result
  ticks := Nat.le_trans h.ticks hle
  rest a ha := by
    obtain ⟨n, hn, hpn⟩ := h.rest a ha
    exact ⟨n, Nat.le_trans hn hle, hp a n hpn⟩

/-- The rule for one statement after another. -/
theorem bind {f : α → Counted β} {g : α → Option β} {Q : β → Nat → Prop} (h : Pays c o budget P)
    (hf : ∀ a n, P a n → Pays (f a) (g a) n Q) : Pays (c >>= f) (o >>= g) budget Q := by
  obtain ⟨hresult, hticks, hrest⟩ := h
  show Pays (Counted.bind c f) (o >>= g) budget Q
  unfold Counted.bind
  rw [hresult]
  cases o with
  | none => exact ⟨rfl, hticks, fun b hb => by cases hb⟩
  | some a =>
    obtain ⟨n, hn, hpn⟩ := hrest a rfl
    have hnext := hf a n hpn
    have hticks' := hnext.ticks
    refine ⟨hnext.result, ?_, ?_⟩
    · show c.ticks + (f a).ticks ≤ budget
      omega
    · intro b hb
      obtain ⟨m, hm, hqm⟩ := hnext.rest b hb
      refine ⟨m, ?_, hqm⟩
      show c.ticks + (f a).ticks + m ≤ budget
      omega

/-- The same after a step without a loop. -/
theorem read {f : α → Counted β} {g : α → Option β} {Q : β → Nat → Prop}
    (hf : ∀ a, o = some a → Pays (f a) (g a) budget Q) :
    Pays (ofOption o >>= f) (o >>= g) budget Q := by
  have hread : Pays (ofOption o) o budget fun a n => o = some a ∧ n = budget :=
    ⟨rfl, Nat.zero_le _, fun a ha => ⟨budget, Nat.le_of_eq (Nat.zero_add _), ha, rfl⟩⟩
  apply hread.bind
  intro a n han
  rw [han.2]
  exact hf a han.1

/-- An iteration takes one from the budget. -/
theorem iteration (h : Pays c o budget P) : Pays (Counted.iteration c) o (budget + 1) P where
  result := h.result
  ticks := Nat.succ_le_succ h.ticks
  rest a ha := by
    obtain ⟨n, hn, hpn⟩ := h.rest a ha
    refine ⟨n, ?_, hpn⟩
    show c.ticks + 1 + n ≤ budget + 1
    omega

theorem ite {p : Prop} [Decidable p] {c' : Counted α} {o' : Option α} (h : p → Pays c o budget P)
    (h' : ¬ p → Pays c' o' budget P) :
    Pays (if p then c else c') (if p then o else o') budget P := by
  by_cases hp : p
  · rw [if_pos hp, if_pos hp]
    exact h hp
  · rw [if_neg hp, if_neg hp]
    exact h' hp

end Pays

end Counted

end Sleepytale.Lib.Ticks
