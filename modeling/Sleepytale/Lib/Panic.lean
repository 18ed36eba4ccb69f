import Mathlib.Algebra.Group.Nat.Defs
import Mathlib.Data.List.Nodup

/-!
# Computations that may panic

A function of the source either panics, returns early with `None`, or returns a
value. `Checked` keeps the three apart; its operations are those of the language
that panic: `+`, `-`, `<<` and `>>` on machine integers, indexing and slicing.

`Agrees c o P` says that `c` does not panic, that its answer is the one of `o`,
where no operation is checked, and that a value it returns meets `P`.
-/

namespace Sleepytale.Lib.Panic

inductive Reason where
  | overflow
  | index
  deriving DecidableEq

def Checked (α : Type) : Type := Except Reason (Option α)

namespace Checked

variable {α β : Type}

/-- The answer of an operation that cannot panic; `None` returns early. -/
def ofOption (o : Option α) : Checked α := Except.ok o

def panic (reason : Reason) : Checked α := Except.error reason

def bind (c : Checked α) (f : α → Checked β) : Checked β :=
  match c with
  | .error reason => panic reason
  | .ok none => ofOption none
  | .ok (some a) => f a

instance : Monad Checked where
  pure a := ofOption (some a)
  bind := bind

def usizeBits : Nat := 64

/-- `a + b` on `usize`. -/
def add (a b : Nat) : Checked Nat :=
  if a + b < 2 ^ usizeBits then pure (a + b) else panic .overflow

/-- `a.checked_add(b)?` on `usize`. -/
def checkedAdd (a b : Nat) : Checked Nat :=
  if a + b < 2 ^ usizeBits then pure (a + b) else ofOption none

/-- `a - b` on an unsigned type. -/
def sub (a b : Nat) : Checked Nat :=
  if b ≤ a then pure (a - b) else panic .overflow

/-- `a << n` on an unsigned type of `bits` bits: what is shifted out is lost. -/
def shl (bits a n : Nat) : Checked Nat :=
  if n < bits then pure ((a <<< n) % 2 ^ bits) else panic .overflow

/-- `a >> n` on an unsigned type of `bits` bits. -/
def shr (bits a n : Nat) : Checked Nat :=
  if n < bits then pure (a >>> n) else panic .overflow

/-- `list[i]`. -/
def index (list : List α) (i : Nat) : Checked α :=
  match list[i]? with
  | some a => pure a
  | none => panic .index

/-- `&list[start..stop]`. -/
def slice (list : List α) (start stop : Nat) : Checked (List α) :=
  if start ≤ stop ∧ stop ≤ list.length then pure ((list.drop start).take (stop - start))
  else panic .index

/-- `&list[start..]`. -/
def sliceFrom (list : List α) (start : Nat) : Checked (List α) :=
  if start ≤ list.length then pure (list.drop start) else panic .index

/-- `list[i] = a`. -/
def store (list : List α) (i : Nat) (a : α) : Checked (List α) :=
  if i < list.length then pure (list.set i a) else panic .index

/-- `while let Some(a) = read`: the loop is left where the read answers `None`. -/
def whileSome (read : Checked α) (done : Checked β) (body : α → Checked β) : Checked β :=
  match read with
  | .error reason => panic reason
  | .ok none => done
  | .ok (some a) => body a

theorem pure_bind (a : α) (f : α → Checked β) : (pure a >>= f) = f a := rfl

theorem add_eq {a b : Nat} (h : a + b < 2 ^ 64) : add a b = pure (a + b) := if_pos h

theorem sub_eq {a b : Nat} (h : b ≤ a) : sub a b = pure (a - b) := if_pos h

theorem shl_eq {bits a n : Nat} (hn : n < bits) (ha : a <<< n < 2 ^ bits) :
    shl bits a n = pure (a <<< n) := by
  rw [shl, if_pos hn, Nat.mod_eq_of_lt ha]

theorem shr_eq {bits a n : Nat} (h : n < bits) : shr bits a n = pure (a >>> n) := if_pos h

theorem index_eq {list : List α} {i : Nat} {a : α} (h : list[i]? = some a) :
    index list i = pure a := by
  rw [index, h]

theorem slice_eq {list : List α} {start stop : Nat} (h : start ≤ stop) (h' : stop ≤ list.length) :
    slice list start stop = pure ((list.drop start).take (stop - start)) := if_pos ⟨h, h'⟩

theorem sliceFrom_eq {list : List α} {start : Nat} (h : start ≤ list.length) :
    sliceFrom list start = pure (list.drop start) := if_pos h

theorem store_eq {list : List α} {i : Nat} (h : i < list.length) (a : α) :
    store list i a = pure (list.set i a) := if_pos h

/-- No panic, the same answer, and what holds of a value. -/
def Agrees (c : Checked α) (o : Option α) (P : α → Prop) : Prop :=
  c = ofOption o ∧ ∀ a, o = some a → P a

namespace Agrees

variable {c : Checked α} {o : Option α} {P P' : α → Prop}

theorem pure {a : α} (h : P a) : Agrees (Pure.pure a) (some a) P :=
  ⟨rfl, fun _ ha => Option.some.inj ha ▸ h⟩

theorem none : Agrees (ofOption Option.none) (Option.none : Option α) P :=
  ⟨rfl, fun _ h => by cases h⟩

theorem ofOption (h : ∀ a, o = some a → P a) : Agrees (Checked.ofOption o) o P := ⟨rfl, h⟩

theorem mono (h : Agrees c o P) (hp : ∀ a, P a → P' a) : Agrees c o P' :=
  ⟨h.1, fun a ha => hp a (h.2 a ha)⟩

/-- The rule for one statement after another. -/
theorem bind {f : α → Checked β} {g : α → Option β} {Q : β → Prop} (h : Agrees c o P)
    (hf : ∀ a, P a → Agrees (f a) (g a) Q) : Agrees (c >>= f) (o >>= g) Q := by
  obtain ⟨rfl, hp⟩ := h
  cases o with
  | none => exact Agrees.none
  | some a => exact hf a (hp a rfl)

/-- The same where the next statement does nothing unchecked. -/
theorem bind_pure {a : α} {f : α → Checked β} {o : Option β} {Q : β → Prop} (h : c = Pure.pure a)
    (hf : Agrees (f a) o Q) : Agrees (c >>= f) o Q := by
  rw [h]
  exact hf

theorem whileSome_none {done : Checked β} {body : α → Checked β} {o' : Option β} {Q : β → Prop}
    (h : Agrees c Option.none P) (hdone : Agrees done o' Q) : Agrees (whileSome c done body) o' Q := by
  rw [h.1]
  exact hdone

theorem whileSome_some {done : Checked β} {body : α → Checked β} {a : α} {o' : Option β}
    {Q : β → Prop} (h : Agrees c (some a) P) (hbody : P a → Agrees (body a) o' Q) :
    Agrees (whileSome c done body) o' Q := by
  rw [h.1]
  exact hbody (h.2 a rfl)

theorem ite_iff {p q : Prop} [Decidable p] [Decidable q] {c' : Checked α} {o' : Option α}
    (hpq : p ↔ q) (h : q → Agrees c o P) (h' : ¬ q → Agrees c' o' P) :
    Agrees (if p then c else c') (if q then o else o') P := by
  by_cases hq : q
  · rw [if_pos hq, if_pos (hpq.mpr hq)]
    exact h hq
  · rw [if_neg hq, if_neg (fun hp => hq (hpq.mp hp))]
    exact h' hq

theorem ite {p : Prop} [Decidable p] {c' : Checked α} {o' : Option α} (h : p → Agrees c o P)
    (h' : ¬ p → Agrees c' o' P) : Agrees (if p then c else c') (if p then o else o') P :=
  ite_iff Iff.rfl h h'

end Agrees

end Checked

end Sleepytale.Lib.Panic
