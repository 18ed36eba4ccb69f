import Mathlib.Data.BitVec
import Sleepytale.Lib.Lists
import Sleepytale.Lib.Machine
import Sleepytale.Net

/-!
# Forwarding console input (`ConsoleInput`)

The forwarding task takes the attached pipe out of the mutex for a write and puts
it back afterwards. What is done under the lock is one step; between two steps of
the task any number of `attach` and `detach` calls can come. A step that is not
the task's next one leaves the state unchanged.
-/

namespace Sleepytale.Infra

open Sleepytale.Net
open Sleepytale.Lib.Lists
open Sleepytale.Lib.Machine

/-- A backend's standard input. The handle moves into `attach`, so none is attached
twice: `number` counts the `attach` calls. -/
structure ChildStdin where
  number : Nat
  deriving DecidableEq

structure Attached where
  stdin : Option ChildStdin
  generation : BitVec 64
  deriving DecidableEq

namespace Attached

/-- `wrapping_add`. -/
def replace (a : Attached) (stdin : Option ChildStdin) : Attached where
  stdin := stdin
  generation := a.generation + 1

end Attached

/-- One read from the terminal; `index` counts the reads. -/
structure Typed where
  index : Nat
  bytes : Bytes
  deriving DecidableEq

/-- Where the forwarding task is in its loop, with its local variables. -/
inductive ForwarderAt where
  | receiving
  | taking (chunk : Typed)
  | writing (chunk : Typed) (stdin : ChildStdin) (generation : BitVec 64)
  | relocking (stdin : ChildStdin) (generation : BitVec 64) (ok : Bool)
  | ended
  deriving DecidableEq

/-- What the calls and the task did, in the order they did it. A chunk for which no
pipe was there is taken with none. -/
inductive ConsoleEffect where
  | attached (stdin : ChildStdin)
  | detached
  | took (chunk : Typed) (stdin : Option ChildStdin)
  | wrote (chunk : Typed) (stdin : ChildStdin) (ok : Bool)
  deriving DecidableEq

/-- `read` are all the chunks read from the terminal, `incoming` those still in the
channel, and `pipes` counts the `attach` calls. -/
structure Console where
  current : Attached
  reading : Bool
  read : List Typed
  incoming : List Typed
  forwarderAt : ForwarderAt
  pipes : Nat
  log : List ConsoleEffect

/-- `read none` is a failed read, and `read (some [])` the end of the input. -/
inductive ConsoleAct where
  | read (result : Option Bytes)
  | receive
  | take
  | write (ok : Bool)
  | relock
  | attach
  | detach

namespace Console

def init : Console where
  current := ⟨none, 0⟩
  reading := true
  read := []
  incoming := []
  forwarderAt := .receiving
  pipes := 0
  log := []

/-- `lines.send(buf[..count].to_vec())`. -/
def send (s : Console) (bytes : Bytes) : Console :=
  { s with
    read := s.read ++ [⟨s.read.length, bytes⟩]
    incoming := s.incoming ++ [⟨s.read.length, bytes⟩] }

def attach (s : Console) : Console :=
  { s with
    current := s.current.replace (some ⟨s.pipes⟩)
    pipes := s.pipes + 1
    log := s.log ++ [.attached ⟨s.pipes⟩] }

def detach (s : Console) : Console :=
  { s with current := s.current.replace none, log := s.log ++ [.detached] }

/-- The first critical section of the loop: the pipe leaves the mutex. -/
def take (s : Console) (chunk : Typed) : Console :=
  { s with
    current := { s.current with stdin := none }
    forwarderAt :=
      match s.current.stdin with
      | some stdin => .writing chunk stdin s.current.generation
      | none => .receiving
    log := s.log ++ [.took chunk s.current.stdin] }

/-- The second one: the pipe goes back, unless it is stale or the write failed. -/
def relock (s : Console) (stdin : ChildStdin) (generation : BitVec 64) (ok : Bool) : Console :=
  if s.current.generation ≠ generation then { s with forwarderAt := .receiving }
  else if ok then
    { s with current := { s.current with stdin := some stdin }, forwarderAt := .receiving }
  else { s with forwarderAt := .receiving }

def step (s : Console) : ConsoleAct → Console
  | .read result =>
      match s.reading, result with
      | true, some (byte :: bytes) => s.send (byte :: bytes)
      | true, _ => { s with reading := false }
      | false, _ => s
  | .receive =>
      match s.forwarderAt, s.incoming with
      | .receiving, chunk :: rest => { s with forwarderAt := .taking chunk, incoming := rest }
      -- The channel is closed once the reader has returned.
      | .receiving, [] => if s.reading then s else { s with forwarderAt := .ended }
      | _, _ => s
  | .take =>
      match s.forwarderAt with
      | .taking chunk => s.take chunk
      | _ => s
  | .write ok =>
      match s.forwarderAt with
      | .writing chunk stdin generation =>
          { s with
            forwarderAt := .relocking stdin generation ok
            log := s.log ++ [.wrote chunk stdin ok] }
      | _ => s
  | .relock =>
      match s.forwarderAt with
      | .relocking stdin generation ok => s.relock stdin generation ok
      | _ => s
  | .attach => s.attach
  | .detach => s.detach

/-! ## The history of a run -/

def latestAfter (latest : Option ChildStdin) : ConsoleEffect → Option ChildStdin
  | .attached stdin => some stdin
  | .detached => none
  | .took _ _ | .wrote _ _ _ => latest

/-- The pipe of the latest `attach`, if no `detach` came after it. -/
def latest (log : List ConsoleEffect) : Option ChildStdin := log.foldl latestAfter none

def inFlightAfter (flight : Option (ChildStdin × Typed)) :
    ConsoleEffect → Option (ChildStdin × Typed)
  | .took chunk stdin => stdin.map fun stdin => (stdin, chunk)
  | .wrote _ _ _ => none
  | .attached _ | .detached => flight

/-- The write that has begun and not ended, with its pipe. -/
def inFlight (log : List ConsoleEffect) : Option (ChildStdin × Typed) :=
  log.foldl inFlightAfter none

def changesAfter (changes : Nat) : ConsoleEffect → Nat
  | .attached _ | .detached => changes + 1
  | .took _ _ => 0
  | .wrote _ _ _ => changes

/-- How many `attach` and `detach` calls came since a pipe was last taken. -/
def changes (log : List ConsoleEffect) : Nat := log.foldl changesAfter 0

def writeOf : ConsoleEffect → Option (ChildStdin × Typed)
  | .wrote chunk stdin _ => some (stdin, chunk)
  | _ => none

def takenBy : ConsoleEffect → Option Typed
  | .took chunk _ => some chunk
  | _ => none

/-- The writes that have ended, whatever their outcome. -/
def writes (log : List ConsoleEffect) : List (ChildStdin × Typed) := log.filterMap writeOf

def writesTo (stdin : ChildStdin) (log : List ConsoleEffect) : List Typed :=
  ((writes log).filter fun write => write.1 = stdin).map Prod.snd

def taken (log : List ConsoleEffect) : List Typed := log.filterMap takenBy

/-- No write to the pipe has failed. -/
def Unbroken (stdin : ChildStdin) (log : List ConsoleEffect) : Prop :=
  ∀ chunk, .wrote chunk stdin false ∉ log

@[simp] theorem latest_concat (log : List ConsoleEffect) (e : ConsoleEffect) :
    latest (log ++ [e]) = latestAfter (latest log) e := by
  simp [latest]

@[simp] theorem inFlight_concat (log : List ConsoleEffect) (e : ConsoleEffect) :
    inFlight (log ++ [e]) = inFlightAfter (inFlight log) e := by
  simp [inFlight]

@[simp] theorem changes_concat (log : List ConsoleEffect) (e : ConsoleEffect) :
    changes (log ++ [e]) = changesAfter (changes log) e := by
  simp [changes]

theorem writes_concat (log : List ConsoleEffect) (e : ConsoleEffect) :
    writes (log ++ [e]) = writes log ++ (writeOf e).toList := by
  cases e <;> simp [writes, writeOf]

theorem taken_concat (log : List ConsoleEffect) (e : ConsoleEffect) :
    taken (log ++ [e]) = taken log ++ (takenBy e).toList := by
  cases e <;> simp [taken, takenBy]

theorem Unbroken.of_concat {stdin : ChildStdin} {log : List ConsoleEffect} {e : ConsoleEffect}
    (h : Unbroken stdin (log ++ [e])) : Unbroken stdin log := by
  intro chunk hmem
  exact h chunk (List.mem_append_left _ hmem)

/-- What an entry of the log says about the entries before it: a pipe is attached
once, it is taken only while it is the latest one and for one write at a time, and
it is there to be taken as long as no write to it has failed. -/
def Allowed (before : List ConsoleEffect) : ConsoleEffect → Prop
  | .attached stdin => .attached stdin ∉ before
  | .detached => True
  | .took _ stdin =>
      inFlight before = none ∧ (∀ p, stdin = some p → latest before = some p) ∧
        ∀ p, latest before = some p → Unbroken p before → stdin = some p
  | .wrote chunk stdin _ => inFlight before = some (stdin, chunk)

/-- After a pipe was detached or replaced, it is not taken again, and the only write
to it that can still end is the one in flight. -/
theorem writesTo_of_stale {before after : List ConsoleEffect} {p : ChildStdin}
    (h : Along Allowed (before ++ after)) (hattached : .attached p ∈ before)
    (hlatest : latest before ≠ some p) :
    (∀ chunk, .took chunk (some p) ∉ after) ∧
    (writesTo p after = [] ∨
      ∃ chunk, inFlight before = some (p, chunk) ∧ writesTo p after = [chunk]) := by
  induction after generalizing before with
  | nil => exact ⟨by simp, Or.inl rfl⟩
  | cons e after ih =>
    have hallowed : Allowed before e := h before e after rfl
    rw [List.append_cons] at h
    have ih := ih h (List.mem_append_left _ hattached)
    rw [latest_concat, inFlight_concat] at ih
    cases e with
    | attached q =>
      have hne : q ≠ p := by
        intro heq
        exact hallowed (heq ▸ hattached)
      obtain ⟨htook, hwrites⟩ := ih (by simpa [latestAfter] using hne)
      exact ⟨by simpa using htook, hwrites⟩
    | detached =>
      obtain ⟨htook, hwrites⟩ := ih (by simp [latestAfter])
      exact ⟨by simpa using htook, hwrites⟩
    | took chunk stdin =>
      have hne : stdin ≠ some p := by
        intro heq
        exact hlatest (hallowed.2.1 p heq)
      obtain ⟨htook, hwrites⟩ := ih hlatest
      refine ⟨by simpa [Ne.symm hne] using htook, Or.inl ?_⟩
      rcases hwrites with hwrites | ⟨other, hflight, _⟩
      · exact hwrites
      · obtain ⟨q, hq, heq⟩ := Option.map_eq_some_iff.mp hflight
        cases heq
        exact absurd hq hne
    | wrote chunk q ok =>
      obtain ⟨htook, hwrites⟩ := ih hlatest
      have hnone : writesTo p after = [] := by
        rcases hwrites with hwrites | ⟨other, hflight, _⟩
        · exact hwrites
        · cases hflight
      refine ⟨by simpa using htook, ?_⟩
      by_cases hq : q = p
      · subst hq
        right
        refine ⟨chunk, hallowed, ?_⟩
        simpa [writesTo, writes, writeOf] using hnone
      · left
        simpa [writesTo, writes, writeOf, hq] using hnone

/-- A write that has begun is in flight until it ends. -/
theorem wrote_or_inFlight {before after : List ConsoleEffect} {p : ChildStdin} {chunk : Typed}
    (h : Along Allowed (before ++ after)) (hflight : inFlight before = some (p, chunk)) :
    inFlight (before ++ after) = some (p, chunk) ∨ ∃ ok, .wrote chunk p ok ∈ after := by
  induction after generalizing before with
  | nil =>
    left
    rw [List.append_nil]
    exact hflight
  | cons e after ih =>
    have hallowed : Allowed before e := h before e after rfl
    rw [List.append_cons] at h ⊢
    have ih := ih h
    cases e with
    | attached q | detached =>
      rcases ih (by simpa [inFlightAfter] using hflight) with hend | ⟨ok, hmem⟩
      · exact Or.inl hend
      · exact Or.inr ⟨ok, List.mem_cons_of_mem _ hmem⟩
    | took other stdin =>
      rw [hallowed.1] at hflight
      cases hflight
    | wrote other q ok =>
      have heq := hallowed.symm.trans hflight
      cases heq
      exact Or.inr ⟨ok, List.mem_cons_self⟩

/-- The chunks written, and the one in flight, were taken in this order. -/
theorem writes_sublist {log : List ConsoleEffect} (h : Along Allowed log) :
    ((writes log).map Prod.snd ++ (inFlight log).toList.map Prod.snd).Sublist (taken log) := by
  induction log using List.reverseRecOn with
  | nil => exact List.Sublist.refl _
  | append_singleton log e ih =>
    have hallowed : Allowed log e := h log e [] rfl
    have ih := ih h.of_concat
    rw [inFlight_concat, writes_concat, taken_concat]
    cases e with
    | attached q | detached => simpa [writeOf, takenBy, inFlightAfter] using ih
    | took chunk stdin =>
      rw [hallowed.1] at ih
      simp only [Option.toList_none, List.map_nil, List.append_nil] at ih
      cases stdin with
      | none =>
        have hlonger := ih.trans (List.sublist_append_left _ [chunk])
        simpa [writeOf, takenBy, inFlightAfter] using hlonger
      | some q =>
        simpa [writeOf, takenBy, inFlightAfter] using ih
    | wrote chunk q ok =>
      rw [hallowed] at ih
      simpa [writeOf, takenBy, inFlightAfter] using ih

/-! ## The invariant -/

/-- The pipe that is out of the mutex, and the generation it was taken at. -/
def away (s : Console) : Option (ChildStdin × BitVec 64) :=
  match s.forwarderAt with
  | .writing _ stdin generation | .relocking stdin generation _ => some (stdin, generation)
  | _ => none

def writing (s : Console) : Option (ChildStdin × Typed) :=
  match s.forwarderAt with
  | .writing chunk stdin _ => some (stdin, chunk)
  | _ => none

def received (s : Console) : List Typed :=
  match s.forwarderAt with
  | .taking chunk => [chunk]
  | _ => []

/-- What holds in every reachable state. The generation counts the calls since the
pipe was taken, modulo 2^64: as long as there are fewer of them, an unchanged
generation means that there was none. -/
structure Sound (s : Console) : Prop where
  along : Along Allowed s.log
  numbered : ∀ p, .attached p ∈ s.log → p.number < s.pipes
  slot : ∀ p, s.current.stdin = some p → latest s.log = some p
  inFlight : inFlight s.log = s.writing
  generation : ∀ p g, s.away = some (p, g) →
    s.current.generation = g + BitVec.ofNat 64 (changes s.log)
  unchanged : ∀ p g, s.away = some (p, g) → changes s.log = 0 → latest s.log = some p
  present : ∀ p, latest s.log = some p → Unbroken p s.log →
    s.current.stdin = some p ∨ (∃ g, s.away = some (p, g)) ∧ changes s.log = 0
  failed : ∀ p g, s.forwarderAt = .relocking p g false → ¬ Unbroken p s.log
  order : taken s.log ++ s.received ++ s.incoming = s.read
  indices : s.read.map Typed.index = List.range s.read.length

theorem sound_init : init.Sound where
  along := along_nil
  numbered p hp := by simp [init] at hp
  slot p hp := by cases hp
  inFlight := rfl
  generation p g hg := by cases hg
  unchanged p g hg := by cases hg
  present p hp := by cases hp
  failed p g hp := by cases hp
  order := rfl
  indices := rfl

theorem Sound.send {s : Console} (h : s.Sound) (bytes : Bytes) : (s.send bytes).Sound where
  along := h.along
  numbered := h.numbered
  slot := h.slot
  inFlight := h.inFlight
  generation := h.generation
  unchanged := h.unchanged
  present := h.present
  failed := h.failed
  order := by
    show _ ++ (_ ++ [_]) = s.read ++ [_]
    rw [← List.append_assoc, ← h.order]
    rfl
  indices := by
    show (s.read ++ [_]).map _ = List.range (s.read ++ [_]).length
    rw [List.map_append, h.indices, List.length_append]
    exact List.range_succ.symm

/-- Steps of the task with no pipe in its hands. -/
theorem Sound.move {s : Console} (h : s.Sound) {place : ForwarderAt} {incoming : List Typed}
    (haway : s.away = none) (hplace : ({ s with forwarderAt := place } : Console).away = none)
    (horder : ({ s with forwarderAt := place } : Console).received ++ incoming =
      s.received ++ s.incoming) :
    ({ s with forwarderAt := place, incoming := incoming } : Console).Sound where
  along := h.along
  numbered := h.numbered
  slot := h.slot
  inFlight := by
    rw [h.inFlight]
    unfold away at haway hplace
    unfold writing
    split at haway <;> split at hplace <;> simp_all
  generation p g hg := by
    have hnone : some (p, g) = none := hg.symm.trans hplace
    cases hnone
  unchanged p g hg := by
    have hnone : some (p, g) = none := hg.symm.trans hplace
    cases hnone
  present p hp hu := by
    rcases h.present p hp hu with hslot | ⟨⟨g, hg⟩, _⟩
    · exact Or.inl hslot
    · rw [haway] at hg
      cases hg
  failed p g hp := by
    unfold away at hplace
    have hat : place = .relocking p g false := hp
    rw [hat] at hplace
    cases hplace
  order := by
    rw [List.append_assoc]
    exact (congrArg (taken s.log ++ ·) horder).trans
      ((List.append_assoc _ _ _).symm.trans h.order)
  indices := h.indices

/-- The calls of `attach` and `detach`, by the entry `e` they leave in the log. -/
theorem Sound.replace {s : Console} (h : s.Sound) {stdin : Option ChildStdin} {e : ConsoleEffect}
    {pipes : Nat} (hlatest : ∀ l, latestAfter l e = stdin) (hflight : ∀ f, inFlightAfter f e = f)
    (hchanges : ∀ n, changesAfter n e = n + 1) (htaken : takenBy e = none)
    (hallowed : Allowed s.log e) (hnumbered : ∀ p, .attached p ∈ s.log ++ [e] → p.number < pipes) :
    ({ s with
      current := s.current.replace stdin, pipes := pipes, log := s.log ++ [e] } : Console).Sound where
  along := h.along.concat hallowed
  numbered := hnumbered
  slot p hp := by
    rw [latest_concat, hlatest]
    exact hp
  inFlight := by
    rw [inFlight_concat, hflight]
    exact h.inFlight
  generation p g hg := by
    show s.current.generation + 1 = g + BitVec.ofNat 64 (changes (s.log ++ [e]))
    rw [changes_concat, hchanges, h.generation p g hg, BitVec.ofNat_add, BitVec.add_assoc]
    rfl
  unchanged p g hg hzero := by
    rw [changes_concat, hchanges] at hzero
    cases hzero
  present p hp _ := by
    rw [latest_concat, hlatest] at hp
    exact Or.inl hp
  failed p g hp hu := h.failed p g hp hu.of_concat
  order := by
    rw [taken_concat, htaken, Option.toList_none, List.append_nil]
    exact h.order
  indices := h.indices

theorem Sound.attach {s : Console} (h : s.Sound) : s.attach.Sound := by
  apply h.replace (fun _ => rfl) (fun _ => rfl) (fun _ => rfl) rfl
  · intro hmem
    exact absurd (h.numbered _ hmem) (Nat.lt_irrefl _)
  · intro p hp
    rcases List.mem_append.mp hp with hold | hnew
    · exact Nat.lt_succ_of_lt (h.numbered p hold)
    · cases List.mem_singleton.mp hnew
      exact Nat.lt_succ_self _

theorem Sound.detach {s : Console} (h : s.Sound) : s.detach.Sound := by
  apply h.replace (e := .detached) (fun _ => rfl) (fun _ => rfl) (fun _ => rfl) rfl trivial
  intro p hp
  exact h.numbered p (by simpa using hp)

theorem Sound.take {s : Console} (h : s.Sound) {chunk : Typed} (hat : s.forwarderAt = .taking chunk) :
    (s.take chunk).Sound := by
  have haway : s.away = none := by
    unfold away
    rw [hat]
  have hnone : Console.inFlight s.log = none := by
    rw [h.inFlight]
    unfold writing
    rw [hat]
  have hthere : ∀ p, latest s.log = some p → Unbroken p s.log → s.current.stdin = some p := by
    intro p hp hu
    rcases h.present p hp hu with hslot | ⟨⟨g, hg⟩, _⟩
    · exact hslot
    · rw [haway] at hg
      cases hg
  have hnumbered : ∀ p, .attached p ∈ s.log ++ [.took chunk s.current.stdin] →
      p.number < s.pipes := by
    intro p hp
    exact h.numbered p (by simpa using hp)
  have horder : taken (s.log ++ [.took chunk s.current.stdin]) ++ s.incoming = s.read := by
    rw [taken_concat, ← h.order]
    unfold received
    rw [hat]
    rfl
  have hallowed : Allowed s.log (.took chunk s.current.stdin) := ⟨hnone, h.slot, hthere⟩
  have halong := h.along.concat hallowed
  unfold Console.take
  cases hslot : s.current.stdin with
  | none =>
    rw [hslot] at horder hnumbered halong
    exact {
      along := halong
      numbered := hnumbered
      slot := fun p hp => by cases hp
      inFlight := by
        rw [inFlight_concat]
        rfl
      generation := fun p g hg => by cases hg
      unchanged := fun p g hg => by cases hg
      present := fun p hp hu => by
        rw [latest_concat] at hp
        have hsome := hthere p hp hu.of_concat
        rw [hslot] at hsome
        cases hsome
      failed := fun p g hp => by cases hp
      order := by
        show _ ++ [] ++ s.incoming = s.read
        rw [List.append_nil]
        exact horder
      indices := h.indices }
  | some stdin =>
    rw [hslot] at horder hnumbered halong
    exact {
      along := halong
      numbered := hnumbered
      slot := fun p hp => by cases hp
      inFlight := by
        rw [inFlight_concat]
        rfl
      generation := fun p g hg => by
        cases hg
        show s.current.generation = s.current.generation + BitVec.ofNat 64 (changes (s.log ++ [_]))
        rw [changes_concat]
        exact (BitVec.add_zero _).symm
      unchanged := fun p g hg _ => by
        cases hg
        rw [latest_concat]
        exact h.slot stdin hslot
      present := fun p hp hu => by
        rw [latest_concat] at hp
        have hsome := hthere p hp hu.of_concat
        rw [hslot] at hsome
        cases hsome
        right
        refine ⟨⟨_, rfl⟩, ?_⟩
        rw [changes_concat]
        rfl
      failed := fun p g hp => by cases hp
      order := by
        show _ ++ [] ++ s.incoming = s.read
        rw [List.append_nil]
        exact horder
      indices := h.indices }

theorem Sound.write {s : Console} (h : s.Sound) {chunk : Typed} {stdin : ChildStdin}
    {generation : BitVec 64} (hat : s.forwarderAt = .writing chunk stdin generation) (ok : Bool) :
    ({ s with
      forwarderAt := .relocking stdin generation ok
      log := s.log ++ [.wrote chunk stdin ok] } : Console).Sound := by
  have haway : s.away = some (stdin, generation) := by
    unfold away
    rw [hat]
  have hflight : Console.inFlight s.log = some (stdin, chunk) := by
    rw [h.inFlight]
    unfold writing
    rw [hat]
  exact {
    along := h.along.concat hflight
    numbered := fun p hp => h.numbered p (by simpa using hp)
    slot := fun p hp => by
      rw [latest_concat]
      exact h.slot p hp
    inFlight := by
      rw [inFlight_concat]
      rfl
    generation := fun p g hg => by
      rw [changes_concat]
      exact h.generation p g (haway.trans hg)
    unchanged := fun p g hg hzero => by
      rw [changes_concat] at hzero
      rw [latest_concat]
      exact h.unchanged p g (haway.trans hg) hzero
    present := fun p hp hu => by
      rw [latest_concat] at hp
      rw [changes_concat]
      rcases h.present p hp hu.of_concat with hslot | ⟨⟨g, hg⟩, hzero⟩
      · exact Or.inl hslot
      · exact Or.inr ⟨⟨g, haway.symm.trans hg⟩, hzero⟩
    failed := fun p g hp hu => by
      cases hp
      exact hu chunk (List.mem_append_right _ List.mem_cons_self)
    order := by
      rw [taken_concat]
      have horder := h.order
      unfold received at horder
      rw [hat] at horder
      simpa [takenBy, received] using horder
    indices := h.indices }

/-- A counter that wraps at 2^64 comes back to where it was only after that many
steps. -/
theorem generation_eq_iff {generation : BitVec 64} {n : Nat} (hfew : n < 2 ^ 64) :
    generation + BitVec.ofNat 64 n = generation ↔ n = 0 := by
  constructor
  · intro heq
    have hnat := congrArg BitVec.toNat heq
    rw [BitVec.toNat_add, BitVec.toNat_ofNat] at hnat
    have hlt := generation.isLt
    omega
  · intro hzero
    rw [hzero]
    exact BitVec.add_zero _

/-- The task is done with a chunk, and the mutex holds `slot` afterwards. -/
theorem Sound.settle {s : Console} (h : s.Sound) {stdin : ChildStdin} {generation : BitVec 64}
    {ok : Bool} (hat : s.forwarderAt = .relocking stdin generation ok) {slot : Option ChildStdin}
    (hslot : ∀ p, slot = some p → latest s.log = some p)
    (hpresent : ∀ p, latest s.log = some p → Unbroken p s.log → slot = some p) :
    ({ s with
      current := { s.current with stdin := slot }, forwarderAt := .receiving } : Console).Sound where
  along := h.along
  numbered := h.numbered
  slot := hslot
  inFlight := by
    rw [h.inFlight]
    unfold writing
    rw [hat]
  generation p g hg := by cases hg
  unchanged p g hg := by cases hg
  present p hp hu := Or.inl (hpresent p hp hu)
  failed p g hp := by cases hp
  order := by
    have horder := h.order
    unfold received at horder
    rw [hat] at horder
    exact horder
  indices := h.indices

/-- The pipe is put back only if there was no call since it was taken, so it is
still the latest one. -/
theorem Sound.relock {s : Console} (h : s.Sound) {stdin : ChildStdin} {generation : BitVec 64}
    {ok : Bool} (hat : s.forwarderAt = .relocking stdin generation ok)
    (hfew : changes s.log < 2 ^ 64) : (s.relock stdin generation ok).Sound := by
  have haway : s.away = some (stdin, generation) := by
    unfold away
    rw [hat]
  have hzero : s.current.generation = generation ↔ changes s.log = 0 := by
    rw [h.generation stdin generation haway]
    exact generation_eq_iff hfew
  unfold Console.relock
  split
  · next hstale =>
    apply h.settle hat h.slot
    intro p hp hu
    rcases h.present p hp hu with hslot | ⟨_, hz⟩
    · exact hslot
    · exact absurd (hzero.mpr hz) hstale
  · next hsame =>
    have hz := hzero.mp (not_not.mp hsame)
    have hlatest := h.unchanged stdin generation haway hz
    cases ok with
    | true =>
      apply h.settle hat
      · intro p hp
        rw [← hp]
        exact hlatest
      · intro p hp _
        rw [← hp]
        exact hlatest.symm
    | false =>
      apply h.settle hat h.slot
      intro p hp hu
      have heq := hlatest.symm.trans hp
      cases heq
      exact absurd hu (h.failed stdin generation hat)

/-- Fewer than 2^64 calls came during the write. -/
def FewChanges (s : Console) : ConsoleAct → Prop
  | .relock => changes s.log < 2 ^ 64
  | _ => True

theorem sound_step {s : Console} (h : s.Sound) (act : ConsoleAct) (hfew : FewChanges s act) :
    (s.step act).Sound := by
  cases act with
  | read result =>
    simp only [step]
    split
    · exact h.send _
    · exact { h with }
    · exact h
  | receive =>
    simp only [step]
    split
    · next chunk rest hat hincoming =>
      apply h.move
      · simp [away, hat]
      · rfl
      · simp [received, hat, hincoming]
    · next hat hincoming =>
      split
      · exact h
      · have hmove : ({ s with forwarderAt := .ended, incoming := s.incoming } : Console).Sound := by
          apply h.move
          · simp [away, hat]
          · rfl
          · simp [received, hat]
        exact hmove
    · exact h
  | take =>
    simp only [step]
    split
    · next hat => exact h.take hat
    · exact h
  | write ok =>
    simp only [step]
    split
    · next hat => exact h.write hat ok
    · exact h
  | relock =>
    simp only [step]
    split
    · next hat => exact h.relock hat hfew
    · exact h
  | attach => exact h.attach
  | detach => exact h.detach

theorem Sound.writes_sublist_read {s : Console} (h : s.Sound) :
    ((writes s.log).map Prod.snd).Sublist s.read := by
  have htaken : (taken s.log).Sublist s.read := by
    rw [← h.order, List.append_assoc]
    exact List.sublist_append_left _ _
  exact ((List.sublist_append_left _ _).trans (writes_sublist h.along)).trans htaken

theorem Sound.nodup_read {s : Console} (h : s.Sound) : s.read.Nodup := by
  apply List.Nodup.of_map Typed.index
  rw [h.indices]
  exact List.nodup_range

/-- The pipe protocol, in every interleaving of the calls with the task's steps. The
mutex holds no pipe but the latest one. A chunk is written to at most one pipe, and
a pipe gets its chunks in the order they were read. A pipe that was detached or
replaced is not taken again, and gets no chunk but the one in flight. Every chunk
that the task processes while a pipe is attached and unbroken is taken for it: the
write to it has ended, or is in flight. -/
theorem console_pipe_protocol (acts : List ConsoleAct) (h : AllSteps step FewChanges init acts) :
    (∀ p, (run step init acts).current.stdin = some p →
      latest (run step init acts).log = some p) ∧
    ((∀ chunk p q, (p, chunk) ∈ writes (run step init acts).log →
        (q, chunk) ∈ writes (run step init acts).log → p = q) ∧
      ∀ p, (writesTo p (run step init acts).log).Sublist (run step init acts).read) ∧
    (∀ p before after, (run step init acts).log = before ++ after → .attached p ∈ before →
      latest before ≠ some p →
      (∀ chunk, .took chunk (some p) ∉ after) ∧
      (writesTo p after = [] ∨
        ∃ chunk, inFlight before = some (p, chunk) ∧ writesTo p after = [chunk])) ∧
    (∀ p before chunk stdin after,
      (run step init acts).log = before ++ .took chunk stdin :: after →
      latest before = some p → Unbroken p before →
      stdin = some p ∧
      (inFlight (run step init acts).log = some (p, chunk) ∨
        ∃ ok, .wrote chunk p ok ∈ after)) := by
  have hsound : (run step init acts).Sound :=
    run_invariant_of Sound (fun _ act hs hfew => sound_step hs act hfew) sound_init h
  refine ⟨hsound.slot, ⟨?_, ?_⟩, ?_, ?_⟩
  · intro chunk p q hp hq
    have hnodup : ((writes (run step init acts).log).map Prod.snd).Nodup :=
      hsound.nodup_read.sublist hsound.writes_sublist_read
    exact congrArg Prod.fst (List.inj_on_of_nodup_map hnodup hp hq rfl)
  · intro p
    exact (List.filter_sublist.map Prod.snd).trans hsound.writes_sublist_read
  · intro p before after hlog
    apply writesTo_of_stale
    rw [← hlog]
    exact hsound.along
  · intro p before chunk stdin after hlog hlatest hunbroken
    have halong := hsound.along
    rw [hlog] at halong ⊢
    have htook : stdin = some p := (halong before _ after rfl).2.2 p hlatest hunbroken
    refine ⟨htook, ?_⟩
    rw [List.append_cons] at halong ⊢
    apply wrote_or_inFlight halong
    rw [inFlight_concat, htook]
    rfl

/-- A pipe is replaced while a chunk is being written to it: the chunk after it goes
to the new pipe. -/
def replacedDuringWrite : List ConsoleAct :=
  [.attach, .read (some [0x73]), .read (some [0x74]), .receive, .take, .detach, .attach,
    .write true, .relock, .receive, .take, .write true, .relock]

theorem console_pipe_protocol_replaced :
    writes (run step init replacedDuringWrite).log =
      [(⟨0⟩, ⟨0, [0x73]⟩), (⟨1⟩, ⟨1, [0x74]⟩)] ∧
    (run step init replacedDuringWrite).current.stdin = some ⟨1⟩ ∧
    latest (run step init replacedDuringWrite).log = some ⟨1⟩ := by
  have hfew : AllSteps step FewChanges init replacedDuringWrite := by
    simp only [replacedDuringWrite, AllSteps, FewChanges, true_and, and_true]
    decide
  have hslot : (run step init replacedDuringWrite).current.stdin = some ⟨1⟩ := by decide
  exact ⟨by decide, hslot, (console_pipe_protocol _ hfew).1 _ hslot⟩

end Console

end Sleepytale.Infra
