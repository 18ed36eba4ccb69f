import Mathlib.Data.Finset.Card
import Sleepytale.Lib.Refinement

/-!
# Services that sleep until somebody comes

What an on-demand host of services is for, with no word of how it does it. A
service sleeps, wakes with the clients that wait for it in a room of bounded
size, or is awake. A client is in at most one place at a time. The host is open,
or has closed for good. `Step` lists everything that may happen to such a world.
What the outside sees of it are the `Sight`s; clients leave, wait and are sent
home at closing time unseen. `Safe` is what every such world keeps, and `next`
is a monitor that follows the sights alone.
-/

namespace Sleepytale.Lib.Service

open Sleepytale.Lib.Refinement

inductive Stage (χ : Type*) where
  | asleep
  | waking (room : Finset χ)
  | awake

structure World (κ χ : Type*) where
  stage : κ → Stage χ
  place : χ → Option κ
  isOpen : Bool

inductive Sight (κ χ : Type*) where
  | wakes (k : κ) (c : χ)
  | opens (k : κ)
  | fails (k : κ)
  | enters (c : χ) (k : κ)
  | delivers (c : χ) (k : κ)
  | crashes (k : κ)
  | retires (k : κ)
  deriving DecidableEq

inductive Act (κ χ : Type*) where
  | sight (s : Sight κ χ)
  | joins (c : χ) (k : κ)
  | leave
  | close
  | dismiss (k : κ)

def Act.shows {κ χ : Type*} : Act κ χ → List (Sight κ χ)
  | sight s => [s]
  | joins _ _ => []
  | leave => []
  | close => []
  | dismiss _ => []

variable {κ χ : Type*}

namespace World

def start : World κ χ where
  stage := fun _ => .asleep
  place := fun _ => none
  isOpen := true

def setStage [DecidableEq κ] (w : World κ χ) (k : κ) (stage : Stage χ) : World κ χ :=
  { w with stage := Function.update w.stage k stage }

def setPlace [DecidableEq χ] (w : World κ χ) (c : χ) (k : κ) : World κ χ :=
  { w with place := Function.update w.place c (some k) }

/-- Everybody at `k` is thrown out. -/
def vacate [DecidableEq κ] (w : World κ χ) (k : κ) : World κ χ :=
  { w with place := fun c => (w.place c).filter (· ≠ k) }

theorem stage_setStage [DecidableEq κ] (w : World κ χ) (k : κ) (stage : Stage χ) (k' : κ) :
    (w.setStage k stage).stage k' = if k' = k then stage else w.stage k' :=
  Function.update_apply ..

theorem place_setPlace [DecidableEq χ] (w : World κ χ) (c : χ) (k : κ) (c' : χ) :
    (w.setPlace c k).place c' = if c' = c then some k else w.place c' :=
  Function.update_apply ..

theorem place_vacate [DecidableEq κ] {w : World κ χ} {k k' : κ} {c : χ} :
    (w.vacate k).place c = some k' ↔ w.place c = some k' ∧ k' ≠ k := by
  simp [vacate, Option.filter_eq_some_iff]

end World

/-- Everything that may happen, where a room holds at most `cap` clients. -/
inductive Step [DecidableEq κ] [DecidableEq χ] (cap : Nat) (w : World κ χ) : Act κ χ → World κ χ → Prop where
  | wakes {k : κ} (c : χ) (hopen : w.isOpen) (hstage : w.stage k = .asleep) :
      Step cap w (.sight (.wakes k c)) (w.setStage k (.waking {c}))
  | joins {k : κ} {c : χ} {room : Finset χ} (hopen : w.isOpen)
      (hstage : w.stage k = .waking room) (hroom : c ∈ room ∨ room.card < cap) :
      Step cap w (.joins c k) (w.setStage k (.waking (insert c room)))
  | opens {k : κ} {room : Finset χ} (hopen : w.isOpen) (hstage : w.stage k = .waking room) :
      Step cap w (.sight (.opens k)) (w.setStage k .awake)
  | fails {k : κ} {room : Finset χ} (hopen : w.isOpen) (hstage : w.stage k = .waking room) :
      Step cap w (.sight (.fails k)) (w.setStage k .asleep)
  | enters {k : κ} {c : χ} (hopen : w.isOpen) (hstage : w.stage k = .awake)
      (hplace : w.place c = none) : Step cap w (.sight (.enters c k)) (w.setPlace c k)
  | delivers {k : κ} {c : χ} (hopen : w.isOpen) (hplace : w.place c = some k) :
      Step cap w (.sight (.delivers c k)) w
  | leave {place : χ → Option κ} (hplace : ∀ c, place c = w.place c ∨ place c = none) :
      Step cap w .leave { w with place := place }
  | crashes {k : κ} (hopen : w.isOpen) (hstage : w.stage k = .awake) :
      Step cap w (.sight (.crashes k)) ((w.vacate k).setStage k .asleep)
  | retires {k : κ} (hopen : w.isOpen) (hstage : w.stage k = .awake)
      (hempty : ∀ c, w.place c ≠ some k) :
      Step cap w (.sight (.retires k)) (w.setStage k .asleep)
  | close (hopen : w.isOpen) :
      Step cap w .close { w with place := fun _ => none, isOpen := false }
  | dismiss {k : κ} (hclosed : w.isOpen = false) :
      Step cap w (.dismiss k) (w.setStage k .asleep)

/-- Clients are at awake services of an open host, and rooms are neither empty
nor overfull. -/
structure Safe (cap : Nat) (w : World κ χ) : Prop where
  placed : ∀ c k, w.place c = some k → w.isOpen ∧ w.stage k = .awake
  rooms : ∀ k room, w.stage k = .waking room → room.Nonempty ∧ room.card ≤ cap

namespace Safe

variable {cap : Nat} {w : World κ χ}

theorem start : Safe cap (World.start : World κ χ) where
  placed := by simp [World.start]
  rooms := by simp [World.start]

/-- A service changes its stage while nobody is there, or to be awake. -/
theorem setStage [DecidableEq κ] (hs : Safe cap w) {k : κ} {stage : Stage χ}
    (hplaced : ∀ c, w.place c = some k → stage = .awake)
    (hroom : ∀ room, stage = .waking room → room.Nonempty ∧ room.card ≤ cap) :
    Safe cap (w.setStage k stage) where
  placed := by
    intro c k' hc
    refine ⟨(hs.placed c k' hc).1, ?_⟩
    rw [World.stage_setStage]
    split
    · next hk => exact hplaced c (hk ▸ hc)
    · exact (hs.placed c k' hc).2
  rooms := by
    intro k' room hr
    rw [World.stage_setStage] at hr
    split at hr
    · exact hroom room hr
    · exact hs.rooms k' room hr

/-- Nobody is at a service that is not awake. -/
theorem nobody (hs : Safe cap w) {k : κ} (hstage : w.stage k ≠ .awake) (c : χ) :
    w.place c ≠ some k :=
  fun hc => hstage (hs.placed c k hc).2

/-- Clients may go, and the rest stay where they are. -/
theorem of_place (hs : Safe cap w) {place : χ → Option κ}
    (hplace : ∀ c k, place c = some k → w.place c = some k) :
    Safe cap { w with place := place } where
  placed := fun c k hc => hs.placed c k (hplace c k hc)
  rooms := hs.rooms

theorem step [DecidableEq κ] [DecidableEq χ] (hcap : 0 < cap) {act : Act κ χ} {w' : World κ χ} (hs : Safe cap w)
    (h : Step cap w act w') : Safe cap w' := by
  cases h with
  | wakes c hopen hstage =>
    refine hs.setStage (fun c' hc' => (hs.nobody (by simp [hstage]) c' hc').elim) ?_
    rintro room ⟨⟩
    exact ⟨Finset.singleton_nonempty c, by rw [Finset.card_singleton]; omega⟩
  | @joins k c room hopen hstage hroom =>
    refine hs.setStage (fun c' hc' => (hs.nobody (by simp [hstage]) c' hc').elim) ?_
    rintro room' ⟨⟩
    refine ⟨Finset.insert_nonempty c room, ?_⟩
    rcases hroom with hmem | hlt
    · rw [Finset.insert_eq_of_mem hmem]
      exact (hs.rooms k room hstage).2
    · have hinsert := Finset.card_insert_le c room
      omega
  | opens hopen hstage => exact hs.setStage (fun _ _ => rfl) (by simp)
  | fails hopen hstage =>
    exact hs.setStage (fun c' hc' => (hs.nobody (by simp [hstage]) c' hc').elim) (by simp)
  | @enters k c hopen hstage hplace =>
    refine ⟨fun c' k' hc' => ?_, hs.rooms⟩
    rw [World.place_setPlace] at hc'
    split at hc'
    · obtain rfl := Option.some.inj hc'
      exact ⟨hopen, hstage⟩
    · exact hs.placed c' k' hc'
  | delivers => exact hs
  | leave hplace =>
    refine hs.of_place fun c k hc => ?_
    rcases hplace c with he | he
    · rw [← he, hc]
    · rw [he] at hc
      cases hc
  | @crashes k hopen hstage =>
    have hvacated : Safe cap (w.vacate k) :=
      hs.of_place fun c k' hc => (World.place_vacate.mp hc).1
    exact hvacated.setStage (fun c hc => ((World.place_vacate.mp hc).2 rfl).elim) (by simp)
  | retires hopen hstage hempty =>
    exact hs.setStage (fun c hc => (hempty c hc).elim) (by simp)
  | close hopen =>
    refine ⟨fun c k hc => ?_, hs.rooms⟩
    cases hc
  | dismiss hclosed =>
    refine hs.setStage (fun c hc => ?_) (by simp)
    have hopen := (hs.placed c _ hc).1
    rw [hclosed] at hopen
    cases hopen

end Safe

/-- What the sights so far tell of a service. -/
inductive Status where
  | asleep
  | waking
  | awake
  deriving DecidableEq

def Stage.status : Stage χ → Status
  | asleep => .asleep
  | waking _ => .waking
  | awake => .awake

/-- The monitor: each service's status, and where each client last entered, if
that service has not stopped since. -/
structure Watch (κ χ : Type*) where
  status : κ → Status
  last : χ → Option κ

def Watch.start : Watch κ χ where
  status := fun _ => .asleep
  last := fun _ => none

def Watch.setStatus [DecidableEq κ] (m : Watch κ χ) (k : κ) (status : Status) : Watch κ χ :=
  { m with status := Function.update m.status k status }

theorem Watch.status_setStatus [DecidableEq κ] (m : Watch κ χ) (k : κ) (status : Status) (k' : κ) :
    (m.setStatus k status).status k' = if k' = k then status else m.status k' :=
  Function.update_apply ..

/-- The service stops; whoever entered it has to enter again somewhere. -/
def Watch.stop [DecidableEq κ] (m : Watch κ χ) (k : κ) : Watch κ χ :=
  { m.setStatus k .asleep with last := fun c => (m.last c).filter (· ≠ k) }

def next [DecidableEq κ] [DecidableEq χ] (m : Watch κ χ) : Sight κ χ → Option (Watch κ χ)
  | .wakes k _ => if m.status k = .asleep then some (m.setStatus k .waking) else none
  | .opens k => if m.status k = .waking then some (m.setStatus k .awake) else none
  | .fails k => if m.status k = .waking then some (m.setStatus k .asleep) else none
  | .enters c k =>
      if m.status k = .awake then some { m with last := Function.update m.last c (some k) }
      else none
  | .delivers c k => if m.last c = some k ∧ m.status k = .awake then some m else none
  | .crashes k => if m.status k = .awake then some (m.stop k) else none
  | .retires k => if m.status k = .awake then some (m.stop k) else none

/-- The monitor has the world right while the host is open. -/
structure Tracks (w : World κ χ) (m : Watch κ χ) : Prop where
  status : ∀ k, m.status k = (w.stage k).status
  last : ∀ c k, w.place c = some k → m.last c = some k

namespace Tracks

variable {w : World κ χ} {m : Watch κ χ}

theorem setStage [DecidableEq κ] (h : Tracks w m) (k : κ) (stage : Stage χ) :
    Tracks (w.setStage k stage) (m.setStatus k stage.status) where
  status := by
    intro k'
    rw [World.stage_setStage, Watch.status_setStatus, h.status k', apply_ite Stage.status]
  last := h.last

/-- A service at which nobody is left stops. -/
theorem stop [DecidableEq κ] (h : Tracks w m) {k : κ} (hempty : ∀ c, w.place c ≠ some k) :
    Tracks (w.setStage k .asleep) (m.stop k) where
  status := (h.setStage k .asleep).status
  last := by
    intro c k' hc
    have hlast := h.last c k' hc
    have hne : k' ≠ k := by
      rintro rfl
      exact hempty c hc
    simp [Watch.stop, hlast, hne]

theorem setPlace [DecidableEq χ] (h : Tracks w m) (c : χ) (k : κ) :
    Tracks (w.setPlace c k) { m with last := Function.update m.last c (some k) } where
  status := h.status
  last := by
    intro c' k' hc'
    rw [World.place_setPlace] at hc'
    show Function.update m.last c (some k) c' = some k'
    rw [Function.update_apply]
    split
    · next hc => rw [if_pos hc] at hc'; exact hc'
    · next hc => rw [if_neg hc] at hc'; exact h.last c' k' hc'

end Tracks

/-- One step of the world: the monitor accepts what it shows and stays right. -/
theorem next_step [DecidableEq κ] [DecidableEq χ] {cap : Nat} {w w' : World κ χ} {act : Act κ χ} {m : Watch κ χ}
    (h : Step cap w act w') (hsafe : Safe cap w) (hm : w.isOpen → Tracks w m) :
    ∃ m', watch next m act.shows = some m' ∧ (w'.isOpen → Tracks w' m') := by
  have hstatus : ∀ {k : κ} {stage : Stage χ}, w.isOpen → w.stage k = stage →
      m.status k = stage.status := by
    intro k stage hopen hstage
    rw [(hm hopen).status k, hstage]
  cases h with
  | wakes c hopen hstage =>
    refine ⟨_, ?_, fun _ => (hm hopen).setStage _ _⟩
    simp [Act.shows, watch, next, hstatus hopen hstage, Stage.status]
  | @joins k c room hopen hstage hroom =>
    refine ⟨m, rfl, fun _ => ?_⟩
    have hsame : m.setStatus k (Stage.waking (insert c room)).status = m := by
      have hwaking : (Stage.waking (insert c room)).status = m.status k := (hstatus hopen hstage).symm
      rw [hwaking, Watch.setStatus, Function.update_eq_self]
    rw [← hsame]
    exact (hm hopen).setStage _ _
  | opens hopen hstage =>
    refine ⟨_, ?_, fun _ => (hm hopen).setStage _ _⟩
    simp [Act.shows, watch, next, hstatus hopen hstage, Stage.status]
  | fails hopen hstage =>
    refine ⟨_, ?_, fun _ => (hm hopen).setStage _ _⟩
    simp [Act.shows, watch, next, hstatus hopen hstage, Stage.status]
  | enters hopen hstage hplace =>
    refine ⟨_, ?_, fun _ => (hm hopen).setPlace _ _⟩
    simp [Act.shows, watch, next, hstatus hopen hstage, Stage.status]
  | delivers hopen hplace =>
    refine ⟨m, ?_, hm⟩
    have hstage := (hsafe.placed _ _ hplace).2
    simp [Act.shows, watch, next, (hm hopen).last _ _ hplace, hstatus hopen hstage, Stage.status]
  | @leave place hplace =>
    refine ⟨m, rfl, fun hopen => ⟨(hm hopen).status, fun c k hc => ?_⟩⟩
    change place c = some k at hc
    rcases hplace c with he | he
    · exact (hm hopen).last c k (by rw [← he, hc])
    · rw [he] at hc
      cases hc
  | @crashes k hopen hstage =>
    refine ⟨m.stop k, ?_, fun _ => ?_⟩
    · simp [Act.shows, watch, next, hstatus hopen hstage, Stage.status]
    · have hvacated : Tracks (w.vacate k) m :=
        ⟨(hm hopen).status, fun c k' hc => (hm hopen).last c k' (World.place_vacate.mp hc).1⟩
      exact hvacated.stop fun c hc => (World.place_vacate.mp hc).2 rfl
  | @retires k hopen hstage hempty =>
    refine ⟨m.stop k, ?_, fun _ => (hm hopen).stop hempty⟩
    simp [Act.shows, watch, next, hstatus hopen hstage, Stage.status]
  | close hopen => exact ⟨m, rfl, fun hopen => by cases hopen⟩
  | dismiss hclosed =>
    refine ⟨m, rfl, fun hopen => ?_⟩
    rw [World.setStage, hclosed] at hopen
    cases hopen

/-- Every world that steps lead to from the start is safe. -/
theorem safe_of_path [DecidableEq κ] [DecidableEq χ] {cap : Nat} (hcap : 0 < cap) {acts : List (Act κ χ)} {w : World κ χ}
    (h : Path (Step cap) World.start acts w) : Safe cap w :=
  h.invariant (Safe cap) (fun _ _ _ hs hstep => hs.step hcap hstep) Safe.start

/-- The monitor accepts the sights of every path from the start. -/
theorem watched_of_path [DecidableEq κ] [DecidableEq χ] {cap : Nat} (hcap : 0 < cap) {acts : List (Act κ χ)} {w : World κ χ}
    (h : Path (Step cap) World.start acts w) :
    ∃ m, watch next Watch.start (acts.flatMap Act.shows) = some m ∧ (w.isOpen → Tracks w m) := by
  obtain ⟨m, hm, _, htracks⟩ := h.watched
    (R := fun w m => Safe cap w ∧ (w.isOpen → Tracks w m)) (fun w act w' m hstep hr => by
      obtain ⟨m', hm', ht⟩ := next_step hstep hr.1 hr.2
      exact ⟨m', hm', hr.1.step hcap hstep, ht⟩)
    (m := Watch.start) ⟨Safe.start, fun _ => ⟨fun _ => rfl, by simp [World.start]⟩⟩
  exact ⟨m, hm, htracks⟩

-- Nothing may be delivered to a service that stopped after the client came.
example : (watch next (Watch.start : Watch Nat Nat)
    [.wakes 0 7, .opens 0, .enters 7 0, .delivers 7 0, .crashes 0, .delivers 7 0]).isSome =
      false := by
  decide

end Sleepytale.Lib.Service
