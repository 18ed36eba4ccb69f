import Sleepytale.Infra.Mirror

/-!
# The readiness hand-off (`mirror_stdout` and `wait_until_ready`)

The two tasks share a flag and a `Notify`. `notify_waiters` completes the futures
that exist when it is called and stores nothing for later ones, so a waiter that
parks after it would sleep until its deadline. The steps below are the places
where the two tasks can be interleaved; a step that is not the next one of its
task leaves the state unchanged.
-/

namespace Sleepytale.Infra

open Sleepytale.Net
open Sleepytale.Lib.Machine

/-- Where the mirror task is in its loop. While it scans, the chunk is at the end
of `tail`. -/
inductive MirrorAt where
  | reading
  | scanning
  | swapping
  | notifying
  | trimming
  | ended
  deriving DecidableEq

inductive WaitResult where
  | ok
  | error
  deriving DecidableEq

/-- Where `wait_until_ready` is. -/
inductive WaiterAt where
  | idle
  | firstCheck
  | registering
  | secondCheck
  | parked
  | returned (result : WaitResult)
  deriving DecidableEq

/-- `future` is the waiter's `Notified` future, and whether it was notified;
`read` are the bytes read from the server so far. -/
structure Readiness where
  mirrorAt : MirrorAt
  tail : Bytes
  booted : Bool
  notifies : Nat
  waiterAt : WaiterAt
  future : Option Bool
  read : Bytes

inductive ReadyAct where
  | read (chunk : Chunk)
  | readEnds
  | writeFails (chunk : Chunk)
  | scan
  | swap
  | notifyWaiters
  | trim
  | call
  | firstCheck (hasChild : Bool)
  | register
  | secondCheck
  | wake
  | childExits
  | deadline

namespace Readiness

def init : Readiness where
  mirrorAt := .reading
  tail := []
  booted := false
  notifies := 0
  waiterAt := .idle
  future := none
  read := []

def finish (s : Readiness) (result : WaitResult) : Readiness :=
  { s with waiterAt := .returned result, future := none }

def step (s : Readiness) : ReadyAct → Readiness
  | .read chunk =>
      if s.mirrorAt = .reading then
        { s with
          mirrorAt := .scanning, tail := s.tail ++ chunk.bytes, read := s.read ++ chunk.bytes }
      else s
  | .readEnds => if s.mirrorAt = .reading then { s with mirrorAt := .ended } else s
  | .writeFails chunk =>
      if s.mirrorAt = .reading then
        { s with mirrorAt := .ended, read := s.read ++ chunk.bytes }
      else s
  | .scan =>
      if s.mirrorAt = .scanning then
        { s with mirrorAt := if findsMarker s.tail then .swapping else .trimming }
      else s
  -- `!booted.swap(true, ..)`
  | .swap =>
      if s.mirrorAt = .swapping then
        { s with booted := true, mirrorAt := if s.booted then .trimming else .notifying }
      else s
  | .notifyWaiters =>
      if s.mirrorAt = .notifying then
        { s with
          mirrorAt := .trimming, notifies := s.notifies + 1, future := s.future.map fun _ => true }
      else s
  | .trim =>
      if s.mirrorAt = .trimming then { s with mirrorAt := .reading, tail := trim s.tail } else s
  | .call =>
      match s.waiterAt with
      | .idle | .returned _ => { s with waiterAt := .firstCheck }
      | _ => s
  | .firstCheck hasChild =>
      if s.waiterAt = .firstCheck then
        if s.booted then s.finish .ok
        else if hasChild then { s with waiterAt := .registering }
        else s.finish .error
      else s
  | .register =>
      if s.waiterAt = .registering then
        { s with waiterAt := .secondCheck, future := some false }
      else s
  | .secondCheck =>
      if s.waiterAt = .secondCheck then
        if s.booted then s.finish .ok else { s with waiterAt := .parked }
      else s
  | .wake => if s.waiterAt = .parked ∧ s.future = some true then s.finish .ok else s
  | .childExits | .deadline => if s.waiterAt = .parked then s.finish .error else s

/-- The mirror task's part of the state. -/
def mirror (s : Readiness) : Mirror := ⟨s.tail, s.booted, s.notifies⟩

/-- The steps of one turn of the mirror's loop do what `Mirror.scan` does. -/
theorem turn_eq_scan {s : Readiness} (h : s.mirrorAt = .reading) (chunk : Chunk) :
    (run step s [.read chunk, .scan, .swap, .notifyWaiters, .trim]).mirror = s.mirror.scan chunk ∧
    (run step s [.read chunk, .scan, .swap, .notifyWaiters, .trim]).mirrorAt = .reading := by
  have hread : step s (.read chunk) = { s with
      mirrorAt := .scanning, tail := s.tail ++ chunk.bytes, read := s.read ++ chunk.bytes } :=
    if_pos h
  simp only [run_cons, run_nil, hread]
  cases hfinds : findsMarker (s.tail ++ chunk.bytes) with
  | true =>
    rw [Mirror.scan_of_finds (m := s.mirror) hfinds]
    cases hbooted : s.booted with
    | true => simp [step, hfinds, hbooted, mirror]
    | false => simp [step, hfinds, hbooted, mirror]
  | false =>
    rw [Mirror.scan_of_not_finds (m := s.mirror) hfinds]
    simp [step, hfinds, mirror]

/-- What holds in every reachable state. A waiter that parked un-notified did so
before the flag was set, so the notification is still to come. -/
structure Sound (s : Readiness) : Prop where
  tail : s.mirrorAt ≠ .ended → s.tail <:+ s.read
  booted : s.booted = true → bootMarker <:+: s.read
  swapping : s.mirrorAt = .swapping → bootMarker <:+: s.read
  notifying : s.mirrorAt = .notifying → s.booted = true ∧ s.notifies = 0
  notifies : 0 < s.notifies → s.booted = true
  notified : s.future = some true → s.booted = true
  registered : s.waiterAt = .secondCheck ∨ s.waiterAt = .parked → s.future.isSome = true
  parked : s.waiterAt = .parked → s.future = some false → s.booted = true → s.mirrorAt = .notifying
  returned : s.waiterAt = .returned .ok → s.booted = true

theorem sound_init : init.Sound := by
  constructor <;> simp [init]

/-- Steps of the mirror task that do not reach the flag or the waiters. -/
theorem Sound.move {s : Readiness} (h : s.Sound) {place : MirrorAt} {tail read : Bytes}
    (hat : s.mirrorAt ≠ .notifying) (hplace : place ≠ .notifying)
    (htail : place ≠ .ended → tail <:+ read) (hread : s.read <+: read)
    (hswap : place = .swapping → bootMarker <:+: read) :
    ({ s with mirrorAt := place, tail := tail, read := read } : Readiness).Sound where
  tail := htail
  booted hb := (h.booted hb).trans hread.isInfix
  swapping := hswap
  notifying hn := absurd hn hplace
  notifies := h.notifies
  notified := h.notified
  registered := h.registered
  parked hp hf hb := absurd (h.parked hp hf hb) hat
  returned := h.returned

/-- Steps of the waiter that do not return. -/
theorem Sound.wait {s : Readiness} (h : s.Sound) {place : WaiterAt} {future : Option Bool}
    (hnotified : future = some true → s.booted = true)
    (hregistered : place = .secondCheck ∨ place = .parked → future.isSome = true)
    (hparked : place = .parked → s.booted = false) (hreturned : ∀ result, place ≠ .returned result) :
    ({ s with waiterAt := place, future := future } : Readiness).Sound where
  tail := h.tail
  booted := h.booted
  swapping := h.swapping
  notifying := h.notifying
  notifies := h.notifies
  notified := hnotified
  registered := hregistered
  parked hp _ hb := by
    rw [hparked hp] at hb
    cases hb
  returned hr := absurd hr (hreturned _)

/-- A call that returns. -/
theorem Sound.finish {s : Readiness} (h : s.Sound) {result : WaitResult}
    (hok : result = .ok → s.booted = true) : (s.finish result).Sound where
  tail := h.tail
  booted := h.booted
  swapping := h.swapping
  notifying := h.notifying
  notifies := h.notifies
  notified hf := by cases hf
  registered hw := by rcases hw with hw | hw <;> cases hw
  parked hp := by cases hp
  returned hr := hok (WaiterAt.returned.inj hr)

theorem Sound.swap {s : Readiness} (h : s.Sound) (hat : s.mirrorAt = .swapping) :
    (s.step .swap).Sound := by
  have hfound := h.swapping hat
  have htail := h.tail (by rw [hat]; decide)
  rw [step, if_pos hat]
  cases hb : s.booted with
  | true =>
    -- The flag was set before: nothing changes but the place.
    have hmove : ({ s with mirrorAt := .trimming } : Readiness).Sound :=
      h.move (by rw [hat]; decide) (by decide) (fun _ => htail) (List.prefix_refl _) nofun
    rw [if_pos rfl, ← hb]
    exact hmove
  | false =>
    have hzero : s.notifies = 0 := by
      by_contra hne
      have hset := h.notifies (Nat.pos_of_ne_zero hne)
      rw [hb] at hset
      cases hset
    exact {
      tail := fun _ => htail
      booted := fun _ => hfound
      swapping := fun hs => by cases hs
      notifying := fun _ => ⟨rfl, hzero⟩
      notifies := fun _ => rfl
      notified := fun _ => rfl
      registered := h.registered
      parked := fun _ _ _ => rfl
      returned := fun _ => rfl }

theorem Sound.notifyWaiters {s : Readiness} (h : s.Sound) (hat : s.mirrorAt = .notifying) :
    (s.step .notifyWaiters).Sound := by
  have hset := (h.notifying hat).1
  rw [step, if_pos hat]
  exact {
    tail := fun _ => h.tail (by rw [hat]; decide)
    booted := h.booted
    swapping := fun hs => by cases hs
    notifying := fun hn => by cases hn
    notifies := fun _ => hset
    notified := fun _ => hset
    registered := fun hw => by
      show (s.future.map fun _ => true).isSome = true
      rw [Option.isSome_map]
      exact h.registered hw
    parked := fun _ hf _ => by
      have hmap : (s.future.map fun _ => true) = some false := hf
      simp at hmap
    returned := h.returned }

theorem sound_step {s : Readiness} (h : s.Sound) (act : ReadyAct) : (s.step act).Sound := by
  cases act with
  | read chunk =>
    simp only [step]
    split
    · next hat =>
      refine h.move (by rw [hat]; decide) (by decide) (fun _ => ?_) (List.prefix_append _ _)
        nofun
      obtain ⟨before, hbefore⟩ := h.tail (by rw [hat]; decide)
      exact ⟨before, by rw [← List.append_assoc, hbefore]⟩
    · exact h
  | readEnds =>
    simp only [step]
    split
    · next hat =>
      exact h.move (by rw [hat]; decide) (by decide) (fun hne => absurd rfl hne)
        (List.prefix_refl _) nofun
    · exact h
  | writeFails chunk =>
    simp only [step]
    split
    · next hat =>
      exact h.move (by rw [hat]; decide) (by decide) (fun hne => absurd rfl hne)
        (List.prefix_append _ _) nofun
    · exact h
  | scan =>
    simp only [step]
    split
    · next hat =>
      have htail := h.tail (by rw [hat]; decide)
      refine h.move (by rw [hat]; decide) ?_ (fun _ => htail) (List.prefix_refl _) ?_
      · split <;> decide
      · intro hplace
        split at hplace
        · next hfinds => exact ((findsMarker_iff _).mp hfinds).trans htail.isInfix
        · cases hplace
    · exact h
  | swap =>
    by_cases hat : s.mirrorAt = .swapping
    · exact h.swap hat
    · rw [step, if_neg hat]
      exact h
  | notifyWaiters =>
    by_cases hat : s.mirrorAt = .notifying
    · exact h.notifyWaiters hat
    · rw [step, if_neg hat]
      exact h
  | trim =>
    simp only [step]
    split
    · next hat =>
      refine h.move (by rw [hat]; decide) (by decide) (fun _ => ?_) (List.prefix_refl _)
        nofun
      rw [trim_eq]
      exact (List.drop_suffix _ _).trans (h.tail (by rw [hat]; decide))
    · exact h
  | call =>
    simp only [step]
    split
    · exact h.wait h.notified (by simp) (by simp) (by simp)
    · exact h.wait h.notified (by simp) (by simp) (by simp)
    · exact h
  | firstCheck hasChild =>
    simp only [step]
    split
    · split
      · next hb => exact h.finish fun _ => hb
      · split
        · exact h.wait h.notified (by simp) (by simp) (by simp)
        · exact h.finish fun he => by cases he
    · exact h
  | register =>
    simp only [step]
    split
    · exact h.wait (by simp) (by simp) (by simp) (by simp)
    · exact h
  | secondCheck =>
    simp only [step]
    split
    · next hat =>
      split
      · next hb => exact h.finish fun _ => hb
      · next hb =>
        exact h.wait h.notified (fun _ => h.registered (Or.inl hat))
          (fun _ => Bool.eq_false_iff.mpr hb) (by simp)
    · exact h
  | wake =>
    simp only [step]
    split
    · next hat => exact h.finish fun _ => h.notified hat.2
    · exact h
  | childExits =>
    simp only [step]
    split
    · exact h.finish fun he => by cases he
    · exact h
  | deadline =>
    simp only [step]
    split
    · exact h.finish fun he => by cases he
    · exact h

/-- The hand-off loses no wakeup: in no interleaving is the waiter parked on a
future that was not notified after the mirror has notified the waiters; and it
returns `Ok` only if the marker is in the bytes read so far. -/
theorem no_lost_wakeup (acts : List ReadyAct) :
    ¬ (0 < (run step init acts).notifies ∧ (run step init acts).waiterAt = .parked ∧
      (run step init acts).future ≠ some true) ∧
    ((run step init acts).waiterAt = .returned .ok →
      bootMarker <:+: (run step init acts).read) := by
  have h : (run step init acts).Sound :=
    run_invariant Sound (fun _ act hs => sound_step hs act) sound_init acts
  constructor
  · rintro ⟨hnotified, hparked, hfuture⟩
    have hset := h.notifies hnotified
    have hpending : (run step init acts).future = some false := by
      obtain ⟨b, hb⟩ := Option.isSome_iff_exists.mp (h.registered (Or.inr hparked))
      cases b with
      | false => exact hb
      | true => exact absurd hb hfuture
    have hat := h.parked hparked hpending hset
    have hzero := (h.notifying hat).2
    omega
  · intro hok
    exact h.booted (h.returned hok)

end Readiness

end Sleepytale.Infra
