import Mathlib.Data.List.Basic

/-!
# Stopping a process group (`ProcessBackend::stop`)

`start` makes the child the leader of a process group of its own, and `stop`
signals the group. What it waits for is the leader alone. Times are counted from
the call of `stop`.
-/

namespace Sleepytale.Infra

/-- When the signals reached the group. -/
structure Signals where
  term : Option Nat
  kill : Option Nat

/-- A process of the group. Left alone it exits at `exits`; if a SIGTERM reaches it
before that, it exits `reacts` later. `none` is never. -/
structure Process where
  exits : Option Nat
  reacts : Nat → Option Nat

namespace Process

/-- When the process exits without a SIGKILL. -/
def exitTime (p : Process) : Option Nat → Option Nat
  | none => p.exits
  | some sent =>
      if p.exits.any (· ≤ sent) then p.exits else (p.reacts sent).map (sent + ·)

def goneBy (p : Process) (signals : Signals) (now : Nat) : Bool :=
  (p.exitTime signals.term).any (· ≤ now) || signals.kill.any (· ≤ now)

end Process

structure ProcessGroup where
  leader : Process
  members : List Process

namespace ProcessGroup

def processes (g : ProcessGroup) : List Process := g.leader :: g.members

def allGoneBy (g : ProcessGroup) (signals : Signals) (now : Nat) : Bool :=
  g.processes.all fun p => p.goneBy signals now

end ProcessGroup

/-- `reaped` is whether an earlier wait has already returned the exit status. -/
structure Child where
  pid : Nat
  reaped : Bool

/-- `group` are the processes of the group that `start` made; without a child, an
earlier `stop` has taken it. -/
structure ProcessBackend where
  shutdownGrace : Nat
  group : ProcessGroup
  child : Option Child
  reaped_gone : ∀ c, child = some c → c.reaped = true → group.leader.exits = some 0

/-- What the operating system decides: how long after the step before it each step
of `stop` comes, and which calls fail. `seen` is how long after its exit the leader
is seen to be gone. -/
structure Os where
  check : Nat
  term : Nat
  wait : Nat
  seen : Nat
  kill : Nat
  reap : Nat
  tryWaitFails : Bool
  waitFails : Bool
  reapFails : Bool
  termErrno : Option Nat
  killErrno : Option Nat

namespace Os

def checkAt (os : Os) : Nat := os.check
def termAt (os : Os) : Nat := os.checkAt + os.term
def waitFrom (os : Os) : Nat := os.termAt + os.wait

/-- When the grace period ends. -/
def deadline (os : Os) (grace : Nat) : Nat := os.waitFrom + grace

def killAt (os : Os) (grace : Nat) : Nat := os.deadline grace + os.kill

end Os

/-- The contexts of the errors that `stop` returns. -/
inductive StopError where
  | checkingStatus
  | signalling
  | waiting
  | reaping
  deriving DecidableEq

/-- The result of `stop`, when it returned, and the signals it sent until then. -/
structure Stopped where
  result : Except StopError Unit
  returnedAt : Nat
  signals : Signals

def esrch : Nat := 3

def unsignalled : Signals := ⟨none, none⟩

/-- `libc::kill(-pid, ..)`: it reports ESRCH only if there is nothing left to
signal, and reaches every process that is left if it reports no error. The result
is the errno, if the call failed. -/
def killGroup (gone : Bool) (errno : Option Nat) : Option Nat :=
  if errno = some esrch ∧ gone = false then none else errno

def signalGroup (errno : Option Nat) : Except StopError Unit :=
  match errno with
  | none => .ok ()
  | some errno => if errno ≠ esrch then .error .signalling else .ok ()

namespace Child

def tryWait (child : Child) (leader : Process) (os : Os) : Except StopError Bool :=
  if child.reaped then .ok true
  else if os.tryWaitFails then .error .checkingStatus
  else .ok (leader.goneBy unsignalled os.checkAt)

def id (child : Child) : Option Nat := if child.reaped then none else some child.pid

end Child

namespace ProcessBackend

/-- A backend after `start`. -/
def start (shutdownGrace pid : Nat) (group : ProcessGroup) : ProcessBackend where
  shutdownGrace := shutdownGrace
  group := group
  child := some ⟨pid, false⟩
  reaped_gone c hc hr := by
    cases hc
    cases hr

def termSent (os : Os) : Signals := { unsignalled with term := some os.termAt }

/-- `child.wait()` under the timeout: when the leader is seen to be gone, unless the
grace period ends first. -/
def waitLeader (b : ProcessBackend) (os : Os) (signals : Signals) : Option Nat :=
  ((b.group.leader.exitTime signals.term).map fun exit => max exit os.waitFrom + os.seen).filter
    (· ≤ os.deadline b.shutdownGrace)

def killBackend (b : ProcessBackend) (os : Os) (signals : Signals) : Stopped :=
  let killAt := os.killAt b.shutdownGrace
  match signalGroup (killGroup (b.group.allGoneBy signals killAt) os.killErrno) with
  | .error error => ⟨.error error, killAt, signals⟩
  | .ok () =>
      let signals := { signals with kill := some killAt }
      if os.reapFails then ⟨.error .reaping, killAt + os.reap, signals⟩
      else ⟨.ok (), killAt + os.reap, signals⟩

/-- From `signal_terminate` on. -/
def terminate (b : ProcessBackend) (os : Os) : Stopped :=
  match signalGroup (killGroup (b.group.allGoneBy unsignalled os.termAt) os.termErrno) with
  | .error error => ⟨.error error, os.termAt, unsignalled⟩
  | .ok () =>
      if os.waitFails then ⟨.error .waiting, os.waitFrom, termSent os⟩
      else
        match b.waitLeader os (termSent os) with
        | some seen => ⟨.ok (), seen, termSent os⟩
        | none => b.killBackend os (termSent os)

def stop (b : ProcessBackend) (os : Os) : Stopped :=
  match b.child with
  | none => ⟨.ok (), os.checkAt, unsignalled⟩
  | some child =>
      match child.tryWait b.group.leader os with
      | .error error => ⟨.error error, os.checkAt, unsignalled⟩
      | .ok true => ⟨.ok (), os.checkAt, unsignalled⟩
      | .ok false =>
          match child.id with
          | none => ⟨.ok (), os.checkAt, unsignalled⟩
          -- `process_group(0)` made the child's pid that of its group.
          | some _ => b.terminate os

/-! ## What `stop` leaves behind -/

/-- Nothing of the group is left when `stop` returns `Ok`. -/
def NoneLeft (b : ProcessBackend) (os : Os) : Prop :=
  (b.stop os).result = .ok () →
    ∀ p ∈ b.group.processes, p.goneBy (b.stop os).signals (b.stop os).returnedAt = true

/-- Whenever the leader is seen to be gone before the grace period has ended, every
other process of the group is gone by then. -/
structure LeaderIsLast (b : ProcessBackend) (os : Os) : Prop where
  taken : b.child = none → ∀ p ∈ b.group.processes, p.goneBy unsignalled os.checkAt = true
  exited : ∀ c, b.child = some c → c.reaped = true ∨ os.tryWaitFails = false →
    b.group.leader.goneBy unsignalled os.checkAt = true →
    ∀ p ∈ b.group.members, p.goneBy unsignalled os.checkAt = true
  terminated : ∀ c, b.child = some c → c.reaped = false → os.tryWaitFails = false →
    b.group.leader.goneBy unsignalled os.checkAt = false →
    os.termErrno = none ∨ os.termErrno = some esrch → os.waitFails = false →
    ∀ exit, b.group.leader.exitTime (some os.termAt) = some exit →
      max exit os.waitFrom + os.seen ≤ os.deadline b.shutdownGrace →
    ∀ p ∈ b.group.members, p.goneBy (termSent os) (max exit os.waitFrom + os.seen) = true

theorem signalGroup_killGroup (gone : Bool) (errno : Option Nat) :
    signalGroup (killGroup gone errno) = .ok () ↔ errno = none ∨ errno = some esrch := by
  cases errno with
  | none => simp [killGroup, signalGroup]
  | some errno =>
    by_cases he : errno = esrch
    · subst he
      cases gone <;> simp [killGroup, signalGroup]
    · simp [killGroup, signalGroup, he]

theorem signalGroup_cases (errno : Option Nat) :
    signalGroup errno = .ok () ∨ ∃ error, signalGroup errno = .error error := by
  cases h : signalGroup errno with
  | ok u => exact Or.inl rfl
  | error error => exact Or.inr ⟨error, rfl⟩

theorem waitLeader_eq_some_iff (b : ProcessBackend) (os : Os) (seen : Nat) :
    b.waitLeader os (termSent os) = some seen ↔
      ∃ exit, b.group.leader.exitTime (some os.termAt) = some exit ∧
        max exit os.waitFrom + os.seen ≤ os.deadline b.shutdownGrace ∧
        seen = max exit os.waitFrom + os.seen := by
  unfold waitLeader termSent
  rw [Option.filter_eq_some_iff, Option.map_eq_some_iff]
  constructor
  · intro h
    obtain ⟨⟨exit, hexit, rfl⟩, hle⟩ := h
    exact ⟨exit, hexit, by simpa using hle, rfl⟩
  · intro h
    obtain ⟨exit, hexit, hle, rfl⟩ := h
    exact ⟨⟨exit, hexit, rfl⟩, by simpa using hle⟩

/-- SIGKILL reaches every process before `stop` returns. -/
theorem killBackend_leaves_none (b : ProcessBackend) (os : Os) (signals : Signals)
    (hok : (b.killBackend os signals).result = .ok ()) (p : Process) :
    p.goneBy (b.killBackend os signals).signals (b.killBackend os signals).returnedAt = true := by
  unfold killBackend at hok ⊢
  rcases signalGroup_cases
    (killGroup (b.group.allGoneBy signals (os.killAt b.shutdownGrace)) os.killErrno) with h | ⟨e, h⟩
  · simp only [h] at hok ⊢
    cases hreap : os.reapFails with
    | true =>
      rw [hreap] at hok
      cases hok
    | false => simp [Process.goneBy]
  · simp only [h] at hok
    cases hok

theorem terminate_of_errno {b : ProcessBackend} {os : Os}
    (h : ¬ (os.termErrno = none ∨ os.termErrno = some esrch)) :
    (b.terminate os).result ≠ .ok () := by
  intro hok
  rw [← signalGroup_killGroup (b.group.allGoneBy unsignalled os.termAt)] at h
  unfold terminate at hok
  cases hsignal : signalGroup (killGroup (b.group.allGoneBy unsignalled os.termAt) os.termErrno) with
  | ok u => exact h hsignal
  | error error =>
    rw [hsignal] at hok
    cases hok

theorem terminate_of_sent {b : ProcessBackend} {os : Os}
    (h : os.termErrno = none ∨ os.termErrno = some esrch) :
    b.terminate os =
      if os.waitFails then ⟨.error .waiting, os.waitFrom, termSent os⟩
      else
        match b.waitLeader os (termSent os) with
        | some seen => ⟨.ok (), seen, termSent os⟩
        | none => b.killBackend os (termSent os) := by
  rw [← signalGroup_killGroup (b.group.allGoneBy unsignalled os.termAt)] at h
  unfold terminate
  rw [h]

theorem leader_goneBy_seen {b : ProcessBackend} {os : Os} {exit : Nat}
    (h : b.group.leader.exitTime (some os.termAt) = some exit) :
    b.group.leader.goneBy (termSent os) (max exit os.waitFrom + os.seen) = true := by
  have hexit : b.group.leader.exitTime (termSent os).term = some exit := h
  unfold Process.goneBy
  rw [hexit]
  simp only [Option.any_some, Bool.or_eq_true, decide_eq_true_eq]
  left
  omega

/-- From SIGTERM on, what is left depends on whether the leader is seen to be gone
in time. -/
theorem terminate_leaves_none_iff (b : ProcessBackend) (os : Os) :
    ((b.terminate os).result = .ok () → ∀ p ∈ b.group.processes,
        p.goneBy (b.terminate os).signals (b.terminate os).returnedAt = true) ↔
      (os.termErrno = none ∨ os.termErrno = some esrch → os.waitFails = false →
        ∀ exit, b.group.leader.exitTime (some os.termAt) = some exit →
          max exit os.waitFrom + os.seen ≤ os.deadline b.shutdownGrace →
        ∀ p ∈ b.group.members,
          p.goneBy (termSent os) (max exit os.waitFrom + os.seen) = true) := by
  by_cases herrno : os.termErrno = none ∨ os.termErrno = some esrch
  · rw [terminate_of_sent herrno]
    cases hwait : os.waitFails with
    | true => simp
    | false =>
      simp only [Bool.false_eq_true, if_false]
      cases hseen : b.waitLeader os (termSent os) with
      | some seen =>
        obtain ⟨exit, hexit, hle, rfl⟩ := (waitLeader_eq_some_iff b os seen).mp hseen
        constructor
        · intro h _ _ exit' hexit' _ p hp
          have hsame : exit' = exit := Option.some.inj (hexit'.symm.trans hexit)
          rw [hsame]
          exact h rfl p (List.mem_cons_of_mem _ hp)
        · intro h _ p hp
          rcases List.mem_cons.mp hp with rfl | hmember
          · exact leader_goneBy_seen hexit
          · exact h herrno trivial exit hexit hle p hmember
      | none =>
        constructor
        · intro _ _ _ exit hexit hle
          have hsome := (waitLeader_eq_some_iff b os _).mpr ⟨exit, hexit, hle, rfl⟩
          rw [hseen] at hsome
          cases hsome
        · intro _ hok p _
          exact killBackend_leaves_none b os (termSent os) hok p
  · constructor
    · intro _ hsent
      exact absurd hsent herrno
    · intro _ hok
      exact absurd hok (terminate_of_errno herrno)

theorem stop_of_taken {b : ProcessBackend} (os : Os) (h : b.child = none) :
    b.stop os = ⟨.ok (), os.checkAt, unsignalled⟩ := by
  unfold stop
  rw [h]

theorem stop_of_exited {b : ProcessBackend} {c : Child} {os : Os} (hc : b.child = some c)
    (hwait : c.reaped = true ∨ os.tryWaitFails = false)
    (hgone : b.group.leader.goneBy unsignalled os.checkAt = true) :
    b.stop os = ⟨.ok (), os.checkAt, unsignalled⟩ := by
  have htry : c.tryWait b.group.leader os = .ok true := by
    unfold Child.tryWait
    cases hr : c.reaped with
    | true => rfl
    | false =>
      rcases hwait with hreaped | hworks
      · rw [hr] at hreaped
        cases hreaped
      · simp [hworks, hgone]
  unfold stop
  simp only [hc, htry]

theorem stop_of_tryWaitFails {b : ProcessBackend} {c : Child} {os : Os} (hc : b.child = some c)
    (hreaped : c.reaped = false) (hfails : os.tryWaitFails = true) :
    (b.stop os).result ≠ .ok () := by
  have htry : c.tryWait b.group.leader os = .error .checkingStatus := by
    simp [Child.tryWait, hreaped, hfails]
  unfold stop
  simp only [hc, htry]
  intro h
  cases h

theorem stop_of_running {b : ProcessBackend} {c : Child} {os : Os} (hc : b.child = some c)
    (hreaped : c.reaped = false) (hworks : os.tryWaitFails = false)
    (hleft : b.group.leader.goneBy unsignalled os.checkAt = false) :
    b.stop os = b.terminate os := by
  have htry : c.tryWait b.group.leader os = .ok false := by
    simp [Child.tryWait, hreaped, hworks, hleft]
  have hid : c.id = some c.pid := by
    simp [Child.id, hreaped]
  unfold stop
  simp only [hc, htry, hid]

/-- A leader that was waited for is gone. -/
theorem leader_goneBy_of_reaped {b : ProcessBackend} {c : Child} {os : Os} (hc : b.child = some c)
    (hreaped : c.reaped = true) : b.group.leader.goneBy unsignalled os.checkAt = true := by
  have hexits := b.reaped_gone c hc hreaped
  simp [Process.goneBy, Process.exitTime, unsignalled, hexits]

theorem exited_leaves_none_iff {b : ProcessBackend} {os : Os}
    (hgone : b.group.leader.goneBy unsignalled os.checkAt = true)
    (hstop : b.stop os = ⟨.ok (), os.checkAt, unsignalled⟩) :
    b.NoneLeft os ↔ ∀ p ∈ b.group.members, p.goneBy unsignalled os.checkAt = true := by
  unfold NoneLeft
  rw [hstop]
  constructor
  · intro h p hp
    exact h rfl p (List.mem_cons_of_mem _ hp)
  · intro h _ p hp
    rcases List.mem_cons.mp hp with rfl | hmember
    · exact hgone
    · exact h p hmember

theorem failed_leaves_none_iff {b : ProcessBackend} {c : Child} {os : Os} (hc : b.child = some c)
    (hreaped : c.reaped = false) (hfails : os.tryWaitFails = true) :
    b.NoneLeft os ↔ b.LeaderIsLast os := by
  constructor
  · intro _
    exact {
      taken := fun hnone => by
        rw [hc] at hnone
        cases hnone
      exited := fun c' hc' hwait => by
        cases hc.symm.trans hc'
        simp [hreaped, hfails] at hwait
      terminated := fun _ _ _ hworks => by
        rw [hfails] at hworks
        cases hworks }
  · intro _ hok
    exact absurd hok (stop_of_tryWaitFails hc hreaped hfails)

/-- `stop` judges the group by its leader: it leaves nothing of the group behind
exactly if every other process is gone by the time that the leader is seen to be. -/
theorem stop_leaves_none_iff (b : ProcessBackend) (os : Os) :
    b.NoneLeft os ↔ b.LeaderIsLast os := by
  cases hc : b.child with
  | none =>
    have hstop := stop_of_taken os hc
    constructor
    · intro h
      unfold NoneLeft at h
      rw [hstop] at h
      exact {
        taken := fun _ => h rfl
        exited := fun c hsome => by
          rw [hc] at hsome
          cases hsome
        terminated := fun c hsome => by
          rw [hc] at hsome
          cases hsome }
    · intro h _
      rw [hstop]
      exact h.taken hc
  | some c =>
    have htaken : b.child ≠ none := by
      rw [hc]
      nofun
    cases hgone : b.group.leader.goneBy unsignalled os.checkAt with
    | true =>
      by_cases hwait : c.reaped = true ∨ os.tryWaitFails = false
      · rw [exited_leaves_none_iff hgone (stop_of_exited hc hwait hgone)]
        constructor
        · intro h
          exact {
            taken := fun hnone => absurd hnone htaken
            exited := fun _ _ _ _ => h
            terminated := fun _ _ _ _ hleft => by
              rw [hgone] at hleft
              cases hleft }
        · intro h
          exact h.exited c hc hwait hgone
      · rw [not_or, Bool.not_eq_true, Bool.not_eq_false] at hwait
        exact failed_leaves_none_iff hc hwait.1 hwait.2
    | false =>
      -- A leader that is still there was not waited for.
      have hreaped : c.reaped = false := by
        by_contra hr
        have hthere : b.group.leader.goneBy unsignalled os.checkAt = true :=
          leader_goneBy_of_reaped hc (by simpa using hr)
        rw [hgone] at hthere
        cases hthere
      cases hfails : os.tryWaitFails with
      | true => exact failed_leaves_none_iff hc hreaped hfails
      | false =>
        have hstop := stop_of_running hc hreaped hfails hgone
        unfold NoneLeft
        rw [hstop, terminate_leaves_none_iff]
        constructor
        · intro h
          exact {
            taken := fun hnone => absurd hnone htaken
            exited := fun _ _ _ hthere => by
              rw [hgone] at hthere
              cases hthere
            terminated := fun _ _ _ _ _ => h }
        · intro h
          exact h.terminated c hc hreaped hfails hgone

/-- A launcher that ends at once on SIGTERM, and the server it started, which takes
eight seconds to save its worlds. -/
def launcher : ProcessGroup where
  leader := ⟨none, fun _ => some 0⟩
  members := [⟨none, fun _ => some 8⟩]

/-- No call fails and none takes time. -/
def promptOs : Os := ⟨0, 0, 0, 0, 0, 0, false, false, false, none, none⟩

/-- The grace period is ten seconds. `stop` returns when the launcher is gone, and
the server is still there. -/
theorem stop_leaves_server :
    ((start 10 1 launcher).stop promptOs).result = .ok () ∧
    ∃ p ∈ launcher.members,
      p.goneBy ((start 10 1 launcher).stop promptOs).signals
        ((start 10 1 launcher).stop promptOs).returnedAt = false := by
  refine ⟨rfl, ⟨none, fun _ => some 8⟩, List.mem_cons_self, ?_⟩
  decide

end ProcessBackend

end Sleepytale.Infra
