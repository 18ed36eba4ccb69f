import Sleepytale.Boots
import Sleepytale.Lib.Lists

/-!
# The idle timer and the ticks it stands for

`empty_since` is one time. What it stands for is the history of the ticks since the
backend's adapter was taken over: it is the time of the first tick after the last
one that counted a session. The clock stands still during a tick.
-/

namespace Sleepytale

open Sleepytale.Net
open Sleepytale.Lib.Lists
open Sleepytale.Lib.Machine
open Sleepytale.Lib.Maps
open Std (ExtTreeMap)

/-- What a tick did about a backend, with the adapter it did it with and the time:
it found the startup finished, or `has_exited` answered `Ok(false)` and it counted
the sessions. -/
inductive Mark where
  | madeRunning (boot : BootId) (time : Instant)
  | checked (boot : BootId) (time : Instant) (sessions : Nat)
  deriving DecidableEq

namespace Mark

def boot : Mark → BootId
  | madeRunning boot _ | checked boot _ _ => boot

def time : Mark → Instant
  | madeRunning _ time | checked _ time _ => time

def busy : Mark → Bool
  | madeRunning _ _ => false
  | checked _ _ sessions => sessions ≠ 0

end Mark

/-- The mark that the first half of the tick's work on a slot leaves for `b`. -/
def finishMark (b : SocketAddr) (s : State) : Option Mark :=
  match s.phase, s.backends[b]?.map ManagedBackend.lifecycle with
  | .ticking (slot :: _), some (.waking boot (.finished .ready)) =>
      if slot = b then some (.madeRunning boot s.now) else none
  | _, _ => none

/-- The mark that the second half leaves. -/
def checkMark (b : SocketAddr) (s : State) (answer : ExitCheck) : Option Mark :=
  match s.phase, s.backends[b]?.map ManagedBackend.lifecycle, answer with
  | .checking slot _, some (.running boot), .alive =>
      if slot = b then some (.checked boot s.now (s.relay.sessionCountFor b)) else none
  | _, _, _ => none

def markOf (b : SocketAddr) (s : State) : Event → Option Mark
  | .finishSlot _ => finishMark b s
  | .checkSlot env => checkMark b s env.exitCheck
  | _ => none

/-- The marks that a run leaves for `b`, oldest first. -/
def marks (p : Proxy) (b : SocketAddr) : State → List Event → List Mark
  | _, [] => []
  | s, e :: es => (markOf b s e).toList ++ marks p b (p.step s e) es

/-- The time of the first mark after the last busy one. -/
def quietSince (marks : List Mark) : Option Instant :=
  (lastStretch Mark.busy marks).head?.map Mark.time

theorem quietSince_concat (marks : List Mark) (m : Mark) :
    quietSince (marks ++ [m]) =
      if m.busy then none else some ((quietSince marks).getD m.time) := by
  unfold quietSince
  rw [lastStretch_concat]
  cases m.busy with
  | true => rfl
  | false =>
    cases lastStretch Mark.busy marks with
    | nil => rfl
    | cons first later => rfl

/-- What the marks `ms` of a run say about the slot of `b` after it. An adapter that
is not taken over yet has no mark, and the idle timer of one that is says since when
its marks are quiet. -/
structure Remembers (b : SocketAddr) (ms : List Mark) (s : State) : Prop where
  born : ∀ m ∈ ms, m.boot < s.boots
  waking : ∀ managed k task, s.backends[b]? = some managed →
    managed.lifecycle = .waking k task → ∀ m ∈ ms, m.boot ≠ k
  running : ∀ managed k, s.backends[b]? = some managed → managed.lifecycle = .running k →
    managed.emptySince = quietSince (ms.filter (·.boot = k))

namespace Remembers

variable {b : SocketAddr} {ms : List Mark} {s s' : State}

/-- A step that leaves the slot as it is, and no mark. -/
theorem frame (h : Remembers b ms s) (hboots : s.boots ≤ s'.boots)
    (hslot : s'.backends[b]? = s.backends[b]?) : Remembers b ms s' where
  born m hm := Nat.lt_of_lt_of_le (h.born m hm) hboots
  waking managed k task hm := h.waking managed k task (hslot.symm.trans hm)
  running managed k hm := h.running managed k (hslot.symm.trans hm)

/-- A step that changes a slot without a mark for `b`: where the slot is that of `b`,
it has the same startup task as before, a new one, or sleeps. -/
theorem update (h : Remembers b ms s) (hboots : s.boots ≤ s'.boots) {slot : SocketAddr}
    {managed' : ManagedBackend} (hs : s'.backends = s.backends.insert slot managed')
    (hwaking : slot = b → ∀ k task, managed'.lifecycle = .waking k task → ∀ m ∈ ms, m.boot ≠ k)
    (hrunning : slot = b → ∀ k, managed'.lifecycle ≠ .running k) : Remembers b ms s' where
  born m hm := Nat.lt_of_lt_of_le (h.born m hm) hboots
  waking managed k task hm hlife := by
    rw [hs] at hm
    rcases getElem?_insert_cases hm with ⟨rfl, rfl⟩ | ⟨_, hm⟩
    · exact hwaking rfl k task hlife
    · exact h.waking managed k task hm hlife
  running managed k hm hlife := by
    rw [hs] at hm
    rcases getElem?_insert_cases hm with ⟨rfl, rfl⟩ | ⟨_, hm⟩
    · exact absurd hlife (hrunning rfl k)
    · exact h.running managed k hm hlife

/-- A step that changes the slot of `b`, whose startup is over, and leaves a mark. -/
theorem mark (h : Remembers b ms s) (hboots : s'.boots = s.boots) {managed' : ManagedBackend}
    (hs : s'.backends = s.backends.insert b managed') {m : Mark} (hborn : m.boot < s.boots)
    (hwaking : ∀ k task, managed'.lifecycle ≠ .waking k task)
    (hrunning : ∀ k, managed'.lifecycle = .running k → m.boot = k ∧ managed'.emptySince =
      if m.busy then none else some ((quietSince (ms.filter (·.boot = k))).getD m.time)) :
    Remembers b (ms ++ [m]) s' where
  born m' hm' := by
    rw [hboots]
    rcases List.mem_append.mp hm' with hm' | hm'
    · exact h.born m' hm'
    · rw [List.mem_singleton.mp hm']
      exact hborn
  waking managed k task hm hlife := by
    rw [hs, ExtTreeMap.getElem?_insert_self] at hm
    obtain rfl := Option.some.inj hm
    exact absurd hlife (hwaking k task)
  running managed k hm hlife := by
    rw [hs, ExtTreeMap.getElem?_insert_self] at hm
    obtain rfl := Option.some.inj hm
    obtain ⟨hboot, hsince⟩ := hrunning k hlife
    have hown : [m].filter (·.boot = k) = [m] := by
      simp [hboot]
    rw [List.filter_append, hown, quietSince_concat]
    exact hsince

end Remembers

section Marks

variable {b slot : SocketAddr} {s : State} {rest : List SocketAddr} {managed : ManagedBackend}
  {k : BootId}

theorem finishMark_ready (hphase : s.phase = .ticking (b :: rest))
    (hslot : s.backends[b]? = some managed)
    (hlife : managed.lifecycle = .waking k (.finished .ready)) :
    finishMark b s = some (.madeRunning k s.now) := by
  simp [finishMark, hphase, hslot, hlife]

/-- No mark, if the slot is another one or no startup is found to have succeeded. -/
theorem finishMark_none (hphase : s.phase = .ticking (slot :: rest))
    (hnot : slot = b → ∀ managed k, s.backends[b]? = some managed →
      managed.lifecycle ≠ .waking k (.finished .ready)) : finishMark b s = none := by
  unfold finishMark
  rw [hphase]
  cases hslot : s.backends[b]? with
  | none => rfl
  | some managed =>
    rw [Option.map_some]
    split
    · next hat hlife =>
      cases hat
      rw [if_neg]
      intro heq
      exact hnot heq managed _ hslot (Option.some.inj hlife)
    · rfl

theorem checkMark_running (hphase : s.phase = .checking b rest)
    (hslot : s.backends[b]? = some managed) (hlife : managed.lifecycle = .running k) :
    checkMark b s .alive = some (.checked k s.now (s.relay.sessionCountFor b)) := by
  simp [checkMark, hphase, hslot, hlife]

/-- No mark, if the slot is another one, does not run, or `has_exited` did not answer
`Ok(false)`. -/
theorem checkMark_none {answer : ExitCheck} (hphase : s.phase = .checking slot rest)
    (hnot : slot = b → answer = .alive → ∀ managed k, s.backends[b]? = some managed →
      managed.lifecycle ≠ .running k) : checkMark b s answer = none := by
  unfold checkMark
  rw [hphase]
  cases hslot : s.backends[b]? with
  | none => rfl
  | some managed =>
    rw [Option.map_some]
    split
    · next hat hlife =>
      cases hat
      rw [if_neg]
      intro heq
      exact hnot heq rfl managed _ hslot (Option.some.inj hlife)
    · rfl

end Marks

namespace Remembers

variable {p : Proxy} {b : SocketAddr} {ms : List Mark} {s s' : State}

/-- The takeover of a ready backend leaves a mark, if the slot is the one of `b`. -/
theorem madeRunning (h : Remembers b ms s) (hb : s.Boots) {slot : SocketAddr}
    {rest : List SocketAddr} {managed : ManagedBackend} {k : BootId}
    (hphase : s.phase = .ticking (slot :: rest)) (hslot : s.backends[slot]? = some managed)
    (hlife : managed.lifecycle = .waking k (.finished .ready)) {lap : Duration} (hlap : lap = 0)
    (held : List (SocketAddr × Datagram)) (env : SocketAddr → Relay.ForwardEnv) :
    Remembers b (ms ++ (finishMark b s).toList)
      ((s.takeOver slot managed k lap).deliverHeld managed.config.backend k held env) := by
  have hboots := State.deliverHeld_boots (s.takeOver slot managed k lap) managed.config.backend k
    held env
  have hbackends := State.deliverHeld_backends (s.takeOver slot managed k lap)
    managed.config.backend k held env
  by_cases heq : slot = b
  · subst heq
    rw [finishMark_ready hphase hslot hlife, Option.toList_some]
    have hnone : ms.filter (·.boot = k) = [] := by
      rw [List.filter_eq_nil_iff]
      intro m hm
      rw [decide_eq_true_eq]
      exact h.waking managed k _ hslot hlife m hm
    have hborn : k < s.boots := hb.bound slot managed k _ hslot (by rw [hlife]; rfl)
    apply h.mark (m := .madeRunning k s.now) hboots hbackends hborn
    · simp
    · intro k' hk'
      cases hk'
      rw [hnone, hlap]
      exact ⟨rfl, rfl⟩
  · rw [finishMark_none hphase (fun he => absurd he heq), Option.toList_none, List.append_nil]
    exact h.update (Nat.le_of_eq hboots.symm) hbackends (fun he => absurd he heq)
      (fun he => absurd he heq)

theorem finishSlot (h : Remembers b ms s) (hb : s.Boots) (env : FinishEnv)
    (hlap : env.readyLap = 0) :
    Remembers b (ms ++ (finishMark b s).toList) (p.step s (.finishSlot env)) := by
  cases hphase : s.phase with
  | ticking slots =>
    cases slots with
    | nil =>
      simp only [finishMark, Proxy.step, hphase, Option.toList_none, List.append_nil]
      exact h
    | cons slot rest =>
      have hafter : (p.step s (.finishSlot env)).phase = .checking slot rest := by
        simp only [Proxy.step, hphase]
      have htrans := step_trans p s (.finishSlot env)
      generalize p.step s (.finishSlot env) = s' at htrans hafter ⊢
      have hsame : ∀ {slot' rest'}, s.phase = .ticking (slot' :: rest') → slot' = slot := by
        intro slot' rest' hs
        rw [hphase] at hs
        cases hs
        rfl
      cases htrans with
      | stay =>
        rw [hphase] at hafter
        cases hafter
      | nothingFinished hs hlife =>
        obtain rfl := hsame hs
        rw [finishMark_none hphase, Option.toList_none, List.append_nil]
        · exact h.frame (Nat.le_refl _) rfl
        · intro heq managed k hm
          rw [heq] at hlife
          exact hlife managed k .ready hm
      | bootFailed hs hslot hlife hresult =>
        obtain rfl := hsame hs
        rw [finishMark_none hphase, Option.toList_none, List.append_nil]
        · exact h.update (Nat.le_refl _) rfl (by simp) (by simp)
        · intro heq managed k hm hready
          rw [heq, hm] at hslot
          cases hslot
          rw [hready] at hlife
          cases hlife
          exact hresult rfl
      | @ready _ slot' rest' managed k hs hslot hlife =>
        obtain rfl := hsame hs
        exact (h.madeRunning hb hphase hslot hlife hlap _ _).frame (Nat.le_refl _) rfl
  | _ =>
    simp only [finishMark, Proxy.step, hphase, Option.toList_none, List.append_nil]
    exact h

/-- A check that `has_exited` answered with `Ok(false)` leaves a mark, if the slot is
the one of `b`. -/
theorem checked (h : Remembers b ms s) (hb : s.Boots) {slot : SocketAddr}
    {rest : List SocketAddr} {managed managed' : ManagedBackend} {k : BootId}
    (hphase : s.phase = .checking slot rest) (hslot : s.backends[slot]? = some managed)
    (hlife : managed.lifecycle = .running k) (hboots : s'.boots = s.boots)
    (hs : s'.backends = s.backends.insert slot managed')
    (hwaking : ∀ k' task, managed'.lifecycle ≠ .waking k' task)
    (hrunning : slot = b → managed'.lifecycle = .sleeping ∨ managed'.lifecycle = .running k ∧
      managed'.emptySince = if s.relay.sessionCountFor b ≠ 0 then none
        else some ((quietSince (ms.filter (·.boot = k))).getD s.now)) :
    Remembers b (ms ++ (checkMark b s .alive).toList) s' := by
  by_cases heq : slot = b
  · subst heq
    rw [checkMark_running hphase hslot hlife, Option.toList_some]
    have hborn : k < s.boots := hb.bound slot managed k _ hslot (by rw [hlife]; rfl)
    apply h.mark (m := .checked k s.now (s.relay.sessionCountFor slot)) hboots hs hborn hwaking
    intro k' hk'
    rcases hrunning rfl with hsleeps | ⟨hruns, hsince⟩
    · rw [hsleeps] at hk'
      cases hk'
    · rw [hruns] at hk'
      cases hk'
      refine ⟨rfl, ?_⟩
      rw [hsince]
      simp [Mark.busy, Mark.time]
  · rw [checkMark_none hphase (fun he => absurd he heq), Option.toList_none, List.append_nil]
    exact h.update (Nat.le_of_eq hboots.symm) hs (fun he => absurd he heq)
      (fun he => absurd he heq)

theorem checkSlot (h : Remembers b ms s) (hk : s.Keyed) (hb : s.Boots) (env : CheckEnv)
    (hempty : env.emptyLap = 0) :
    Remembers b (ms ++ (checkMark b s env.exitCheck).toList) (p.step s (.checkSlot env)) := by
  cases hphase : s.phase with
  | checking slot rest =>
    have hafter : (p.step s (.checkSlot env)).phase = .tick rest := by
      simp only [Proxy.step, hphase]
    have htrans := step_trans p s (.checkSlot env)
    generalize p.step s (.checkSlot env) = s' at htrans hafter ⊢
    have hsame : ∀ {slot' rest'}, s.phase = .checking slot' rest' → slot' = slot := by
      intro slot' rest' hs
      rw [hphase] at hs
      cases hs
      rfl
    cases htrans with
    | stay =>
      rw [hphase] at hafter
      cases rest <;> cases hafter
    | notRunning hs hlife =>
      obtain rfl := hsame hs
      rw [checkMark_none hphase, Option.toList_none, List.append_nil]
      · exact h.frame (Nat.le_refl _) rfl
      · intro heq _ managed k hm
        rw [heq] at hlife
        exact hlife managed k hm
    | exited hs hslot hlife hexit =>
      obtain rfl := hsame hs
      rw [checkMark_none hphase, Option.toList_none, List.append_nil]
      · exact h.update (Nat.le_refl _) rfl (by simp) (by simp)
      · intro _ halive
        rw [hexit] at halive
        cases halive
    | checkFailed hs hslot hlife hexit =>
      obtain rfl := hsame hs
      rw [checkMark_none hphase, Option.toList_none, List.append_nil]
      · exact h.frame (Nat.le_refl _) rfl
      · intro _ halive
        rw [hexit] at halive
        cases halive
    | @busy _ _ _ managed k hs hslot hlife hexit hcount =>
      obtain rfl := hsame hs
      rw [hexit]
      apply h.checked hb hphase hslot hlife
      · rfl
      · rfl
      · simp [hlife]
      · intro heq
        rw [hk _ managed hslot, heq] at hcount
        rw [if_pos hcount]
        exact Or.inr ⟨hlife, rfl⟩
    | @idling _ _ _ managed k hs hslot hlife hexit hcount hidle =>
      obtain rfl := hsame hs
      rw [hexit]
      apply h.checked hb hphase hslot hlife
      · rfl
      · rfl
      · simp [hlife]
      · intro heq
        rw [hk _ managed hslot, heq] at hcount
        rw [if_neg (not_not.mpr hcount), ← h.running managed k (heq ▸ hslot) hlife, hempty]
        exact Or.inr ⟨hlife, rfl⟩
    | idleStopped hs hslot hlife hexit hcount hidle =>
      obtain rfl := hsame hs
      rw [hexit]
      apply h.checked hb hphase hslot hlife
      · rfl
      · rfl
      · simp
      · intro _
        exact Or.inl rfl
  | _ =>
    simp only [checkMark, Proxy.step, hphase, Option.toList_none, List.append_nil]
    exact h

/-- Everything but the work of a tick leaves no mark. -/
theorem other {e : Event} (h : Remembers b ms s) (htrans : Trans p s e s')
    (hfinish : ∀ env, e ≠ .finishSlot env) (hcheck : ∀ env, e ≠ .checkSlot env) :
    Remembers b ms s' := by
  -- A slot that goes on waking with the task it had.
  have hwaking : ∀ {slot managed k task task'} {managed' : ManagedBackend},
      s.backends[slot]? = some managed → managed.lifecycle = .waking k task →
      managed'.lifecycle = .waking k task' → s'.backends = s.backends.insert slot managed' →
      s'.boots = s.boots → Remembers b ms s' := by
    intro slot managed k task task' managed' hslot hlife hlife' hs hboots
    apply h.update (Nat.le_of_eq hboots.symm) hs
    · intro heq k' task' hk'
      rw [hlife'] at hk'
      cases hk'
      exact h.waking managed k task (heq ▸ hslot) hlife
    · intro _ k' hk'
      rw [hlife'] at hk'
      cases hk'
  cases htrans with
  | stay => exact h
  | rejected => exact h.frame (Nat.le_refl _) rfl
  | relayed => exact h.frame (Nat.le_refl _) rfl
  | woke hphase hslot hlife hinitial =>
    apply h.update (Nat.le_succ _) rfl
    · intro _ k task hlife' m hm
      rw [ManagedBackend.hold_lifecycle] at hlife'
      cases hlife'
      exact Nat.ne_of_lt (h.born m hm)
    · simp
  | heldBack hphase hslot hlife hinitial =>
    exact hwaking hslot hlife ((ManagedBackend.hold_lifecycle _ _ _).trans hlife) rfl rfl
  | ignored => exact h.frame (Nat.le_refl _) rfl
  | tickStarted => exact h.frame (Nat.le_refl _) rfl
  | nothingFinished => exact absurd rfl (hfinish _)
  | ready => exact absurd rfl (hfinish _)
  | bootFailed => exact absurd rfl (hfinish _)
  | notRunning => exact absurd rfl (hcheck _)
  | exited => exact absurd rfl (hcheck _)
  | checkFailed => exact absurd rfl (hcheck _)
  | busy => exact absurd rfl (hcheck _)
  | idling => exact absurd rfl (hcheck _)
  | idleStopped => exact absurd rfl (hcheck _)
  | shutDown => exact h.frame (Nat.le_refl _) rfl
  | nothingToDrain => exact h.frame (Nat.le_refl _) rfl
  | drained => exact h.update (Nat.le_refl _) rfl (by simp) (by simp)
  | drainedFailed => exact h.update (Nat.le_refl _) rfl (by simp) (by simp)
  | gaveUp => exact h.update (Nat.le_refl _) rfl (by simp) (by simp)
  | started hslot hlife => exact hwaking hslot hlife rfl rfl rfl
  | becameReady hslot hlife => exact hwaking hslot hlife rfl rfl rfl
  | startupFailed hslot hlife => exact hwaking hslot hlife rfl rfl rfl
  | advanced => exact h.frame (Nat.le_refl _) rfl
  | path => exact h.frame (Nat.le_refl _) rfl

end Remembers

section Check

variable {p : Proxy} {s : State} {env : CheckEnv} {b : SocketAddr} {rest : List SocketAddr}
  {managed : ManagedBackend} {boot : BootId}

end Check

end Sleepytale
