import Sleepytale.Lifecycle

/-!
# Two states that differ in one slot

A tick is work on one slot after another, with the startup tasks and the return
paths beside it. From two states that differ in one slot only, the work on every
other slot goes the same way.
-/

namespace Sleepytale

open Sleepytale.Net
open Sleepytale.Lib.Machine
open Sleepytale.Lib.Maps
open Std (ExtTreeMap)

/-! ## A tick, slot by slot -/

/-- What goes on beside the loop during a tick: startup tasks and return paths. -/
inductive Background where
  | started (slot : SocketAddr)
  | startupDone (slot : SocketAddr) (result : StartupResult)
  | path (act : PathAct)

def Background.event : Background → Event
  | started slot => .started slot
  | startupDone slot result => .startupDone slot result
  | path act => .path act

/-- What outside code answers in the tick's work on one slot, and what goes on
beside the loop before each half of it. -/
structure Turn where
  before : List Background
  order : HeldOrder
  bindOk : SocketAddr → Bool
  sendOk : SocketAddr → Bool
  between : List Background
  exitCheck : ExitCheck
  stopOk : Bool

namespace Turn

def finish (turn : Turn) : FinishEnv :=
  ⟨turn.order, fun client => ⟨0, turn.bindOk client, turn.sendOk client⟩, 0⟩

def check (turn : Turn) : CheckEnv := ⟨turn.exitCheck, turn.stopOk, 0, 0⟩

/-- The work on the slot, from its first half to its second. -/
def work (turn : Turn) : List Event :=
  .finishSlot turn.finish :: (turn.between.map Background.event ++ [.checkSlot turn.check])

def events (turn : Turn) : List Event := turn.before.map Background.event ++ turn.work

/-- What is left of the turn if the slot is not there. -/
def background (turn : Turn) : List Event := (turn.before ++ turn.between).map Background.event

end Turn

/-- All that a step beside the loop can do: nothing, move a startup on, or a step of
a return path. -/
theorem background_cases (p : Proxy) (s : State) (e : Background) :
    p.step s e.event = s ∨
    (∃ slot managed k task task' effects, s.backends[slot]? = some managed ∧
      managed.lifecycle = .waking k task ∧
      p.step s e.event =
        { s with
          backends := s.backends.insert slot { managed with lifecycle := .waking k task' }
          log := s.log ++ effects } ∧
      ∀ effect ∈ effects, effect = .started k ∨ effect = .dropped k) ∨
    ∃ act, p.step s e.event = { s with relay := s.relay.path act } := by
  have htrans := step_trans p s e.event
  generalize p.step s e.event = s' at htrans
  cases e with
  | started slot =>
    cases htrans with
    | stay => exact Or.inl rfl
    | @started _ managed k hslot hlife =>
      exact Or.inr (Or.inl ⟨slot, managed, k, _, _, [.started k], hslot, hlife, rfl, by simp⟩)
  | startupDone slot result =>
    cases htrans with
    | stay => exact Or.inl rfl
    | @becameReady _ managed k hslot hlife =>
      refine Or.inr (Or.inl ⟨slot, managed, k, _, .finished .ready, [], hslot, hlife, ?_, by simp⟩)
      rw [List.append_nil]
    | @startupFailed _ managed k task _ hslot hlife =>
      exact Or.inr (Or.inl ⟨slot, managed, k, _, _, [.dropped k], hslot, hlife, rfl, by simp⟩)
  | path act =>
    cases htrans with
    | stay => exact Or.inl rfl
    | path => exact Or.inr (Or.inr ⟨act, rfl⟩)

theorem phase_background (p : Proxy) (s : State) (e : Background) :
    (p.step s e.event).phase = s.phase := by
  rcases background_cases p s e with h | ⟨_, _, _, _, _, _, _, _, h, _⟩ | ⟨_, h⟩
  all_goals rw [h]

section Background

variable (p : Proxy) (es : List Background)

/-- What goes on beside the loop is logged as starts of servers and drops of adapters. -/
theorem background_log (s : State) : ∃ effects : List Effect,
    (run p.step s (es.map Background.event)).log = s.log ++ effects ∧
    ∀ e ∈ effects, (∃ k, e = .started k) ∨ ∃ k, e = .dropped k := by
  induction es generalizing s with
  | nil => exact ⟨[], (List.append_nil _).symm, by simp⟩
  | cons e es ih =>
    obtain ⟨later, hlater, hl⟩ := ih (p.step s e.event)
    rw [List.map_cons, run_cons, hlater]
    rcases background_cases p s e with h | ⟨_, _, k, _, _, effects, _, _, h, hk⟩ | ⟨_, h⟩
    · rw [h]
      exact ⟨later, rfl, hl⟩
    · rw [h]
      refine ⟨effects ++ later, List.append_assoc _ _ _, ?_⟩
      intro effect he
      rcases List.mem_append.mp he with he | he
      · rcases hk effect he with rfl | rfl
        · exact Or.inl ⟨k, rfl⟩
        · exact Or.inr ⟨k, rfl⟩
      · exact hl effect he
    · rw [h]
      exact ⟨later, rfl, hl⟩

theorem background_sessions (s : State) :
    (run p.step s (es.map Background.event)).relay.sessions = s.relay.sessions := by
  induction es generalizing s with
  | nil => rfl
  | cons e es ih =>
    rw [List.map_cons, run_cons, ih]
    rcases background_cases p s e with h | ⟨_, _, _, _, _, _, _, _, h, _⟩ | ⟨act, h⟩
    · rw [h]
    · rw [h]
    · rw [h]
      exact (Relay.pathFrame_path s.relay act).sessions

theorem background_phase (s : State) :
    (run p.step s (es.map Background.event)).phase = s.phase := by
  induction es generalizing s with
  | nil => rfl
  | cons e es ih =>
    rw [List.map_cons, run_cons, ih]
    exact phase_background p s e

/-- No slot comes to run by what goes on beside the loop. -/
theorem background_running {s : State} {b : SocketAddr}
    (h : (run p.step s (es.map Background.event)).Running b) : s.Running b := by
  induction es generalizing s with
  | nil => exact h
  | cons e es ih =>
    rw [List.map_cons, run_cons] at h
    obtain ⟨managed, hslot, k, hlife⟩ := ih h
    rcases background_cases p s e with hs | ⟨slot, _, _, _, _, _, _, _, hs, _⟩ | ⟨_, hs⟩
    · rw [hs] at hslot
      exact ⟨managed, hslot, k, hlife⟩
    · rw [hs] at hslot
      rcases getElem?_insert_cases hslot with ⟨rfl, rfl⟩ | ⟨_, hslot⟩
      · cases hlife
      · exact ⟨managed, hslot, k, hlife⟩
    · rw [hs] at hslot
      exact ⟨managed, hslot, k, hlife⟩

end Background

/-! ## Two states that differ in one slot -/

/-- The adapter or the startup task in a slot. -/
def Lifecycle.boot? : Lifecycle → Option BootId
  | sleeping => none
  | waking boot _ | running boot => some boot

/-- A datagram sent to a backend other than `a`, a call on an adapter other than
`boot`, which is the one of `a`, or the tick's notes about another slot. -/
def Effect.elsewhere (a : SocketAddr) (boot : Option BootId) : Effect → Bool
  | forwarded call => call.dest.any (· ≠ a)
  | consumed _ slot _ | checked _ slot _ | idleStop _ slot _ => slot ≠ a
  | started k | stopped k _ | abandoned k | dropped k => some k ≠ boot
  | received _ _ _ | rejected _ _ | spawned _ _ _ _ _ => true

/-- The states agree on the clock, the relay and every slot but `a`, which `t` does
not have, and their logs agree elsewhere. -/
structure Apart (a : SocketAddr) (boot : Option BootId) (s t : State) : Prop where
  now : s.now = t.now
  relay : s.relay = t.relay
  others : ∀ b, b ≠ a → s.backends[b]? = t.backends[b]?
  gone : t.backends[a]? = none
  own : ∀ managed, s.backends[a]? = some managed → managed.config.backend = a ∧
    ∀ k, managed.lifecycle.boot? = some k → boot = some k
  log : s.log.filter (·.elsewhere a boot) = t.log.filter (·.elsewhere a boot)

namespace Apart

variable {a : SocketAddr} {boot : Option BootId} {s t : State}

theorem atPhase (h : Apart a boot s t) (phase phase' : Phase) :
    Apart a boot { s with phase := phase } { t with phase := phase' } := { h with }

theorem emit (h : Apart a boot s t) (effect : Effect) :
    Apart a boot (s.emit effect) (t.emit effect) :=
  { h with
    log := by
      show (s.log ++ _).filter _ = (t.log ++ _).filter _
      rw [List.filter_append, List.filter_append, h.log] }

theorem advance (h : Apart a boot s t) (lap : Duration) :
    Apart a boot (s.advance lap) (t.advance lap) :=
  { h with now := congrArg (· + lap) h.now }

theorem withRelay (h : Apart a boot s t) (f : Relay → Relay) :
    Apart a boot { s with relay := f s.relay } { t with relay := f t.relay } :=
  { h with relay := congrArg f h.relay }

theorem setSlot (h : Apart a boot s t) {b : SocketAddr} (hb : b ≠ a) (managed : ManagedBackend) :
    Apart a boot (s.setSlot b managed) (t.setSlot b managed) :=
  { h with
    others := by
      intro c hc
      show (s.backends.insert b managed)[c]? = (t.backends.insert b managed)[c]?
      rw [getElem?_insert_eq, getElem?_insert_eq, h.others c hc]
    gone := by
      show (t.backends.insert b managed)[a]? = none
      rw [getElem?_insert_ne _ _ hb]
      exact h.gone
    own := by
      intro m hm
      have hsame : (s.backends.insert b managed)[a]? = some m := hm
      rw [getElem?_insert_ne _ _ hb] at hsame
      exact h.own m hsame }

theorem forward (h : Apart a boot s t) (origin : Origin) (client backend : SocketAddr)
    (datagram : Datagram) (env : Relay.ForwardEnv) :
    Apart a boot (s.forward origin client backend datagram env)
      (t.forward origin client backend datagram env) := by
  have hcall : s.forwardCall origin client backend datagram env =
      t.forwardCall origin client backend datagram env := by
    unfold State.forwardCall
    rw [h.now, h.relay]
  exact {
    now := congrArg (· + env.lap) h.now
    relay := by
      rw [State.forward_relay, State.forward_relay, h.now, h.relay]
    others := h.others
    gone := h.gone
    own := h.own
    log := by
      rw [State.forward_log, State.forward_log, List.filter_append, List.filter_append, h.log,
        hcall] }

theorem deliverHeld (h : Apart a boot s t) (backend : SocketAddr) (k : BootId)
    (held : List (SocketAddr × Datagram)) (env : SocketAddr → Relay.ForwardEnv) :
    Apart a boot (s.deliverHeld backend k held env) (t.deliverHeld backend k held env) := by
  induction held generalizing s t with
  | nil => exact h
  | cons entry held ih =>
    rw [State.deliverHeld_cons, State.deliverHeld_cons]
    exact ih (h.forward _ _ _ _ _)

/-- The work on another slot goes the same way in both. -/
theorem finishStartup (h : Apart a boot s t) {b : SocketAddr} (hb : b ≠ a) (env : FinishEnv) :
    Apart a boot (s.finishStartup b env) (t.finishStartup b env) := by
  unfold State.finishStartup
  rw [h.others b hb]
  cases t.backends[b]? with
  | none => exact h
  | some managed =>
    simp only
    split
    · next k _ =>
      have hready := (h.emit (.consumed k managed.config.backend .ready)).advance env.readyLap
      rw [hready.now]
      exact (hready.setSlot hb _).deliverHeld _ _ _ _
    · exact (h.emit _).setSlot hb _
    · exact h

theorem checkRunning (h : Apart a boot s t) {b : SocketAddr} (hb : b ≠ a) (idle : Duration)
    (env : CheckEnv) : Apart a boot (s.checkRunning idle b env) (t.checkRunning idle b env) := by
  unfold State.checkRunning
  rw [h.others b hb]
  cases t.backends[b]? with
  | none => exact h
  | some managed =>
    simp only
    split
    · next k _ =>
      cases env.exitCheck with
      | exited =>
        have hdropped := ((h.emit (.checked k managed.config.backend .exited)).setSlot hb
          { managed with lifecycle := .sleeping, emptySince := none }).emit (.dropped k)
        exact hdropped.withRelay fun relay => relay.dropSessionsFor managed.config.backend
      | error => exact h.emit _
      | alive =>
        have hchecked := h.emit (.checked k managed.config.backend .alive)
        have hempty := hchecked.advance env.emptyLap
        have helapsed := hempty.advance env.elapsedLap
        simp only
        rw [hchecked.relay, hempty.now, helapsed.now]
        split
        · split
          · exact (((helapsed.setSlot hb _).emit _).emit _).emit _
          · exact helapsed.setSlot hb _
        · exact hchecked.setSlot hb _
    · exact h

/-- Only one of the states has the slot `a`. -/
theorem own_slot (h : Apart a boot s t) {managed : ManagedBackend} {phase : Phase}
    (hconfig : managed.config.backend = a)
    (hboot : ∀ k, managed.lifecycle.boot? = some k → boot = some k) :
    Apart a boot { s with backends := s.backends.insert a managed, phase := phase } t :=
  { h with
    others := by
      intro b hb
      rw [getElem?_insert_ne _ _ (Ne.symm hb)]
      exact h.others b hb
    own := by
      intro m hm
      rw [ExtTreeMap.getElem?_insert_self, Option.some.injEq] at hm
      rw [← hm]
      exact ⟨hconfig, hboot⟩ }

theorem own_log (h : Apart a boot s t) {effects : List Effect} {phase : Phase}
    (hown : ∀ e ∈ effects, e.elsewhere a boot = false) :
    Apart a boot { s with phase := phase, log := s.log ++ effects } t :=
  { h with
    log := by
      have hnone : effects.filter (·.elsewhere a boot) = [] := by
        rw [List.filter_eq_nil_iff]
        intro e he
        rw [hown e he]
        nofun
      rw [List.filter_append, hnone, List.append_nil, h.log] }

/-- The adapter or task in the slot `a` is the one whose calls are left out. -/
theorem boot_eq (h : Apart a boot s t) {managed : ManagedBackend} {k : BootId}
    (hslot : s.backends[a]? = some managed) (hlife : managed.lifecycle.boot? = some k) :
    boot = some k := (h.own managed hslot).2 k hlife

theorem own_emit (h : Apart a boot s t) {effect : Effect}
    (hown : effect.elsewhere a boot = false) : Apart a boot (s.emit effect) t := by
  apply h.own_log
  intro e he
  rw [List.mem_singleton.mp he]
  exact hown

theorem own_waking (h : Apart a boot s t) {managed : ManagedBackend} {k : BootId}
    (hslot : s.backends[a]? = some managed) (hboot : boot = some k) (task : Startup) :
    Apart a boot (s.setSlot a { managed with lifecycle := .waking k task }) t := by
  apply own_slot h
  · exact (h.own managed hslot).1
  · intro _ hk
    rw [hboot]
    exact hk

theorem startReturned (h : Apart a boot s t) (b : SocketAddr) :
    Apart a boot (s.startReturned b) (t.startReturned b) := by
  unfold State.startReturned
  by_cases hb : b = a
  · subst hb
    rw [h.gone]
    cases hslot : s.backends[b]? with
    | none => exact h
    | some managed =>
      simp only
      split
      · next k hlife =>
        have hboot := h.boot_eq hslot (by rw [hlife]; rfl)
        exact (h.own_waking hslot hboot .waiting).own_emit (by simp [Effect.elsewhere, hboot])
      · exact h
  · rw [h.others b hb]
    cases t.backends[b]? with
    | none => exact h
    | some managed =>
      simp only
      split
      · exact (h.setSlot hb _).emit _
      · exact h

theorem startupDone (h : Apart a boot s t) (b : SocketAddr) (result : StartupResult) :
    Apart a boot (s.startupDone b result) (t.startupDone b result) := by
  unfold State.startupDone
  by_cases hb : b = a
  · subst hb
    rw [h.gone]
    cases hslot : s.backends[b]? with
    | none => exact h
    | some managed =>
      simp only
      split
      · next hlife => exact h.own_waking hslot (h.boot_eq hslot (by rw [hlife]; rfl)) _
      · exact h
      · next k hlife _ =>
        have hboot := h.boot_eq hslot (by rw [hlife]; rfl)
        exact (h.own_waking hslot hboot _).own_emit (by simp [Effect.elsewhere, hboot])
      · next k hlife _ =>
        have hboot := h.boot_eq hslot (by rw [hlife]; rfl)
        exact (h.own_waking hslot hboot _).own_emit (by simp [Effect.elsewhere, hboot])
      · exact h
  · rw [h.others b hb]
    cases t.backends[b]? with
    | none => exact h
    | some managed =>
      simp only
      split
      · exact h.setSlot hb _
      · exact h
      · exact (h.setSlot hb _).emit _
      · exact (h.setSlot hb _).emit _
      · exact h

theorem background (h : Apart a boot s t) (p : Proxy) (e : Background) :
    Apart a boot (p.step s e.event) (p.step t e.event) := by
  cases e with
  | started slot => exact h.startReturned slot
  | startupDone slot result => exact h.startupDone slot result
  | path act => exact h.withRelay fun relay => relay.path act

end Apart

/-- The same at given places of the two ticks. -/
structure ApartAt (a : SocketAddr) (boot : Option BootId) (phase phase' : Phase) (s t : State) :
    Prop where
  apart : Apart a boot s t
  left : s.phase = phase
  right : t.phase = phase'

namespace ApartAt

variable {a b : SocketAddr} {boot : Option BootId} {phase phase' : Phase} {s t : State}
  {rest rest' : List SocketAddr} {p : Proxy}

theorem background (h : ApartAt a boot phase phase' s t) (es : List Background) :
    ApartAt a boot phase phase' (run p.step s (es.map Background.event))
      (run p.step t (es.map Background.event)) := by
  apply run_related (ApartAt a boot phase phase') _ h
  intro s t e he h
  obtain ⟨e, _, rfl⟩ := List.mem_map.mp he
  exact {
    apart := h.apart.background p e
    left := (phase_background p s e).trans h.left
    right := (phase_background p t e).trans h.right }

theorem finishSlot (h : ApartAt a boot (.ticking (b :: rest)) (.ticking (b :: rest')) s t)
    (hb : b ≠ a) (env : FinishEnv) :
    ApartAt a boot (.checking b rest) (.checking b rest') (p.step s (.finishSlot env))
      (p.step t (.finishSlot env)) := by
  simp only [Proxy.step, h.left, h.right]
  exact ⟨(h.apart.finishStartup hb env).atPhase _ _, rfl, rfl⟩

theorem checkSlot (h : ApartAt a boot (.checking b rest) (.checking b rest') s t)
    (hb : b ≠ a) (env : CheckEnv) :
    ApartAt a boot (.tick rest) (.tick rest') (p.step s (.checkSlot env))
      (p.step t (.checkSlot env)) := by
  simp only [Proxy.step, h.left, h.right]
  exact ⟨(h.apart.checkRunning hb _ env).atPhase _ _, rfl, rfl⟩

/-- The turn of another slot. -/
theorem turn (h : ApartAt a boot (.tick (b :: rest)) (.tick (b :: rest')) s t) (hb : b ≠ a)
    (turn : Turn) :
    ApartAt a boot (.tick rest) (.tick rest') (run p.step s turn.events)
      (run p.step t turn.events) := by
  unfold Turn.events Turn.work
  rw [run_append, run_append, run_cons, run_cons, run_snoc, run_snoc]
  exact (((h.background turn.before).finishSlot hb turn.finish).background
    turn.between).checkSlot hb turn.check

theorem turns (turns : SocketAddr → Turn) {slots : List SocketAddr} (ha : a ∉ slots)
    (h : ApartAt a boot (.tick (slots ++ rest)) (.tick (slots ++ rest')) s t) :
    ApartAt a boot (.tick rest) (.tick rest')
      (run p.step s (slots.flatMap fun slot => (turns slot).events))
      (run p.step t (slots.flatMap fun slot => (turns slot).events)) := by
  induction slots generalizing s t with
  | nil => exact h
  | cons b slots ih =>
    rw [List.mem_cons, not_or] at ha
    rw [List.flatMap_cons, run_append, run_append]
    exact ih ha.2 (h.turn (Ne.symm ha.1) (turns b))

end ApartAt

end Sleepytale
