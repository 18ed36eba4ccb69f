import Sleepytale.Apart
import Sleepytale.Routing

/-!
# One backend's errors and the others

A tick is compared with the same tick run without the slot of one backend: the
same answers from outside code, the same background steps at the same places, and
no work on that slot. The clock stands still during a tick.
-/

namespace Sleepytale

open Sleepytale.Net
open Sleepytale.Lib.Machine
open Sleepytale.Lib.Maps
open Std (ExtTreeMap)

/-! ## A tick with and without a slot -/

/-- A tick over the slots `keys`. -/
def tick (turns : SocketAddr → Turn) (keys : List SocketAddr) : List Event :=
  .tickStart :: keys.flatMap fun slot => (turns slot).events

/-- The same tick without the work on `a`. -/
def tickWithout (a : SocketAddr) (turns : SocketAddr → Turn) (keys : List SocketAddr) :
    List Event :=
  .tickStart :: keys.flatMap fun slot =>
    if slot = a then (turns slot).background else (turns slot).events

namespace State

def without (s : State) (a : SocketAddr) : State := { s with backends := s.backends.erase a }

/-- The state in which a tick from `s` comes to its work on `a`. -/
def atTurn (p : Proxy) (s : State) (turns : SocketAddr → Turn) (a : SocketAddr) : State :=
  run p.step s (tick turns (s.backends.keys.takeWhile (· ≠ a)) ++
    (turns a).before.map Background.event)

end State

def Lifecycle.ready : Lifecycle → Bool
  | waking _ (.finished .ready) => true
  | _ => false

def State.bootOf (s : State) (a : SocketAddr) : Option BootId :=
  s.backends[a]?.bind fun managed => managed.lifecycle.boot?

/-- What the work on `a` logs, from the state in which the tick comes to it. -/
def workLog (p : Proxy) (s : State) (turn : Turn) : List Effect :=
  (run p.step s turn.work).log.drop s.log.length

/-- The work on `a` meets a startup error, a panic of the startup task, an error from
`has_exited` in a slot that was already running, or an error from `stop`. -/
def MeetsError (p : Proxy) (s : State) (a : SocketAddr) (turn : Turn) : Prop :=
  ∃ boot, .consumed boot a .failed ∈ workLog p s turn ∨
    .consumed boot a .panicked ∈ workLog p s turn ∨
    (.checked boot a .error ∈ workLog p s turn ∧ s.Running a) ∨
    .stopped boot false ∈ workLog p s turn

/-- Whether the two ticks, with and without `a`, do the same for everybody else: the
other slots, the sessions pinned to other backends, the datagrams sent to them and
the calls on their adapters. -/
structure Scoped (p : Proxy) (s : State) (a : SocketAddr) (turns : SocketAddr → Turn) : Prop where
  slots : ∀ b, b ≠ a → (run p.step s (tick turns s.backends.keys)).backends[b]? =
    (run p.step (s.without a) (tickWithout a turns s.backends.keys)).backends[b]?
  sessions : ∀ (client : SocketAddr) (session : Session), session.backend ≠ a →
    ((run p.step s (tick turns s.backends.keys)).relay.sessions[client]? = some session ↔
      (run p.step (s.without a) (tickWithout a turns s.backends.keys)).relay.sessions[client]? =
        some session)
  log : (run p.step s (tick turns s.backends.keys)).log.filter (·.elsewhere a (s.bootOf a)) =
    (run p.step (s.without a) (tickWithout a turns s.backends.keys)).log.filter
      (·.elsewhere a (s.bootOf a))

/-- The slot is ready and holds an Initial of a client that has a session. -/
def ReadyForPinned (s : State) (a : SocketAddr) : Prop :=
  ∃ managed boot, s.backends[a]? = some managed ∧
    managed.lifecycle = .waking boot (.finished .ready) ∧
    ∃ client ∈ managed.held, s.relay.sessions[client]? ≠ none

theorem readyForPinned_iff (s : State) (a : SocketAddr) :
    ReadyForPinned s a ↔ (s.backends[a]?.any fun managed =>
      managed.lifecycle.ready && managed.held.toList.any fun entry =>
        (s.relay.sessions[entry.1]?).isSome) = true := by
  rw [Option.any_eq_true]
  constructor
  · intro h
    obtain ⟨managed, boot, hslot, hlife, client, hheld, hsession⟩ := h
    obtain ⟨datagram, hd⟩ :=
      Option.isSome_iff_exists.mp (ExtTreeMap.isSome_getElem?_iff_mem.mpr hheld)
    refine ⟨managed, hslot, ?_⟩
    rw [Bool.and_eq_true, List.any_eq_true]
    refine ⟨by rw [hlife]; rfl, (client, datagram), ?_, Option.isSome_iff_ne_none.mpr hsession⟩
    exact ExtTreeMap.mem_toList_iff_getElem?_eq_some.mpr hd
  · intro h
    obtain ⟨managed, hslot, hready⟩ := h
    rw [Bool.and_eq_true, List.any_eq_true] at hready
    obtain ⟨hlife, entry, hentry, hsession⟩ := hready
    have hboot : ∃ boot, managed.lifecycle = .waking boot (.finished .ready) := by
      unfold Lifecycle.ready at hlife
      split at hlife
      · next boot h => exact ⟨boot, h⟩
      · cases hlife
    obtain ⟨boot, hboot⟩ := hboot
    have hd := ExtTreeMap.mem_toList_iff_getElem?_eq_some.mp hentry
    exact ⟨managed, boot, hslot, hboot, entry.1,
      ExtTreeMap.isSome_getElem?_iff_mem.mp (by rw [hd]; rfl),
      Option.isSome_iff_ne_none.mp hsession⟩

instance (s : State) (a : SocketAddr) : Decidable (ReadyForPinned s a) :=
  decidable_of_iff _ (readyForPinned_iff s a).symm

/-! ## The turn of the slot itself -/

/-- Initials of clients without a session, held for a backend that has none after
their delivery: no socket could be bound for any of them. -/
theorem deliverHeld_unbound {s : State} {backend : SocketAddr} {boot : BootId}
    {held : List (SocketAddr × Datagram)} {env : SocketAddr → Relay.ForwardEnv}
    (hnone : ∀ entry ∈ held, s.relay.sessions[entry.1]? = none)
    (hcount : (s.deliverHeld backend boot held env).relay.sessionCountFor backend = 0) :
    (s.deliverHeld backend boot held env).relay = s.relay ∧
    ∃ calls : List Forward,
      (s.deliverHeld backend boot held env).log = s.log ++ calls.map .forwarded ∧
      ∀ call ∈ calls, call.dest = none := by
  induction held generalizing s with
  | nil => exact ⟨rfl, [], (List.append_nil _).symm, by simp⟩
  | cons entry held ih =>
    have hfirst := hnone entry List.mem_cons_self
    rw [State.deliverHeld_cons] at hcount ⊢
    rcases Relay.forward_cases s.relay (s.now + (env entry.1).lap) (env entry.1) entry.1 backend
      entry.2 with ⟨old, _, hold, _⟩ | ⟨_, _, _, _, he⟩ | ⟨_, _, _, _, he⟩
    · rw [hfirst] at hold
      cases hold
    · -- A session that was opened is still there in the end.
      have hopened : (s.forward (.held backend boot) entry.1 backend entry.2
          (env entry.1)).relay.sessionBackend entry.1 = some backend := by
        rw [State.forward_relay, he, Relay.sessionBackend, Relay.sessions_openSession, if_pos rfl]
        rfl
      have hkept := State.deliverHeld_invariant
        (fun t => t.relay.sessionBackend entry.1 = some backend) backend boot held env
        (fun t client datagram _ ht => Relay.sessionBackend_forward ht _ _ _ _ _) hopened
      obtain ⟨session, hsession, hbackend⟩ := Option.map_eq_some_iff.mp hkept
      exact absurd hbackend (Relay.sessionCountFor_eq_zero hcount hsession)
    · have hrelay : (s.forward (.held backend boot) entry.1 backend entry.2
          (env entry.1)).relay = s.relay := by
        rw [State.forward_relay, he]
      have hcall : (s.forwardCall (.held backend boot) entry.1 backend entry.2
          (env entry.1)).dest = none := by
        unfold State.forwardCall
        rw [he]
      obtain ⟨hsame, calls, hlog, hdest⟩ := ih (fun other ho => by
        rw [hrelay]
        exact hnone other (List.mem_cons_of_mem _ ho)) hcount
      refine ⟨hsame.trans hrelay, s.forwardCall (.held backend boot) entry.1 backend entry.2
        (env entry.1) :: calls, ?_, ?_⟩
      · rw [hlog, State.forward_log, List.append_assoc]
        rfl
      · intro call hc
        rcases List.mem_cons.mp hc with rfl | hc
        · exact hcall
        · exact hdest call hc

theorem deliverHeld_now {backend : SocketAddr} {boot : BootId}
    {held : List (SocketAddr × Datagram)} {env : SocketAddr → Relay.ForwardEnv}
    (hlap : ∀ client, (env client).lap = 0) (s : State) :
    (s.deliverHeld backend boot held env).now = s.now := by
  apply State.deliverHeld_invariant (fun t => t.now = s.now)
  · intro t client datagram _ ht
    rw [State.forward_now, hlap, Nat.add_zero]
    exact ht
  · rfl

namespace Apart

variable {a : SocketAddr} {boot : Option BootId} {s t : State}

/-- A delivery that reaches nobody is not seen elsewhere. -/
theorem own_deliver (h : Apart a boot s t) {k : BootId} {held : List (SocketAddr × Datagram)}
    {env : SocketAddr → Relay.ForwardEnv} (hlap : ∀ client, (env client).lap = 0)
    (hnone : ∀ entry ∈ held, s.relay.sessions[entry.1]? = none)
    (hcount : (s.deliverHeld a k held env).relay.sessionCountFor a = 0) :
    Apart a boot (s.deliverHeld a k held env) t := by
  obtain ⟨hrelay, calls, hlog, hdest⟩ := deliverHeld_unbound hnone hcount
  have hquiet : Apart a boot { s with log := s.log ++ calls.map .forwarded } t := by
    apply h.own_log
    intro e he
    obtain ⟨call, hc, rfl⟩ := List.mem_map.mp he
    simp [Effect.elsewhere, hdest call hc]
  exact {
    now := (deliverHeld_now hlap s).trans h.now
    relay := hrelay.trans h.relay
    others := by
      rw [State.deliverHeld_backends]
      exact h.others
    gone := h.gone
    own := by
      rw [State.deliverHeld_backends]
      exact h.own
    log := by
      rw [hlog]
      exact hquiet.log }

/-- The check of the slot itself, if it does not find that the backend exited. -/
theorem own_check (h : Apart a boot s t) (idle : Duration) (turn : Turn)
    (hexit : turn.exitCheck = .exited → ¬ s.Running a) :
    Apart a boot (s.checkRunning idle a turn.check) t := by
  unfold State.checkRunning
  cases hslot : s.backends[a]? with
  | none => exact h
  | some managed =>
    have hconfig := (h.own managed hslot).1
    simp only
    split
    · next k hlife =>
      have hboot := h.boot_eq hslot (by rw [hlife]; rfl)
      have hchecked : Apart a boot (s.emit (.checked k managed.config.backend turn.exitCheck)) t :=
        h.own_emit (by simp [Effect.elsewhere, hconfig])
      have hclock : ∀ since, Apart a boot ((s.emit (.checked k managed.config.backend
          turn.exitCheck)).setSlot a { managed with emptySince := since }) t := by
        intro since
        apply own_slot hchecked
        · exact hconfig
        · exact fun k' hk' => h.boot_eq hslot hk'
      have hstopped : Apart a boot ((s.emit (.checked k managed.config.backend
          turn.exitCheck)).setSlot a { managed with lifecycle := .sleeping, emptySince := none }) t := by
        apply own_slot hchecked
        · exact hconfig
        · intro k' hk'
          cases hk'
      have hshow : turn.check.exitCheck = turn.exitCheck := rfl
      rw [hshow]
      cases hanswer : turn.exitCheck with
      | exited => exact absurd ⟨managed, hslot, k, hlife⟩ (hexit hanswer)
      | error =>
        rw [hanswer] at hchecked
        exact hchecked
      | alive =>
        rw [hanswer] at hclock hstopped
        simp only
        split
        · split
          · apply own_emit (own_emit (own_emit hstopped _) _)
            · simp [Effect.elsewhere, hboot]
            · simp [Effect.elsewhere, hconfig]
            · simp [Effect.elsewhere, hboot]
          · exact hclock _
        · exact hclock none
    · exact h

end Apart

theorem Trans.keyed {p : Proxy} {s s' : State} {e : Event} (h : Trans p s e s') (hk : s.Keyed) :
    s'.Keyed := by
  intro slot managed hslot
  rcases h.slot_cases with hb | ⟨changed, old, new, hold, hb, hconfig⟩
  · rw [hb] at hslot
    exact hk slot managed hslot
  · rw [hb] at hslot
    rcases getElem?_insert_cases hslot with ⟨rfl, rfl⟩ | ⟨_, hslot⟩
    · rw [hconfig]
      exact hk slot old hold
    · exact hk slot managed hslot

theorem State.Keyed.without {s : State} (hk : s.Keyed) (a : SocketAddr) : (s.without a).Keyed := by
  intro slot managed hslot
  unfold State.without at hslot
  by_cases heq : a = slot
  · rw [heq, ExtTreeMap.getElem?_erase_self] at hslot
    cases hslot
  · rw [getElem?_erase_ne _ heq] at hslot
    exact hk slot managed hslot

theorem keyed_steps {p : Proxy} {s : State} (hk : s.Keyed) (events : List Event) :
    (run p.step s events).Keyed :=
  run_invariant State.Keyed (fun s e hs => (step_trans p s e).keyed hs) hk events

theorem Trans.finish_log {p : Proxy} {s s' : State} {env : FinishEnv}
    (h : Trans p s (.finishSlot env) s') : ∃ effects : List Effect, s'.log = s.log ++ effects ∧
    (∀ k slot answer, .checked k slot answer ∉ effects) ∧ ∀ k ok, .stopped k ok ∉ effects := by
  cases h with
  | stay => exact ⟨[], (List.append_nil _).symm, by simp, by simp⟩
  | nothingFinished => exact ⟨[], (List.append_nil _).symm, by simp, by simp⟩
  | @ready _ slot rest managed boot hphase hslot hlife =>
    obtain ⟨calls, hlog, _⟩ := State.deliverHeld_log (s.takeOver slot managed boot env.readyLap)
      managed.config.backend boot (env.order.list managed.held) env.forward
    refine ⟨_, hlog.trans (List.append_assoc _ _ _), by simp, by simp⟩
  | bootFailed => exact ⟨_, rfl, by simp, by simp⟩

/-- The errors that the check can log, and when it does. -/
theorem Trans.check_log {p : Proxy} {s s' : State} {env : CheckEnv}
    (h : Trans p s (.checkSlot env) s') : ∃ effects : List Effect, s'.log = s.log ++ effects ∧
    (∀ k slot result, .consumed k slot result ∉ effects) ∧
    (∀ k slot, .checked k slot .error ∈ effects → env.exitCheck = .error) ∧
    ∀ k ok, .stopped k ok ∈ effects → env.exitCheck = .alive ∧
      ∃ slot rest managed, s.phase = .checking slot rest ∧ s.backends[slot]? = some managed ∧
        s.relay.sessionCountFor managed.config.backend = 0 := by
  cases h with
  | stay => exact ⟨[], (List.append_nil _).symm, by simp, by simp, by simp⟩
  | notRunning => exact ⟨[], (List.append_nil _).symm, by simp, by simp, by simp⟩
  | exited => exact ⟨_, rfl, by simp, by simp, by simp⟩
  | checkFailed _ _ _ hexit => exact ⟨_, rfl, by simp, fun _ _ _ => hexit, by simp⟩
  | busy => exact ⟨_, rfl, by simp, by simp, by simp⟩
  | idling => exact ⟨_, rfl, by simp, by simp, by simp⟩
  | @idleStopped _ slot rest managed boot hphase hslot hlife hexit hcount hidle =>
    exact ⟨_, rfl, by simp, by simp, fun _ _ _ => ⟨hexit, slot, rest, managed, hphase, hslot,
      hcount⟩⟩

/-- Which error the work on a slot met, by the step that met it. -/
theorem meetsError_cases {p : Proxy} {s : State} {a : SocketAddr} {turn : Turn}
    (h : MeetsError p s a turn) :
    (∃ k result effects, (p.step s (.finishSlot turn.finish)).log = s.log ++ effects ∧
      .consumed k a result ∈ effects ∧ result ≠ .ready) ∨
    (turn.exitCheck = .error ∧ s.Running a) ∨
    (turn.exitCheck = .alive ∧
      ∃ slot rest managed,
        (run p.step (p.step s (.finishSlot turn.finish))
          (turn.between.map Background.event)).phase = .checking slot rest ∧
        (run p.step (p.step s (.finishSlot turn.finish))
          (turn.between.map Background.event)).backends[slot]? = some managed ∧
        (run p.step (p.step s (.finishSlot turn.finish))
          (turn.between.map Background.event)).relay.sessionCountFor managed.config.backend = 0) := by
  obtain ⟨finished, hfinished, hnocheck, hnostop⟩ :=
    (step_trans p s (.finishSlot turn.finish)).finish_log
  obtain ⟨beside, hbeside, hkind⟩ :=
    background_log p turn.between (p.step s (.finishSlot turn.finish))
  obtain ⟨checked, hchecked, hnoconsumed, herror, hstop⟩ := (step_trans p
    (run p.step (p.step s (.finishSlot turn.finish)) (turn.between.map Background.event))
    (.checkSlot turn.check)).check_log
  have hlog : workLog p s turn = finished ++ beside ++ checked := by
    unfold workLog Turn.work
    rw [run_cons, run_snoc, hchecked, hbeside, hfinished, List.append_assoc, List.append_assoc,
      List.drop_left, List.append_assoc]
  have hbesides : ∀ e ∈ beside, (∀ k slot result, e ≠ .consumed k slot result) ∧
      (∀ k slot answer, e ≠ .checked k slot answer) ∧ ∀ k ok, e ≠ .stopped k ok := by
    intro e he
    rcases hkind e he with ⟨_, rfl⟩ | ⟨_, rfl⟩
    · simp
    · simp
  have hconsumed : ∀ k result, .consumed k a result ∈ workLog p s turn →
      .consumed k a result ∈ finished := by
    intro k result hm
    rw [hlog, List.mem_append, List.mem_append] at hm
    rcases hm with (hm | hm) | hm
    · exact hm
    · exact absurd rfl ((hbesides _ hm).1 k a result)
    · exact absurd hm (hnoconsumed k a result)
  obtain ⟨k, hm | hm | ⟨hm, hrun⟩ | hm⟩ := h
  · exact Or.inl ⟨k, _, finished, hfinished, hconsumed k _ hm, by decide⟩
  · exact Or.inl ⟨k, _, finished, hfinished, hconsumed k _ hm, by decide⟩
  · rw [hlog, List.mem_append, List.mem_append] at hm
    rcases hm with (hm | hm) | hm
    · exact absurd hm (hnocheck k a _)
    · exact absurd rfl ((hbesides _ hm).2.1 k a _)
    · exact Or.inr (Or.inl ⟨herror k a hm, hrun⟩)
  · rw [hlog, List.mem_append, List.mem_append] at hm
    rcases hm with (hm | hm) | hm
    · exact absurd hm (hnostop k _)
    · exact absurd rfl ((hbesides _ hm).2.2 k _)
    · exact Or.inr (Or.inr (hstop k _ hm))

/-- A slot that has just become ready meets no error but one from `stop`. -/
theorem count_eq_zero_of_ready {p : Proxy} {s : State} {a : SocketAddr} {rest : List SocketAddr}
    {managed : ManagedBackend} {k : BootId} {turn : Turn} (hk : s.Keyed)
    (hphase : s.phase = .ticking (a :: rest)) (hslot : s.backends[a]? = some managed)
    (hlife : managed.lifecycle = .waking k (.finished .ready)) (herror : MeetsError p s a turn) :
    turn.exitCheck = .alive ∧
    ((s.takeOver a managed k 0).deliverHeld a k (turn.order.list managed.held)
      turn.finish.forward).relay.sessionCountFor a = 0 := by
  have hconfig := hk a managed hslot
  have hstep : p.step s (.finishSlot turn.finish) =
      { (s.takeOver a managed k 0).deliverHeld a k (turn.order.list managed.held)
        turn.finish.forward with phase := .checking a rest } := by
    simp only [Proxy.step, hphase, State.finishStartup, hslot, hlife, hconfig]
    rw [State.takeOver, hconfig]
    rfl
  rcases meetsError_cases herror with ⟨k', result, effects, hlog, hm, hresult⟩ | ⟨_, hrun⟩ |
    ⟨halive, slot, rest', found, hat, hfound, hcount⟩
  · obtain ⟨calls, hcalls, _⟩ := State.deliverHeld_log (s.takeOver a managed k 0) a k
      (turn.order.list managed.held) turn.finish.forward
    have heffects : effects = .consumed k managed.config.backend .ready :: calls.map .forwarded := by
      rw [hstep] at hlog
      have hboth := hlog.symm.trans (hcalls.trans (List.append_assoc _ _ _))
      exact List.append_cancel_left hboth
    rw [heffects] at hm
    simp only [List.mem_cons, Effect.consumed.injEq, List.mem_map, reduceCtorEq, and_false,
      exists_false, or_false] at hm
    exact absurd hm.2.2 hresult
  · obtain ⟨m, hm, _, hrunning⟩ := hrun
    rw [hslot, Option.some.injEq] at hm
    rw [← hm, hlife] at hrunning
    cases hrunning
  · refine ⟨halive, ?_⟩
    have hkeyed := keyed_steps (p := p) hk
      (.finishSlot turn.finish :: turn.between.map Background.event)
    rw [run_cons] at hkeyed
    rw [hkeyed slot found hfound, Relay.sessionCountFor, background_sessions] at hcount
    rw [background_phase] at hat
    rw [hstep] at hat hcount
    cases hat
    exact hcount

namespace ApartAt

variable {a : SocketAddr} {boot : Option BootId} {phase' : Phase} {s t : State}
  {rest : List SocketAddr} {p : Proxy}

/-- The first half of a turn that meets an error. -/
theorem own_finish (h : ApartAt a boot (.ticking (a :: rest)) phase' s t) (hk : s.Keyed)
    {turn : Turn} (herror : MeetsError p s a turn) (hfree : ¬ ReadyForPinned s a) :
    ApartAt a boot (.checking a rest) phase' (p.step s (.finishSlot turn.finish)) t ∧
    (turn.exitCheck = .exited → ¬ (p.step s (.finishSlot turn.finish)).Running a) := by
  have hphase : (p.step s (.finishSlot turn.finish)).phase = .checking a rest := by
    simp only [Proxy.step, h.left]
  have hcases := meetsError_cases herror
  have htrans := step_trans p s (.finishSlot turn.finish)
  generalize p.step s (.finishSlot turn.finish) = s' at htrans hphase hcases ⊢
  have hslot_eq : ∀ slot rest', s.phase = .ticking (slot :: rest') → slot = a ∧ rest' = rest := by
    intro slot rest' hs
    rw [h.left] at hs
    cases hs
    exact ⟨rfl, rfl⟩
  cases htrans with
  | stay =>
    rw [h.left] at hphase
    cases hphase
  | @nothingFinished _ slot rest' hs _ =>
    obtain ⟨rfl, rfl⟩ := hslot_eq slot rest' hs
    refine ⟨⟨h.apart.atPhase _ _, rfl, h.right⟩, ?_⟩
    intro hexit
    rcases hcases with ⟨k, result, effects, hlog, hm, _⟩ | ⟨hanswer, _⟩ | ⟨hanswer, _⟩
    · have hnil : effects = [] := by simpa using hlog
      rw [hnil] at hm
      cases hm
    · rw [hexit] at hanswer
      cases hanswer
    · rw [hexit] at hanswer
      cases hanswer
  | @bootFailed _ slot rest' managed k result hs hslot hlife hresult =>
    obtain ⟨rfl, rfl⟩ := hslot_eq slot rest' hs
    have hconfig := hk slot managed hslot
    refine ⟨⟨?_, rfl, h.right⟩, ?_⟩
    · have hslept : Apart slot boot (s.setSlot slot
          { managed with lifecycle := .sleeping, held := ∅ }) t := by
        apply Apart.own_slot h.apart
        · exact hconfig
        · intro _ hk
          cases hk
      apply hslept.own_log
      simp [Effect.elsewhere, hconfig]
    · intro _ hrun
      obtain ⟨m, hm, _, hrunning⟩ := hrun
      rw [ExtTreeMap.getElem?_insert_self, Option.some.injEq] at hm
      rw [← hm] at hrunning
      cases hrunning
  | @ready _ slot rest' managed k hs hslot hlife =>
    obtain ⟨rfl, rfl⟩ := hslot_eq slot rest' hs
    have hconfig := hk slot managed hslot
    obtain ⟨halive, hcount⟩ := count_eq_zero_of_ready hk hs hslot hlife herror
    have htaken : Apart slot boot (s.takeOver slot managed k 0) t := by
      have hrunning : Apart slot boot (s.setSlot slot { managed with
          lifecycle := .running k, emptySince := some (s.now + 0), held := ∅ }) t := by
        apply Apart.own_slot h.apart
        · exact hconfig
        · intro k' hk'
          rw [h.apart.boot_eq hslot (by rw [hlife]; rfl)]
          exact hk'
      apply hrunning.own_log
      simp [Effect.elsewhere, hconfig]
    have hnone : ∀ entry ∈ turn.order.list managed.held, s.relay.sessions[entry.1]? = none := by
      intro entry hentry
      by_contra hsession
      have hheld := turn.order.mem_list.mp hentry
      exact hfree ⟨managed, k, hslot, hlife, entry.1,
        ExtTreeMap.isSome_getElem?_iff_mem.mp (by rw [hheld]; rfl), hsession⟩
    refine ⟨⟨?_, rfl, h.right⟩, ?_⟩
    · rw [hconfig]
      exact (htaken.own_deliver (fun _ => rfl) hnone hcount).atPhase _ t.phase
    · intro hexit
      rw [halive] at hexit
      cases hexit

theorem own_check (h : ApartAt a boot (.checking a rest) phase' s t) {turn : Turn}
    (hexit : turn.exitCheck = .exited → ¬ s.Running a) :
    ApartAt a boot (.tick rest) phase' (p.step s (.checkSlot turn.check)) t := by
  simp only [Proxy.step, h.left]
  exact ⟨(h.apart.own_check p.config.idleTimeout turn hexit).atPhase _ t.phase, rfl, h.right⟩

/-- The turn of the slot itself, if it meets an error. -/
theorem own_turn (h : ApartAt a boot (.ticking (a :: rest)) phase' s t) (hk : s.Keyed)
    {turn : Turn} (herror : MeetsError p s a turn) (hfree : ¬ ReadyForPinned s a) :
    ApartAt a boot (.tick rest) phase' (run p.step s turn.work)
      (run p.step t (turn.between.map Background.event)) := by
  obtain ⟨hfinished, hexit⟩ := h.own_finish hk herror hfree
  unfold Turn.work
  rw [run_cons, run_snoc]
  apply (hfinished.background turn.between).own_check
  intro hanswer hrun
  exact hexit hanswer (background_running p turn.between hrun)

end ApartAt

/-! ## The whole tick -/

section Tick

variable {p : Proxy} {s : State} {a : SocketAddr} {turns : SocketAddr → Turn}
  {before after : List SocketAddr}

/-- The slots of a tick before and after `a`. -/
theorem exists_keys (ha : a ∈ s.backends) : ∃ before after,
    s.backends.keys = before ++ a :: after ∧ a ∉ before ∧ a ∉ after ∧
    s.backends.keys.takeWhile (· ≠ a) = before ∧ (s.without a).backends.keys = before ++ after := by
  obtain ⟨before, after, hkeys⟩ := List.append_of_mem (ExtTreeMap.mem_keys.mpr ha)
  have hnodup : s.backends.keys.Nodup := ExtTreeMap.nodup_keys
  rw [hkeys, List.nodup_middle, List.nodup_cons, List.mem_append, not_or] at hnodup
  obtain ⟨⟨hbefore, hafter⟩, _⟩ := hnodup
  have hb : ∀ slot ∈ before, decide (slot ≠ a) = true := by
    intro slot hslot
    rw [decide_eq_true_eq]
    intro heq
    exact hbefore (heq ▸ hslot)
  have hf : ∀ slot ∈ after, decide (slot ≠ a) = true := by
    intro slot hslot
    rw [decide_eq_true_eq]
    intro heq
    exact hafter (heq ▸ hslot)
  refine ⟨before, after, hkeys, hbefore, hafter, ?_, ?_⟩
  · rw [hkeys, List.takeWhile_append_of_pos hb]
    simp
  · unfold State.without
    rw [keys_erase, hkeys, List.filter_append, List.filter_cons_of_neg (by simp),
      List.filter_eq_self.mpr hb, List.filter_eq_self.mpr hf]

theorem run_tick (hkeys : s.backends.keys = before ++ a :: after)
    (hbefore : s.backends.keys.takeWhile (· ≠ a) = before) :
    run p.step s (tick turns s.backends.keys) =
      run p.step (run p.step (s.atTurn p turns a) (turns a).work)
        (after.flatMap fun slot => (turns slot).events) := by
  unfold State.atTurn
  rw [hbefore, hkeys]
  unfold tick Turn.events
  rw [List.flatMap_append, List.flatMap_cons, ← List.cons_append, ← run_append, ← run_append]
  simp only [List.append_assoc]

theorem flatMap_without {slots : List SocketAddr} (ha : a ∉ slots) :
    (slots.flatMap fun slot => if slot = a then (turns slot).background else (turns slot).events) =
      slots.flatMap fun slot => (turns slot).events := by
  apply List.flatMap_congr
  intro slot hslot
  rw [if_neg]
  intro heq
  exact ha (heq ▸ hslot)

theorem run_tickWithout (hkeys : s.backends.keys = before ++ a :: after) (hb : a ∉ before)
    (hf : a ∉ after) (t : State) :
    run p.step t (tickWithout a turns s.backends.keys) =
      run p.step (run p.step (run p.step (run p.step t (tick turns before))
        ((turns a).before.map Background.event)) ((turns a).between.map Background.event))
        (after.flatMap fun slot => (turns slot).events) := by
  unfold tickWithout tick
  rw [hkeys, List.flatMap_append, List.flatMap_cons, if_pos rfl, flatMap_without hb,
    flatMap_without hf, ← List.cons_append, ← run_append, ← run_append, ← run_append]
  unfold Turn.background
  rw [List.map_append]
  simp only [List.append_assoc]

/-- The two ticks come to the turn of `a` in states that differ in its slot only. -/
theorem apart_atTurn (hserving : s.phase = .serving) (hk : s.Keyed)
    (hkeys : s.backends.keys = before ++ a :: after) (hb : a ∉ before)
    (hwhile : s.backends.keys.takeWhile (· ≠ a) = before)
    (hwithout : (s.without a).backends.keys = before ++ after) :
    ApartAt a (s.bootOf a) (.ticking (a :: after)) (.tick after) (s.atTurn p turns a)
      (run p.step (run p.step (s.without a) (tick turns before))
        ((turns a).before.map Background.event)) := by
  have hstart : ApartAt a (s.bootOf a) (.tick (before ++ a :: after)) (.tick (before ++ after))
      (p.step s .tickStart) (p.step (s.without a) .tickStart) := by
    have hserving' : (s.without a).phase = .serving := hserving
    simp only [Proxy.step, hserving, hserving', if_true, hkeys, hwithout]
    refine ⟨?_, rfl, rfl⟩
    exact {
      now := rfl
      relay := rfl
      others := fun b hb => (getElem?_erase_ne _ (Ne.symm hb)).symm
      gone := ExtTreeMap.getElem?_erase_self
      own := by
        intro managed hslot
        refine ⟨hk a managed hslot, ?_⟩
        intro k hlife
        have hslot' : s.backends[a]? = some managed := hslot
        unfold State.bootOf
        rw [hslot']
        exact hlife
      log := rfl }
  have hturns := hstart.turns (p := p) turns hb
  unfold State.atTurn
  rw [hwhile, run_append]
  exact hturns.background (turns a).before

theorem apart_tick (hserving : s.phase = .serving) (hk : s.Keyed) (ha : a ∈ s.backends)
    (herror : MeetsError p (s.atTurn p turns a) a (turns a))
    (hfree : ¬ ReadyForPinned (s.atTurn p turns a) a) :
    Apart a (s.bootOf a) (run p.step s (tick turns s.backends.keys))
      (run p.step (s.without a) (tickWithout a turns s.backends.keys)) := by
  obtain ⟨before, after, hkeys, hb, hf, hwhile, hwithout⟩ := exists_keys ha
  rw [run_tick hkeys hwhile, run_tickWithout hkeys hb hf]
  have hown := (apart_atTurn hserving hk hkeys hb hwhile hwithout).own_turn (keyed_steps hk _)
    herror hfree
  rw [← List.append_nil after] at hown
  exact (hown.turns turns hf).apart

end Tick

/-- Where a datagram that is forwarded comes from: from its client, or out of a slot. -/
def State.Sends (s : State) (origin : Origin) : Prop :=
  origin = .direct ∨ ∃ (slot : SocketAddr) (managed : ManagedBackend) (k : BootId),
    s.backends[slot]? = some managed ∧ origin = .held managed.config.backend k

theorem Trans.forward_origins {p : Proxy} {s s' : State} {e : Event} (h : Trans p s e s') :
    ∃ effects : List Effect, s'.log = s.log ++ effects ∧
    ∀ call : Forward, .forwarded call ∈ effects → s.Sends call.origin := by
  have hquiet : s'.log = s.log → ∃ effects : List Effect, s'.log = s.log ++ effects ∧
      ∀ call : Forward, .forwarded call ∈ effects → s.Sends call.origin := by
    intro hlog
    exact ⟨[], by rw [hlog, List.append_nil], by simp⟩
  cases h with
  | stay => exact hquiet rfl
  | relayed => exact ⟨_, List.append_assoc _ _ _, by simp [State.Sends]⟩
  | @ready env slot rest managed boot hphase hslot hlife =>
    obtain ⟨calls, hlog, _, hall⟩ := State.deliverHeld_log (s.takeOver slot managed boot env.readyLap)
      managed.config.backend boot (env.order.list managed.held) env.forward
    refine ⟨_, hlog.trans (List.append_assoc _ _ _), ?_⟩
    intro call hcall
    simp only [List.singleton_append, List.mem_cons, reduceCtorEq, List.mem_map,
      Effect.forwarded.injEq, exists_eq_right, false_or] at hcall
    exact Or.inr ⟨slot, managed, boot, hslot, (hall call hcall).1⟩
  | tickStarted => exact hquiet rfl
  | nothingFinished => exact hquiet rfl
  | notRunning => exact hquiet rfl
  | shutDown => exact hquiet rfl
  | nothingToDrain => exact hquiet rfl
  | drainedFailed => exact hquiet rfl
  | becameReady => exact hquiet rfl
  | advanced => exact hquiet rfl
  | path => exact hquiet rfl
  | _ => exact ⟨_, rfl, by simp⟩

/-- Without the slot, nothing is forwarded that was held in it. -/
theorem without_forwards {p : Proxy} {t : State} {a : SocketAddr} (hk : t.Keyed)
    (hgone : t.backends[a]? = none) (events : List Event) :
    ∃ effects : List Effect, (run p.step t events).log = t.log ++ effects ∧
    ∀ (call : Forward) (k : BootId), .forwarded call ∈ effects → call.origin ≠ .held a k := by
  induction events generalizing t with
  | nil => exact ⟨[], (List.append_nil _).symm, by simp⟩
  | cons e events ih =>
    have htrans := step_trans p t e
    have hgone' : (p.step t e).backends[a]? = none := by
      rcases htrans.slot_cases with hb | ⟨slot, old, _, hold, hb, _⟩
      · rw [hb]
        exact hgone
      · rw [hb, getElem?_insert_ne]
        · exact hgone
        · intro heq
          rw [heq, hgone] at hold
          cases hold
    obtain ⟨first, hfirst, horigin⟩ := htrans.forward_origins
    obtain ⟨later, hlater, hl⟩ := ih (htrans.keyed hk) hgone'
    refine ⟨first ++ later, ?_, ?_⟩
    · rw [run_cons, hlater, hfirst, List.append_assoc]
    · intro call k hcall
      rcases List.mem_append.mp hcall with hcall | hcall
      · rcases horigin call hcall with hdirect | ⟨slot, managed, k', hslot, hheld⟩
        · rw [hdirect]
          nofun
        · rw [hheld, hk slot managed hslot]
          intro heq
          cases heq
          rw [hgone] at hslot
          cases hslot
      · exact hl call k hcall

theorem run_log_append (p : Proxy) (s : State) (events : List Event) :
    ∃ effects : List Effect, (run p.step s events).log = s.log ++ effects := by
  induction events generalizing s with
  | nil => exact ⟨[], (List.append_nil _).symm⟩
  | cons e events ih =>
    obtain ⟨first, hfirst⟩ := (step_trans p s e).log_append
    obtain ⟨later, hlater⟩ := ih (p.step s e)
    exact ⟨first ++ later, by rw [run_cons, hlater, hfirst, List.append_assoc]⟩

/-- A slot that is ready for a client with a session sends its Initial to another
backend, which the tick without the slot does not. -/
theorem not_scoped_of_pinned {p : Proxy} {s : State} {a : SocketAddr}
    {turns : SocketAddr → Turn} (hserving : s.phase = .serving) (hk : s.Keyed)
    (ha : a ∈ s.backends) (hruns : (s.atTurn p turns a).SessionsRun)
    (hpinned : ReadyForPinned (s.atTurn p turns a) a) : ¬ Scoped p s a turns := by
  intro hscoped
  obtain ⟨before, after, hkeys, hb, _, hwhile, hwithout⟩ := exists_keys ha
  have hphase : (s.atTurn p turns a).phase = .ticking (a :: after) :=
    (apart_atTurn hserving hk hkeys hb hwhile hwithout).left
  obtain ⟨managed, k, hslot, hlife, client, hheld, hsession⟩ := hpinned
  obtain ⟨session, hsession⟩ := Option.ne_none_iff_exists'.mp hsession
  have hconfig : managed.config.backend = a := keyed_steps hk _ a managed hslot
  have hother : session.backend ≠ a :=
    hruns.backend_ne hslot (ManagedBackend.not_running_of_waking ⟨_, _, hlife⟩) hsession
  obtain ⟨sent, hsent, call, hcall, horigin, hdest⟩ :=
    finishSlot_pinned (p := p) (turns a).finish hphase hslot hlife hheld hsession
  rw [hconfig] at horigin
  -- The whole tick logs the call, after what the log held before it.
  obtain ⟨first, hfirst⟩ := run_log_append p s
    (tick turns (s.backends.keys.takeWhile (· ≠ a)) ++ (turns a).before.map Background.event)
  have hwhole : ∃ effects : List Effect,
      (run p.step s (tick turns s.backends.keys)).log = s.log ++ effects ∧
      .forwarded call ∈ effects := by
    rw [run_tick hkeys hwhile, ← run_append, Turn.work, List.cons_append, run_cons]
    obtain ⟨later, hlater⟩ := run_log_append p
      (p.step (s.atTurn p turns a) (.finishSlot (turns a).finish))
      ((turns a).between.map Background.event ++ [.checkSlot (turns a).check] ++
        after.flatMap fun slot => (turns slot).events)
    have hat : (s.atTurn p turns a).log = s.log ++ first := hfirst
    refine ⟨first ++ sent ++ later, ?_, ?_⟩
    · rw [hlater, hsent, hat]
      simp only [List.append_assoc]
    · exact List.mem_append_left _ (List.mem_append_right _ hcall)
  obtain ⟨effects, heffects, hmem⟩ := hwhole
  obtain ⟨others, hothers, hnot⟩ := without_forwards (p := p) (hk.without a)
    ExtTreeMap.getElem?_erase_self (tickWithout a turns s.backends.keys)
  have hlog := hscoped.log
  have hsame : (s.without a).log = s.log := rfl
  rw [heffects, hothers, hsame, List.filter_append, List.filter_append] at hlog
  have hfiltered := List.append_cancel_left hlog
  have hin : .forwarded call ∈ effects.filter (·.elsewhere a (s.bootOf a)) := by
    rw [List.mem_filter]
    refine ⟨hmem, ?_⟩
    simp [Effect.elsewhere, hdest, hother]
  rw [hfiltered] at hin
  exact hnot call k (List.mem_of_mem_filter hin) horigin

theorem sessionsRun_atTurn (p : Proxy) (now : Instant) (events : List Event)
    (turns : SocketAddr → Turn) (a : SocketAddr) :
    ((p.run now events).atTurn p turns a).SessionsRun := by
  unfold State.atTurn Proxy.run
  rw [← run_append]
  exact sessionsRun p now _

/-- The work on a backend that meets an error is seen nowhere else, exactly if the
backend was not just ready to be sent an Initial of a client with a session. -/
theorem errors_scoped_iff (p : Proxy) (now : Instant) (events : List Event)
    (hserving : (p.run now events).phase = .serving) (a : SocketAddr)
    (ha : a ∈ (p.run now events).backends) (turns : SocketAddr → Turn)
    (herror : MeetsError p ((p.run now events).atTurn p turns a) a (turns a)) :
    Scoped p (p.run now events) a turns ↔
      ¬ ReadyForPinned ((p.run now events).atTurn p turns a) a := by
  have hk := keyed p now events
  constructor
  · intro hscoped hpinned
    exact not_scoped_of_pinned hserving hk ha (sessionsRun_atTurn p now events turns a) hpinned
      hscoped
  · intro hfree
    have hapart := apart_tick hserving hk ha herror hfree
    exact {
      slots := hapart.others
      sessions := by
        intro client session _
        rw [hapart.relay]
      log := hapart.log }

/-- Nothing goes on beside the loop, and no call fails but `stop`. -/
def stopsFail (_ : SocketAddr) : Turn :=
  ⟨[], .byKey, fun _ => true, fun _ => true, [], .alive, false⟩

/-- The startup of a backend fails. -/
def failedBoot : List Event :=
  [.datagram (.localhost 40000) testInitial ⟨0, true, true⟩,
    .startupDone Config.default.backend .failed]

theorem errors_scoped_iff_failedBoot :
    Scoped ⟨twoBackends, Sni.Rfc9001.crypto⟩
      ((⟨twoBackends, Sni.Rfc9001.crypto⟩ : Proxy).run 0 failedBoot) Config.default.backend
      stopsFail := by
  refine (errors_scoped_iff ⟨twoBackends, Sni.Rfc9001.crypto⟩ 0 failedBoot (by decide +kernel)
    Config.default.backend (by decide +kernel) stopsFail ⟨0, Or.inl ?_⟩).mpr ?_
  · decide +kernel
  · decide +kernel

section NoDatagrams

variable {client : SocketAddr} {datagram : Datagram} {env : Relay.ForwardEnv}

theorem datagram_not_background (es : List Background) :
    .datagram client datagram env ∉ es.map Background.event := by
  intro h
  obtain ⟨e, _, he⟩ := List.mem_map.mp h
  cases e <;> cases he

theorem datagram_not_work (turn : Turn) : .datagram client datagram env ∉ turn.work := by
  simp [Turn.work, datagram_not_background]

theorem datagram_not_tick (turns : SocketAddr → Turn) (keys : List SocketAddr) :
    .datagram client datagram env ∉ tick turns keys := by
  simp [tick, Turn.events, datagram_not_background, datagram_not_work]

end NoDatagrams

/-- A tick does not depend on the cryptographic crates. -/
theorem atTurn_congr {p q : Proxy} (hconfig : p.config = q.config) {s : State}
    {turns : SocketAddr → Turn} {a : SocketAddr} : s.atTurn p turns a = s.atTurn q turns a := by
  apply Proxy.run_step_congr hconfig
  intro client datagram env hm
  rw [List.mem_append] at hm
  rcases hm with hm | hm
  · exact absurd hm (datagram_not_tick turns _)
  · exact absurd hm (datagram_not_background _)

theorem meetsError_congr {p q : Proxy} (hconfig : p.config = q.config) {s : State}
    {turns : SocketAddr → Turn} {a : SocketAddr}
    (h : MeetsError q (s.atTurn q turns a) a (turns a)) :
    MeetsError p (s.atTurn p turns a) a (turns a) := by
  have hwork : workLog p (s.atTurn q turns a) (turns a) =
      workLog q (s.atTurn q turns a) (turns a) := by
    unfold workLog
    rw [Proxy.run_step_congr hconfig]
    intro client datagram env hm
    exact absurd hm (datagram_not_work _)
  unfold MeetsError at h ⊢
  rw [atTurn_congr hconfig, hwork]
  exact h

/-- A backend is stopped as soon as it has no session. -/
def eagerBackends : Config := { twoBackends with idleTimeout := 0 }

/-- One client asks for the default backend and then for `example.com`, whose backend
is ready first; then the default backend is ready too. -/
def crossedReady : List Event :=
  [.datagram (.localhost 40000) testInitial ⟨0, true, true⟩] ++
    wakeRun 2 (.localhost 40000) namedInitial (.localhost 5522) ++
    [.started (.localhost 5521), .startupDone (.localhost 5521) .ready]

theorem run_crossedReady : (⟨eagerBackends, Sni.Rfc9001.crypto⟩ : Proxy).run 0 crossedReady =
    (⟨eagerBackends, bareCrypto⟩ : Proxy).run 0 crossedReady := by
  apply run_bareCrypto
  intro client datagram env hm
  simp only [crossedReady, List.mem_append, List.mem_cons, List.not_mem_nil, Event.datagram.injEq,
    reduceCtorEq, or_false] at hm
  rcases hm with hm | hm
  · exact Or.inl hm.2.1
  · exact Or.inr (eq_of_mem_wakeRun hm)

/-- The default backend has no session of its own when its held Initial has been sent
to the other one, so it is stopped in the same tick, and `stop` fails. -/
theorem error_seen_elsewhere :
    eagerBackends.validate = .ok () ∧
    MeetsError ⟨eagerBackends, Sni.Rfc9001.crypto⟩
      (((⟨eagerBackends, Sni.Rfc9001.crypto⟩ : Proxy).run 0 crossedReady).atTurn
        ⟨eagerBackends, Sni.Rfc9001.crypto⟩ stopsFail (.localhost 5521))
      (.localhost 5521) (stopsFail (.localhost 5521)) ∧
    ¬ Scoped ⟨eagerBackends, Sni.Rfc9001.crypto⟩
      ((⟨eagerBackends, Sni.Rfc9001.crypto⟩ : Proxy).run 0 crossedReady) (.localhost 5521)
      stopsFail := by
  refine ⟨by decide +kernel, ?_, ?_⟩
  · rw [run_crossedReady]
    apply meetsError_congr (p := ⟨eagerBackends, Sni.Rfc9001.crypto⟩)
      (q := ⟨eagerBackends, bareCrypto⟩) rfl
    exact ⟨0, Or.inr (Or.inr (Or.inr (by decide +kernel)))⟩
  · apply not_scoped_of_pinned
    · rw [run_crossedReady]
      decide +kernel
    · exact keyed _ 0 crossedReady
    · rw [run_crossedReady]
      decide +kernel
    · exact sessionsRun_atTurn _ 0 crossedReady stopsFail _
    · rw [run_crossedReady, atTurn_congr (p := ⟨eagerBackends, Sni.Rfc9001.crypto⟩)
        (q := ⟨eagerBackends, bareCrypto⟩) rfl]
      decide +kernel

end Sleepytale
