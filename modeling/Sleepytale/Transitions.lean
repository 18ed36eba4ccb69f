import Sleepytale.State

/-!
# Everything one event can do

`Trans` lists the transitions of the proxy, each with the guard under which the
loop takes it and the whole resulting state. `step_trans` says that `Proxy.step`
makes no other move, so an invariant is proved by cases on `Trans`.
-/

namespace Sleepytale

open Sleepytale.Net
open Std (ExtTreeMap)

namespace State

@[simp] theorem forward_backends (s : State) (origin : Origin) (client backend : SocketAddr)
    (datagram : Datagram) (env : Relay.ForwardEnv) :
    (s.forward origin client backend datagram env).backends = s.backends := rfl

@[simp] theorem forward_boots (s : State) (origin : Origin) (client backend : SocketAddr)
    (datagram : Datagram) (env : Relay.ForwardEnv) :
    (s.forward origin client backend datagram env).boots = s.boots := rfl

@[simp] theorem forward_phase (s : State) (origin : Origin) (client backend : SocketAddr)
    (datagram : Datagram) (env : Relay.ForwardEnv) :
    (s.forward origin client backend datagram env).phase = s.phase := rfl

@[simp] theorem forward_now (s : State) (origin : Origin) (client backend : SocketAddr)
    (datagram : Datagram) (env : Relay.ForwardEnv) :
    (s.forward origin client backend datagram env).now = s.now + env.lap := rfl

/-- The call that `forward` logs. -/
def forwardCall (s : State) (origin : Origin) (client backend : SocketAddr)
    (datagram : Datagram) (env : Relay.ForwardEnv) : Forward :=
  let f := s.relay.forwardToBackend (s.now + env.lap) env client backend datagram
  ⟨origin, client, backend, datagram, s.now + env.lap, f.opened, f.dest, f.result.isOk⟩

@[simp] theorem forward_log (s : State) (origin : Origin) (client backend : SocketAddr)
    (datagram : Datagram) (env : Relay.ForwardEnv) :
    (s.forward origin client backend datagram env).log =
      s.log ++ [.forwarded (s.forwardCall origin client backend datagram env)] := rfl

@[simp] theorem forward_relay (s : State) (origin : Origin) (client backend : SocketAddr)
    (datagram : Datagram) (env : Relay.ForwardEnv) :
    (s.forward origin client backend datagram env).relay =
      (s.relay.forwardToBackend (s.now + env.lap) env client backend datagram).relay := rfl

theorem deliverHeld_cons (s : State) (backend : SocketAddr) (boot : BootId)
    (entry : SocketAddr × Datagram) (held : List (SocketAddr × Datagram))
    (env : SocketAddr → Relay.ForwardEnv) :
    s.deliverHeld backend boot (entry :: held) env =
      (s.forward (.held backend boot) entry.1 backend entry.2 (env entry.1)).deliverHeld backend
        boot held env := rfl

/-- What holds before `deliver_held` and is kept by each of its forwards holds
after it. -/
theorem deliverHeld_invariant (Inv : State → Prop) (backend : SocketAddr) (boot : BootId)
    (held : List (SocketAddr × Datagram)) (env : SocketAddr → Relay.ForwardEnv)
    (hstep : ∀ (s : State) (client : SocketAddr) (datagram : Datagram),
      (client, datagram) ∈ held → Inv s →
        Inv (s.forward (.held backend boot) client backend datagram (env client)))
    {s : State} (hs : Inv s) : Inv (s.deliverHeld backend boot held env) := by
  induction held generalizing s with
  | nil => exact hs
  | cons entry held ih =>
    refine ih (fun s client datagram hm => hstep s client datagram (List.mem_cons_of_mem _ hm)) ?_
    exact hstep s entry.1 entry.2 List.mem_cons_self hs

@[simp] theorem deliverHeld_backends (s : State) (backend : SocketAddr) (boot : BootId)
    (held : List (SocketAddr × Datagram)) (env : SocketAddr → Relay.ForwardEnv) :
    (s.deliverHeld backend boot held env).backends = s.backends :=
  deliverHeld_invariant (fun s' => s'.backends = s.backends) backend boot held env (fun _ _ _ _ h => h) rfl

@[simp] theorem deliverHeld_boots (s : State) (backend : SocketAddr) (boot : BootId)
    (held : List (SocketAddr × Datagram)) (env : SocketAddr → Relay.ForwardEnv) :
    (s.deliverHeld backend boot held env).boots = s.boots :=
  deliverHeld_invariant (fun s' => s'.boots = s.boots) backend boot held env (fun _ _ _ _ h => h) rfl

/-- `deliver_held` makes one call for each entry, in the order it meets them. -/
theorem deliverHeld_log (s : State) (backend : SocketAddr) (boot : BootId)
    (held : List (SocketAddr × Datagram)) (env : SocketAddr → Relay.ForwardEnv) :
    ∃ calls : List Forward,
      (s.deliverHeld backend boot held env).log = s.log ++ calls.map .forwarded ∧
      calls.map (fun call => (call.client, call.datagram)) = held ∧
      ∀ call ∈ calls, call.origin = .held backend boot ∧ call.backend = backend := by
  induction held generalizing s with
  | nil => exact ⟨[], by simp [deliverHeld], rfl, by simp⟩
  | cons entry held ih =>
    rw [deliverHeld_cons]
    generalize hcall : s.forwardCall (.held backend boot) entry.1 backend entry.2 (env entry.1) = call
    obtain ⟨calls, hlog, hmap, hall⟩ :=
      ih (s.forward (.held backend boot) entry.1 backend entry.2 (env entry.1))
    refine ⟨call :: calls, ?_, ?_, ?_⟩
    · rw [hlog, forward_log, hcall, List.append_assoc]
      rfl
    · rw [List.map_cons, hmap, ← hcall]
      rfl
    · intro c hc
      rcases List.mem_cons.mp hc with rfl | hc
      · rw [← hcall]
        exact ⟨rfl, rfl⟩
      · exact hall c hc

/-- The state in which `deliver_held` starts: the slot runs, its idle clock
starts, and its held Initials have been taken. -/
def takeOver (s : State) (slot : SocketAddr) (managed : ManagedBackend) (boot : BootId)
    (lap : Duration) : State :=
  { s with
    now := s.now + lap
    backends := s.backends.insert slot
      { managed with lifecycle := .running boot, emptySince := some (s.now + lap), held := ∅ }
    log := s.log ++ [.consumed boot managed.config.backend .ready] }

end State

inductive Trans (p : Proxy) (s : State) : Event → State → Prop where
  | stay (e : Event) : Trans p s e s
  | rejected {client : SocketAddr} {datagram : Datagram} {env : Relay.ForwardEnv}
      (hphase : s.phase = .serving)
      (hslot : s.backends[p.target s client datagram]? = none) :
      Trans p s (.datagram client datagram env)
        { s with log := s.log ++ [.received client datagram (p.target s client datagram),
            .rejected client "selected backend is not configured"] }
  | relayed {client : SocketAddr} {datagram : Datagram} {env : Relay.ForwardEnv}
      {managed : ManagedBackend} {boot : BootId} (hphase : s.phase = .serving)
      (hslot : s.backends[p.target s client datagram]? = some managed)
      (hlife : managed.lifecycle = .running boot) :
      Trans p s (.datagram client datagram env)
        ((s.emit (.received client datagram (p.target s client datagram))).forward .direct client
          (p.target s client datagram) datagram env)
  | woke {client : SocketAddr} {datagram : Datagram} {env : Relay.ForwardEnv}
      {managed : ManagedBackend} (hphase : s.phase = .serving)
      (hslot : s.backends[p.target s client datagram]? = some managed)
      (hlife : managed.lifecycle = .sleeping) (hinitial : isQuicInitial datagram.bytes = true) :
      Trans p s (.datagram client datagram env)
        { s with
          boots := s.boots + 1
          backends := s.backends.insert (p.target s client datagram)
            ({ managed with lifecycle := .waking s.boots .starting }.hold client datagram).1
          log := s.log ++ [.received client datagram (p.target s client datagram),
            .spawned s.boots managed.config (managed.config.server.forwardStdin && p.console)
              client datagram] }
  | heldBack {client : SocketAddr} {datagram : Datagram} {env : Relay.ForwardEnv}
      {managed : ManagedBackend} {boot : BootId} {task : Startup} (hphase : s.phase = .serving)
      (hslot : s.backends[p.target s client datagram]? = some managed)
      (hlife : managed.lifecycle = .waking boot task)
      (hinitial : isQuicInitial datagram.bytes = true) :
      Trans p s (.datagram client datagram env)
        { s with
          backends := s.backends.insert (p.target s client datagram)
            (managed.hold client datagram).1
          log := s.log ++ [.received client datagram (p.target s client datagram)] }
  | ignored {client : SocketAddr} {datagram : Datagram} {env : Relay.ForwardEnv}
      {managed : ManagedBackend} (hphase : s.phase = .serving)
      (hslot : s.backends[p.target s client datagram]? = some managed)
      (hlife : ∀ boot, managed.lifecycle ≠ .running boot)
      (hinitial : isQuicInitial datagram.bytes = false) :
      Trans p s (.datagram client datagram env)
        { s with log := s.log ++ [.received client datagram (p.target s client datagram)] }
  | tickStarted (hphase : s.phase = .serving) :
      Trans p s .tickStart
        { s with relay := (s.relay.reapIdle s.now).1, phase := .tick s.backends.keys }
  | nothingFinished {env : FinishEnv} {slot : SocketAddr} {rest : List SocketAddr}
      (hphase : s.phase = .ticking (slot :: rest))
      (hlife : ∀ (managed : ManagedBackend) (boot : BootId) (result : StartupResult),
        s.backends[slot]? = some managed → managed.lifecycle ≠ .waking boot (.finished result)) :
      Trans p s (.finishSlot env) { s with phase := .checking slot rest }
  | ready {env : FinishEnv} {slot : SocketAddr} {rest : List SocketAddr}
      {managed : ManagedBackend} {boot : BootId} (hphase : s.phase = .ticking (slot :: rest))
      (hslot : s.backends[slot]? = some managed)
      (hlife : managed.lifecycle = .waking boot (.finished .ready)) :
      Trans p s (.finishSlot env)
        { (s.takeOver slot managed boot env.readyLap).deliverHeld managed.config.backend boot
            (env.order.list managed.held) env.forward with phase := .checking slot rest }
  | bootFailed {env : FinishEnv} {slot : SocketAddr} {rest : List SocketAddr}
      {managed : ManagedBackend} {boot : BootId} {result : StartupResult}
      (hphase : s.phase = .ticking (slot :: rest)) (hslot : s.backends[slot]? = some managed)
      (hlife : managed.lifecycle = .waking boot (.finished result)) (hresult : result ≠ .ready) :
      Trans p s (.finishSlot env)
        { s with
          backends := s.backends.insert slot { managed with lifecycle := .sleeping, held := ∅ }
          phase := .checking slot rest
          log := s.log ++ [.consumed boot managed.config.backend result] }
  | notRunning {env : CheckEnv} {slot : SocketAddr} {rest : List SocketAddr}
      (hphase : s.phase = .checking slot rest)
      (hlife : ∀ (managed : ManagedBackend) (boot : BootId), s.backends[slot]? = some managed →
        managed.lifecycle ≠ .running boot) :
      Trans p s (.checkSlot env) { s with phase := .tick rest }
  | exited {env : CheckEnv} {slot : SocketAddr} {rest : List SocketAddr}
      {managed : ManagedBackend} {boot : BootId} (hphase : s.phase = .checking slot rest)
      (hslot : s.backends[slot]? = some managed) (hlife : managed.lifecycle = .running boot)
      (hexit : env.exitCheck = .exited) :
      Trans p s (.checkSlot env)
        { s with
          relay := s.relay.dropSessionsFor managed.config.backend
          backends := s.backends.insert slot
            { managed with lifecycle := .sleeping, emptySince := none }
          phase := .tick rest
          log := s.log ++ [.checked boot managed.config.backend .exited, .dropped boot] }
  | checkFailed {env : CheckEnv} {slot : SocketAddr} {rest : List SocketAddr}
      {managed : ManagedBackend} {boot : BootId} (hphase : s.phase = .checking slot rest)
      (hslot : s.backends[slot]? = some managed) (hlife : managed.lifecycle = .running boot)
      (hexit : env.exitCheck = .error) :
      Trans p s (.checkSlot env)
        { s with
          phase := .tick rest
          log := s.log ++ [.checked boot managed.config.backend .error] }
  | busy {env : CheckEnv} {slot : SocketAddr} {rest : List SocketAddr}
      {managed : ManagedBackend} {boot : BootId} (hphase : s.phase = .checking slot rest)
      (hslot : s.backends[slot]? = some managed) (hlife : managed.lifecycle = .running boot)
      (hexit : env.exitCheck = .alive)
      (hcount : s.relay.sessionCountFor managed.config.backend ≠ 0) :
      Trans p s (.checkSlot env)
        { s with
          backends := s.backends.insert slot { managed with emptySince := none }
          phase := .tick rest
          log := s.log ++ [.checked boot managed.config.backend .alive] }
  | idling {env : CheckEnv} {slot : SocketAddr} {rest : List SocketAddr}
      {managed : ManagedBackend} {boot : BootId} (hphase : s.phase = .checking slot rest)
      (hslot : s.backends[slot]? = some managed) (hlife : managed.lifecycle = .running boot)
      (hexit : env.exitCheck = .alive)
      (hcount : s.relay.sessionCountFor managed.config.backend = 0)
      (hidle : s.now + env.emptyLap + env.elapsedLap -
        managed.emptySince.getD (s.now + env.emptyLap) < p.config.idleTimeout) :
      Trans p s (.checkSlot env)
        { s with
          now := s.now + env.emptyLap + env.elapsedLap
          backends := s.backends.insert slot
            { managed with emptySince := some (managed.emptySince.getD (s.now + env.emptyLap)) }
          phase := .tick rest
          log := s.log ++ [.checked boot managed.config.backend .alive] }
  | idleStopped {env : CheckEnv} {slot : SocketAddr} {rest : List SocketAddr}
      {managed : ManagedBackend} {boot : BootId} (hphase : s.phase = .checking slot rest)
      (hslot : s.backends[slot]? = some managed) (hlife : managed.lifecycle = .running boot)
      (hexit : env.exitCheck = .alive)
      (hcount : s.relay.sessionCountFor managed.config.backend = 0)
      (hidle : p.config.idleTimeout ≤ s.now + env.emptyLap + env.elapsedLap -
        managed.emptySince.getD (s.now + env.emptyLap)) :
      Trans p s (.checkSlot env)
        { s with
          now := s.now + env.emptyLap + env.elapsedLap
          backends := s.backends.insert slot
            { managed with lifecycle := .sleeping, emptySince := none }
          phase := .tick rest
          log := s.log ++ [.checked boot managed.config.backend .alive,
            .idleStop boot managed.config.backend (s.now + env.emptyLap + env.elapsedLap),
            .stopped boot env.stopOk, .dropped boot] }
  | shutDown (hphase : s.phase = .serving) :
      Trans p s .shutdown { s with relay := s.relay.clear, phase := .drain s.backends.keys }
  | nothingToDrain {stopOk : Bool} {slot : SocketAddr} {rest : List SocketAddr}
      (hphase : s.phase = .draining (slot :: rest))
      (hlife : ∀ managed : ManagedBackend, s.backends[slot]? = some managed →
        managed.lifecycle = .sleeping) :
      Trans p s (.drainSlot stopOk) { s with phase := .drain rest }
  | drained {stopOk : Bool} {slot : SocketAddr} {rest : List SocketAddr}
      {managed : ManagedBackend} {boot : BootId} (hphase : s.phase = .draining (slot :: rest))
      (hslot : s.backends[slot]? = some managed)
      (hlife : managed.lifecycle = .running boot ∨
        managed.lifecycle = .waking boot (.finished .ready)) :
      Trans p s (.drainSlot stopOk)
        { s with
          backends := s.backends.insert slot { managed with lifecycle := .sleeping }
          phase := .drain rest
          log := s.log ++ [.stopped boot stopOk, .dropped boot] }
  | drainedFailed {stopOk : Bool} {slot : SocketAddr} {rest : List SocketAddr}
      {managed : ManagedBackend} {boot : BootId} {result : StartupResult}
      (hphase : s.phase = .draining (slot :: rest)) (hslot : s.backends[slot]? = some managed)
      (hlife : managed.lifecycle = .waking boot (.finished result)) (hresult : result ≠ .ready) :
      Trans p s (.drainSlot stopOk)
        { s with
          backends := s.backends.insert slot { managed with lifecycle := .sleeping }
          phase := .drain rest }
  | gaveUp {slot : SocketAddr} {rest : List SocketAddr} {managed : ManagedBackend}
      {boot : BootId} {task : Startup} (hphase : s.phase = .draining (slot :: rest))
      (hslot : s.backends[slot]? = some managed) (hlife : managed.lifecycle = .waking boot task)
      (htask : task = .starting ∨ task = .waiting) :
      Trans p s .giveUp
        { s with
          backends := s.backends.insert slot { managed with lifecycle := .sleeping }
          phase := .drain rest
          log := s.log ++ [.abandoned boot] }
  | started {slot : SocketAddr} {managed : ManagedBackend} {boot : BootId}
      (hslot : s.backends[slot]? = some managed)
      (hlife : managed.lifecycle = .waking boot .starting) :
      Trans p s (.started slot)
        { s with
          backends := s.backends.insert slot { managed with lifecycle := .waking boot .waiting }
          log := s.log ++ [.started boot] }
  | becameReady {slot : SocketAddr} {managed : ManagedBackend} {boot : BootId}
      (hslot : s.backends[slot]? = some managed)
      (hlife : managed.lifecycle = .waking boot .waiting) :
      Trans p s (.startupDone slot .ready)
        { s with
          backends := s.backends.insert slot
            { managed with lifecycle := .waking boot (.finished .ready) } }
  | startupFailed {slot : SocketAddr} {managed : ManagedBackend} {boot : BootId}
      {task : Startup} {result : StartupResult} (hslot : s.backends[slot]? = some managed)
      (hlife : managed.lifecycle = .waking boot task)
      (htask : task = .starting ∨ task = .waiting) (hresult : result ≠ .ready) :
      Trans p s (.startupDone slot result)
        { s with
          backends := s.backends.insert slot
            { managed with lifecycle := .waking boot (.finished result) }
          log := s.log ++ [.dropped boot] }
  | advanced (lap : Duration) : Trans p s (.advance lap) { s with now := s.now + lap }
  | path (act : PathAct) : Trans p s (.path act) { s with relay := s.relay.path act }

namespace Trans

variable (p : Proxy) (s : State)

theorem of_datagram (client : SocketAddr) (datagram : Datagram) (env : Relay.ForwardEnv) :
    Trans p s (.datagram client datagram env) (p.step s (.datagram client datagram env)) := by
  unfold Proxy.step Proxy.handleDatagram
  simp only
  by_cases hphase : s.phase = .serving
  · rw [if_pos hphase]
    have hb : ∀ eff, (s.emit eff).backends = s.backends := fun _ => rfl
    rw [hb]
    cases hslot : s.backends[p.target s client datagram]? with
    | none =>
      simp only [State.emit, List.append_assoc]
      exact rejected hphase hslot
    | some managed =>
      cases hlife : managed.lifecycle with
      | running boot =>
        simp only [hlife]
        exact relayed hphase hslot hlife
      | sleeping =>
        cases hinitial : isQuicInitial datagram.bytes with
        | true =>
          simp only [hlife, State.emit, State.setSlot, List.append_assoc]
          exact woke hphase hslot hlife hinitial
        | false =>
          simp only [hlife]
          exact ignored hphase hslot (by simp [hlife]) hinitial
      | waking boot task =>
        cases hinitial : isQuicInitial datagram.bytes with
        | true =>
          simp only [hlife]
          exact heldBack hphase hslot hlife hinitial
        | false =>
          simp only [hlife]
          exact ignored hphase hslot (by simp [hlife]) hinitial
  · rw [if_neg hphase]
    exact stay _

theorem of_finishSlot (env : FinishEnv) :
    Trans p s (.finishSlot env) (p.step s (.finishSlot env)) := by
  unfold Proxy.step
  cases hphase : s.phase with
  | ticking slots =>
    cases slots with
    | nil => exact stay _
    | cons slot rest =>
      simp only [State.finishStartup]
      cases hslot : s.backends[slot]? with
      | none => exact nothingFinished hphase (by simp [hslot])
      | some managed =>
        have hskip : (∀ boot result, managed.lifecycle ≠ .waking boot (.finished result)) →
            Trans p s (.finishSlot env) { s with phase := .checking slot rest } := by
          intro hne
          refine nothingFinished hphase fun managed' boot result hm => ?_
          rw [hslot, Option.some.injEq] at hm
          rw [← hm]
          exact hne boot result
        cases hlife : managed.lifecycle with
        | sleeping => simpa only [hlife] using hskip (by simp [hlife])
        | running boot => simpa only [hlife] using hskip (by simp [hlife])
        | waking boot task =>
          cases task with
          | starting => simpa only [hlife] using hskip (by simp [hlife])
          | waiting => simpa only [hlife] using hskip (by simp [hlife])
          | finished result =>
            cases result with
            | ready =>
              simp only [hlife]
              exact ready hphase hslot hlife
            | failed =>
              simp only [hlife]
              exact bootFailed hphase hslot hlife (by simp)
            | panicked =>
              simp only [hlife]
              exact bootFailed hphase hslot hlife (by simp)
  | serving => exact stay _
  | checking slot rest => exact stay _
  | draining rest => exact stay _
  | finished => exact stay _

theorem of_checkSlot (env : CheckEnv) :
    Trans p s (.checkSlot env) (p.step s (.checkSlot env)) := by
  unfold Proxy.step
  cases hphase : s.phase with
  | checking slot rest =>
    simp only [State.checkRunning]
    cases hslot : s.backends[slot]? with
    | none => exact notRunning hphase (by simp [hslot])
    | some managed =>
      have hskip : (∀ boot, managed.lifecycle ≠ .running boot) →
          Trans p s (.checkSlot env) { s with phase := .tick rest } := by
        intro hne
        refine notRunning hphase fun managed' boot hm => ?_
        rw [hslot, Option.some.injEq] at hm
        rw [← hm]
        exact hne boot
      cases hlife : managed.lifecycle with
      | sleeping => simpa only [hlife] using hskip (by simp [hlife])
      | waking boot task => simpa only [hlife] using hskip (by simp [hlife])
      | running boot =>
        cases hexit : env.exitCheck with
        | exited =>
          simp only [hlife, State.emit, State.setSlot, List.append_assoc]
          exact exited hphase hslot hlife hexit
        | error =>
          simp only [hlife]
          exact checkFailed hphase hslot hlife hexit
        | alive =>
          simp only [hlife, State.emit, State.advance, State.setSlot]
          by_cases hcount : s.relay.sessionCountFor managed.config.backend = 0
          · rw [if_pos hcount]
            by_cases hidle : s.now + env.emptyLap + env.elapsedLap -
                managed.emptySince.getD (s.now + env.emptyLap) ≥ p.config.idleTimeout
            · rw [if_pos hidle]
              simp only [List.append_assoc]
              exact idleStopped hphase hslot hlife hexit hcount hidle
            · rw [if_neg hidle]
              simpa only [hlife] using
                idling hphase hslot hlife hexit hcount (Nat.lt_of_not_le hidle)
          · rw [if_neg hcount]
            simpa only [hlife] using busy hphase hslot hlife hexit hcount
  | serving => exact stay _
  | ticking rest => exact stay _
  | draining rest => exact stay _
  | finished => exact stay _

theorem of_drainSlot (stopOk : Bool) :
    Trans p s (.drainSlot stopOk) (p.step s (.drainSlot stopOk)) := by
  unfold Proxy.step
  cases hphase : s.phase with
  | draining slots =>
    cases slots with
    | nil => exact stay _
    | cons slot rest =>
      simp only [State.drainSlot]
      cases hslot : s.backends[slot]? with
      | none => exact nothingToDrain hphase (by simp [hslot])
      | some managed =>
        cases hlife : managed.lifecycle with
        | sleeping =>
          simp only [hlife]
          refine nothingToDrain hphase fun managed' hm => ?_
          rw [hslot, Option.some.injEq] at hm
          rw [← hm]
          exact hlife
        | running boot =>
          simp only [hlife, State.emit, State.setSlot, List.append_assoc]
          exact drained hphase hslot (Or.inl hlife)
        | waking boot task =>
          cases task with
          | starting =>
            simp only [hlife]
            exact stay _
          | waiting =>
            simp only [hlife]
            exact stay _
          | finished result =>
            cases result with
            | ready =>
              simp only [hlife, State.emit, State.setSlot, List.append_assoc]
              exact drained hphase hslot (Or.inr hlife)
            | failed =>
              simp only [hlife]
              exact drainedFailed hphase hslot hlife (by simp)
            | panicked =>
              simp only [hlife]
              exact drainedFailed hphase hslot hlife (by simp)
  | serving => exact stay _
  | ticking rest => exact stay _
  | checking slot rest => exact stay _
  | finished => exact stay _

theorem of_giveUp : Trans p s .giveUp (p.step s .giveUp) := by
  unfold Proxy.step
  cases hphase : s.phase with
  | draining slots =>
    cases slots with
    | nil => exact stay _
    | cons slot rest =>
      simp only [State.giveUp]
      cases hslot : s.backends[slot]? with
      | none => exact stay _
      | some managed =>
        cases hlife : managed.lifecycle with
        | waking boot task =>
          cases task with
          | starting =>
            simp only [hlife]
            exact gaveUp hphase hslot hlife (Or.inl rfl)
          | waiting =>
            simp only [hlife]
            exact gaveUp hphase hslot hlife (Or.inr rfl)
          | finished result =>
            simp only [hlife]
            exact stay _
        | sleeping =>
          simp only [hlife]
          exact stay _
        | running boot =>
          simp only [hlife]
          exact stay _
  | serving => exact stay _
  | ticking rest => exact stay _
  | checking slot rest => exact stay _
  | finished => exact stay _

theorem of_started (slot : SocketAddr) :
    Trans p s (.started slot) (p.step s (.started slot)) := by
  simp only [Proxy.step, State.startReturned]
  cases hslot : s.backends[slot]? with
  | none => exact stay _
  | some managed =>
    simp only
    split
    · next boot hlife => exact started hslot hlife
    · exact stay _

theorem of_startupDone (slot : SocketAddr) (result : StartupResult) :
    Trans p s (.startupDone slot result) (p.step s (.startupDone slot result)) := by
  simp only [Proxy.step, State.startupDone]
  cases hslot : s.backends[slot]? with
  | none => exact stay _
  | some managed =>
    have hfail : ∀ (boot : BootId) (task : Startup), managed.lifecycle = .waking boot task →
        task = .starting ∨ task = .waiting → result ≠ .ready →
        Trans p s (.startupDone slot result) ((s.setSlot slot
          { managed with lifecycle := .waking boot (.finished result) }).emit (.dropped boot)) :=
      fun boot task hlife htask hresult => startupFailed hslot hlife htask hresult
    simp only
    split
    · next boot hlife => exact becameReady hslot hlife
    · exact stay _
    · next boot hlife hne => exact hfail boot _ hlife (Or.inr rfl) (fun he => hne he)
    · next boot hlife hne => exact hfail boot _ hlife (Or.inl rfl) (fun he => hne he)
    · exact stay _

end Trans

/-- One event makes one of the listed transitions. -/
theorem step_trans (p : Proxy) (s : State) (e : Event) : Trans p s e (p.step s e) := by
  cases e with
  | datagram client datagram env => exact Trans.of_datagram p s client datagram env
  | tickStart =>
    simp only [Proxy.step]
    split
    · next hphase => exact Trans.tickStarted hphase
    · exact Trans.stay _
  | finishSlot env => exact Trans.of_finishSlot p s env
  | checkSlot env => exact Trans.of_checkSlot p s env
  | shutdown =>
    simp only [Proxy.step]
    split
    · next hphase => exact Trans.shutDown hphase
    · exact Trans.stay _
  | drainSlot stopOk => exact Trans.of_drainSlot p s stopOk
  | giveUp => exact Trans.of_giveUp p s
  | started slot => exact Trans.of_started p s slot
  | startupDone slot result => exact Trans.of_startupDone p s slot result
  | advance lap => exact Trans.advanced lap
  | path act => exact Trans.path act

/-- The log only grows. -/
theorem Trans.log_append {p : Proxy} {s s' : State} {e : Event} (h : Trans p s e s') :
    ∃ effects : List Effect, s'.log = s.log ++ effects := by
  cases h with
  | stay => exact ⟨[], (List.append_nil _).symm⟩
  | relayed => exact ⟨_, List.append_assoc _ _ _⟩
  | ready =>
    refine State.deliverHeld_invariant (fun t => ∃ effects, t.log = s.log ++ effects) _ _ _ _ ?_
      ⟨_, rfl⟩
    rintro t client datagram _ ⟨effects, ht⟩
    exact ⟨effects ++ [_], by rw [← List.append_assoc, ← ht]; rfl⟩
  | tickStarted => exact ⟨[], (List.append_nil _).symm⟩
  | nothingFinished => exact ⟨[], (List.append_nil _).symm⟩
  | notRunning => exact ⟨[], (List.append_nil _).symm⟩
  | shutDown => exact ⟨[], (List.append_nil _).symm⟩
  | nothingToDrain => exact ⟨[], (List.append_nil _).symm⟩
  | drainedFailed => exact ⟨[], (List.append_nil _).symm⟩
  | becameReady => exact ⟨[], (List.append_nil _).symm⟩
  | advanced => exact ⟨[], (List.append_nil _).symm⟩
  | path => exact ⟨[], (List.append_nil _).symm⟩
  | _ => exact ⟨_, rfl⟩

theorem Trans.mem_log {p : Proxy} {s s' : State} {e : Event} (h : Trans p s e s')
    {effect : Effect} (hm : effect ∈ s.log) : effect ∈ s'.log := by
  obtain ⟨effects, hlog⟩ := h.log_append
  rw [hlog]
  exact List.mem_append_left _ hm

/-- Time never runs backwards. -/
theorem Trans.now_le {p : Proxy} {s s' : State} {e : Event} (h : Trans p s e s') :
    s.now ≤ s'.now := by
  cases h with
  | relayed => exact Nat.le_add_right _ _
  | @ready env slot rest managed boot =>
    refine State.deliverHeld_invariant (fun t => s.now ≤ t.now) _ _ _ _ ?_ (Nat.le_add_right _ _)
    intro t client datagram _ ht
    exact Nat.le_trans ht (Nat.le_add_right _ _)
  | idling => exact Nat.le_trans (Nat.le_add_right _ _) (Nat.le_add_right _ _)
  | idleStopped => exact Nat.le_trans (Nat.le_add_right _ _) (Nat.le_add_right _ _)
  | advanced => exact Nat.le_add_right _ _
  | _ => exact Nat.le_refl _

theorem Trans.boots_le {p : Proxy} {s s' : State} {e : Event} (h : Trans p s e s') :
    s.boots ≤ s'.boots := by
  cases h with
  | woke => exact Nat.le_succ _
  | @ready env slot rest managed boot =>
    exact Nat.le_of_eq (State.deliverHeld_boots (s.takeOver slot managed boot env.readyLap) ..).symm
  | _ => exact Nat.le_refl _

/-- The invariant rule for the proxy: what holds at first and is kept by every
transition from a state of a run holds in every state of a run. -/
theorem run_induction {p : Proxy} {now : Instant} (Inv : State → Prop)
    (hinit : Inv (p.init now))
    (hstep : ∀ (before : List Event) (e : Event) (s' : State), Inv (p.run now before) →
      Trans p (p.run now before) e s' → Inv s')
    (events : List Event) : Inv (p.run now events) :=
  Lib.Machine.run_induction_on Inv hinit
    (fun before e hs => hstep before e _ hs (step_trans p _ e)) events

end Sleepytale
