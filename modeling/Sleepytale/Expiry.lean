import Sleepytale.Idle

/-!
# How long a session lives

A session is opened by the first datagram relayed for its client and noted again
by every later one, so its `last_seen` can be read off the log. What ends it is
the reaper, the exit of its backend or the shutdown, and nothing else; until then
it keeps its backend, its socket and its return path.
-/

namespace Sleepytale

open Sleepytale.Net
open Sleepytale.Lib.Maps

/-- When a datagram of the client was handed to `send_to`, if the effect says so. -/
def Effect.relayedAt (client : SocketAddr) : Effect → Option Instant
  | forwarded call => if call.client = client ∧ call.dest.isSome then some call.time else none
  | _ => none

/-- When the client was last relayed for. -/
def lastRelayed (client : SocketAddr) (log : List Effect) : Option Instant :=
  (log.filterMap (Effect.relayedAt client)).getLast?

theorem lastRelayed_append_of_none {client : SocketAddr} {log effects : List Effect}
    (h : ∀ effect ∈ effects, effect.relayedAt client = none) :
    lastRelayed client (log ++ effects) = lastRelayed client log := by
  have hnil : effects.filterMap (Effect.relayedAt client) = [] := by
    rw [List.filterMap_eq_nil_iff]
    exact h
  rw [lastRelayed, List.filterMap_append, hnil, List.append_nil]
  rfl

theorem lastRelayed_snoc {client : SocketAddr} {log : List Effect} {effect : Effect}
    {time : Instant} (h : effect.relayedAt client = some time) :
    lastRelayed client (log ++ [effect]) = some time := by
  rw [lastRelayed, List.filterMap_append]
  simp [h]

namespace State

/-- Every session was last seen when its client was last relayed for. -/
def Timed (s : State) : Prop :=
  ∀ (client : SocketAddr) (session : Session), s.relay.sessions[client]? = some session →
    lastRelayed client s.log = some session.lastSeen

theorem Timed.of_subset {s s' : State} (h : s.Timed) {effects : List Effect}
    (hlog : s'.log = s.log ++ effects) (hcalls : ∀ call, .forwarded call ∉ effects)
    (hsub : ∀ (client : SocketAddr) (session : Session),
      s'.relay.sessions[client]? = some session → s.relay.sessions[client]? = some session) :
    s'.Timed := by
  intro client session hs
  rw [hlog, lastRelayed_append_of_none]
  · exact h client session (hsub client session hs)
  · intro effect hm
    cases effect with
    | forwarded call => exact (hcalls call hm).elim
    | _ => rfl

theorem timed_forward {s : State} (h : s.Timed) (origin : Origin) (client backend : SocketAddr)
    (datagram : Datagram) (env : Relay.ForwardEnv) :
    (s.forward origin client backend datagram env).Timed := by
  have hcall : ∀ dest : Option SocketAddr,
      (s.relay.forwardToBackend (s.now + env.lap) env client backend datagram).dest = dest →
      ∀ c : SocketAddr, (Effect.forwarded (s.forwardCall origin client backend datagram
        env)).relayedAt c = if client = c ∧ dest.isSome then some (s.now + env.lap) else none := by
    rintro dest rfl c
    rfl
  intro c session hc
  rw [forward_relay] at hc
  rw [forward_log]
  rcases s.relay.forward_cases (s.now + env.lap) env client backend datagram with
    ⟨old, _, hold, _, he⟩ | ⟨_, hnone, _, _, he⟩ | ⟨_, _, _, _, he⟩
  · rw [he, Relay.sessions_touch hold, Option.map_eq_some_iff] at hc
    obtain ⟨before, hbefore, rfl⟩ := hc
    have hat := hcall (some old.backend) (by rw [he]) c
    by_cases hclient : client = c
    · rw [if_pos ⟨hclient, rfl⟩] at hat
      rw [lastRelayed_snoc hat, if_pos hclient]
    · rw [if_neg fun hand => hclient hand.1] at hat
      rw [lastRelayed_append_of_none (by simpa using hat), if_neg hclient]
      exact h c before hbefore
  · rw [he, Relay.sessions_openSession] at hc
    have hat := hcall (some backend) (by rw [he]) c
    by_cases hclient : client = c
    · rw [if_pos ⟨hclient, rfl⟩] at hat
      rw [if_pos hclient] at hc
      rw [lastRelayed_snoc hat, ← Option.some.inj hc]
    · rw [if_neg fun hand => hclient hand.1] at hat
      rw [if_neg hclient] at hc
      rw [lastRelayed_append_of_none (by simpa using hat)]
      exact h c session hc
  · rw [he] at hc
    have hat := hcall none (by rw [he]) c
    rw [if_neg fun hand => Bool.false_ne_true hand.2] at hat
    rw [lastRelayed_append_of_none (by simpa using hat)]
    exact h c session hc

end State

theorem timed_trans {p : Proxy} {s s' : State} {e : Event} (hs : s.Timed)
    (h : Trans p s e s') : s'.Timed := by
  cases h with
  | stay => exact hs
  | @relayed client datagram env managed boot hphase hslot hlife =>
    have hnote : (s.emit (.received client datagram (p.target s client datagram))).Timed :=
      hs.of_subset rfl (by simp) fun _ _ => id
    exact State.timed_forward hnote _ _ _ _ _
  | tickStarted =>
    exact hs.of_subset (List.append_nil _).symm (by simp) fun _ _ hc =>
      (Relay.sessions_retain_some.mp hc).1
  | ready hphase hslot hlife =>
    exact State.deliverHeld_invariant State.Timed _ _ _ _
      (fun t client datagram _ ht => State.timed_forward ht _ client _ datagram _)
      (hs.of_subset rfl (by simp) fun _ _ => id)
  | exited =>
    exact hs.of_subset rfl (by simp) fun _ _ hc => (Relay.sessions_retain_some.mp hc).1
  | shutDown =>
    exact hs.of_subset (List.append_nil _).symm (by simp) fun _ _ hc =>
      (Relay.sessions_retain_some.mp hc).1
  | path act =>
    refine hs.of_subset (List.append_nil _).symm (by simp) fun _ _ hc => ?_
    rw [← (Relay.pathFrame_path s.relay act).sessions]
    exact hc
  | nothingFinished => exact hs.of_subset (List.append_nil _).symm (by simp) fun _ _ => id
  | notRunning => exact hs.of_subset (List.append_nil _).symm (by simp) fun _ _ => id
  | nothingToDrain => exact hs.of_subset (List.append_nil _).symm (by simp) fun _ _ => id
  | drainedFailed => exact hs.of_subset (List.append_nil _).symm (by simp) fun _ _ => id
  | becameReady => exact hs.of_subset (List.append_nil _).symm (by simp) fun _ _ => id
  | advanced => exact hs.of_subset (List.append_nil _).symm (by simp) fun _ _ => id
  | _ => exact hs.of_subset rfl (by simp) fun _ _ => id

theorem timed (p : Proxy) (now : Instant) (events : List Event) : (p.run now events).Timed := by
  refine run_induction State.Timed ?_ (fun before e s' hs h => timed_trans hs h) events
  intro client session hs
  simp [Proxy.init, Relay.new] at hs

/-- The events that end the session of `client` in a state. -/
inductive State.Ends (p : Proxy) (s : State) (client : SocketAddr) (session : Session) :
    Event → Prop where
  | quiet (seen : Instant) (hphase : s.phase = .serving)
      (hseen : lastRelayed client s.log = some seen)
      (hquiet : p.config.sessionTimeout ≤ s.now - seen) : Ends p s client session .tickStart
  | exited {env : CheckEnv} {rest : List SocketAddr}
      (hphase : s.phase = .checking session.backend rest) (hexit : env.exitCheck = .exited) :
      Ends p s client session (.checkSlot env)
  | shutdown (hphase : s.phase = .serving) : Ends p s client session .shutdown

/-- The session goes on: same socket, same backend, same return path. -/
def Session.Continues (session session' : Session) : Prop :=
  session'.upstream = session.upstream ∧ session'.backend = session.backend ∧
    session'.returnPath = session.returnPath

theorem Session.Continues.refl (session : Session) : session.Continues session :=
  ⟨rfl, rfl, rfl⟩

theorem Relay.continues_forward {relay : Relay} {c : SocketAddr} {session : Session}
    (hs : relay.sessions[c]? = some session) (now : Instant) (env : ForwardEnv)
    (client backend : SocketAddr) (datagram : Datagram) :
    ∃ session', (relay.forwardToBackend now env client backend datagram).relay.sessions[c]? =
      some session' ∧ session.Continues session' := by
  rcases relay.forward_cases now env client backend datagram with
    ⟨old, _, hold, _, he⟩ | ⟨_, hnone, _, _, he⟩ | ⟨_, _, _, _, he⟩
  · rw [he, sessions_touch hold, hs]
    refine ⟨_, rfl, ?_⟩
    split <;> exact .refl _
  · have hne : client ≠ c := by
      rintro rfl
      rw [hs] at hnone
      cases hnone
    rw [he, sessions_openSession, if_neg hne]
    exact ⟨session, hs, .refl _⟩
  · rw [he]
    exact ⟨session, hs, .refl _⟩

theorem State.continues_deliverHeld {s : State} {client : SocketAddr} {session : Session}
    (hs : s.relay.sessions[client]? = some session) (backend : SocketAddr) (boot : BootId)
    (held : List (SocketAddr × Datagram)) (env : SocketAddr → Relay.ForwardEnv) :
    ∃ session', (s.deliverHeld backend boot held env).relay.sessions[client]? = some session' ∧
      session.Continues session' := by
  refine State.deliverHeld_invariant (fun t => ∃ session',
    t.relay.sessions[client]? = some session' ∧ session.Continues session') backend boot held env
    ?_ ⟨session, hs, .refl _⟩
  rintro t c datagram _ ⟨before, ht, hc⟩
  obtain ⟨after, ha, hc'⟩ := Relay.continues_forward ht (t.now + (env c).lap) (env c) c backend
    datagram
  exact ⟨after, ha, hc'.1.trans hc.1, hc'.2.1.trans hc.2.1, hc'.2.2.trans hc.2.2⟩

/-- A transition ends a session for one of the listed causes, or it goes on. -/
theorem Trans.ends_or_continues {p : Proxy} {s s' : State} {e : Event} (hk : s.Keyed)
    (ht : s.Timed) (htimeout : s.relay.sessionTimeout = p.config.sessionTimeout)
    {client : SocketAddr} {session : Session}
    (hs : s.relay.sessions[client]? = some session) (h : Trans p s e s') :
    (s'.relay.sessions[client]? = none ∧ s.Ends p client session e) ∨
      ∃ session', s'.relay.sessions[client]? = some session' ∧ session.Continues session' := by
  have hsame : s'.relay.sessions = s.relay.sessions →
      (s'.relay.sessions[client]? = none ∧ s.Ends p client session e) ∨
        ∃ session', s'.relay.sessions[client]? = some session' ∧ session.Continues session' :=
    fun he => Or.inr ⟨session, by rw [he]; exact hs, .refl _⟩
  cases h with
  | relayed => exact Or.inr (Relay.continues_forward hs _ _ _ _ _)
  | @ready env slot rest managed boot =>
    exact Or.inr (State.continues_deliverHeld
      (s := s.takeOver slot managed boot env.readyLap) hs _ _ _ _)
  | tickStarted hphase =>
    have hreap : (s.relay.reapIdle s.now).1.sessions[client]? = _ :=
      s.relay.sessions_retain _ client
    rw [hs] at hreap
    by_cases hquiet : p.config.sessionTimeout ≤ s.now - session.lastSeen
    · refine Or.inl ⟨?_, .quiet _ hphase (ht client session hs) hquiet⟩
      show (s.relay.reapIdle s.now).1.sessions[client]? = none
      rw [hreap]
      simp [Option.filter, htimeout, hquiet]
    · refine Or.inr ⟨session, ?_, .refl _⟩
      show (s.relay.reapIdle s.now).1.sessions[client]? = some session
      rw [hreap]
      simp [Option.filter, htimeout, Nat.lt_of_not_le hquiet]
  | @exited env slot rest managed boot hphase hslot hlife hexit =>
    have hdrop : (s.relay.dropSessionsFor managed.config.backend).sessions[client]? = _ :=
      s.relay.sessions_retain _ client
    rw [hs, hk slot managed hslot] at hdrop
    by_cases hbackend : session.backend = slot
    · refine Or.inl ⟨?_, .exited (by rw [hbackend]; exact hphase) hexit⟩
      show (s.relay.dropSessionsFor managed.config.backend).sessions[client]? = none
      rw [hk slot managed hslot, hdrop]
      simp [Option.filter, hbackend]
    · refine Or.inr ⟨session, ?_, .refl _⟩
      show (s.relay.dropSessionsFor managed.config.backend).sessions[client]? = some session
      rw [hk slot managed hslot, hdrop]
      simp [Option.filter, hbackend]
  | shutDown hphase =>
    refine Or.inl ⟨?_, .shutdown hphase⟩
    show (s.relay.retain fun _ _ => false).sessions[client]? = none
    rw [Relay.sessions_retain, hs]
    rfl
  | path act => exact hsame (Relay.pathFrame_path s.relay act).sessions
  | _ => exact hsame rfl

/-- What ends a session does end it. -/
theorem State.Ends.removes {p : Proxy} {s : State} {e : Event} (hk : s.Keyed) (ht : s.Timed)
    (hr : s.SessionsRun) (htimeout : s.relay.sessionTimeout = p.config.sessionTimeout)
    {client : SocketAddr} {session : Session} (hs : s.relay.sessions[client]? = some session)
    (h : s.Ends p client session e) : (p.step s e).relay.sessions[client]? = none := by
  cases h with
  | quiet seen hphase hseen hquiet =>
    rw [ht client session hs, Option.some.injEq] at hseen
    subst hseen
    have hreap : (s.relay.reapIdle s.now).1.sessions[client]? = _ :=
      s.relay.sessions_retain _ client
    rw [hs] at hreap
    simp only [Proxy.step, if_pos hphase]
    rw [hreap]
    simp [Option.filter, htimeout, hquiet]
  | @exited env rest hphase hexit =>
    obtain ⟨_, managed, hslot, boot, hlife⟩ := hr client session hs
    have hdrop : (s.relay.dropSessionsFor managed.config.backend).sessions[client]? = _ :=
      s.relay.sessions_retain _ client
    rw [hs] at hdrop
    simp only [Proxy.step, hphase, State.checkRunning, hslot, hlife, hexit, State.emit,
      State.setSlot]
    rw [hdrop]
    simp [Option.filter, hk _ managed hslot]
  | shutdown hphase =>
    simp only [Proxy.step, if_pos hphase, Relay.clear]
    rw [Relay.sessions_retain, hs]
    rfl

/-- A session ends exactly when a tick finds that its client was last relayed for
`session_timeout` ago or longer, when its backend is found to have exited, or at
the shutdown; every other event leaves it its socket, its backend and its return
path. -/
theorem session_ends_iff (p : Proxy) (now : Instant) (events : List Event) (e : Event)
    (client : SocketAddr) (session : Session)
    (hs : (p.run now events).relay.sessions[client]? = some session) :
    ((p.step (p.run now events) e).relay.sessions[client]? = none ↔
      (p.run now events).Ends p client session e) ∧
    ∀ session', (p.step (p.run now events) e).relay.sessions[client]? = some session' →
      session.Continues session' := by
  have hk := keyed p now events
  have ht := timed p now events
  have htimeout := sessionTimeout_run p now events
  rcases (step_trans p (p.run now events) e).ends_or_continues hk ht htimeout hs with
    ⟨hnone, hends⟩ | ⟨after, hafter, hcont⟩
  · refine ⟨iff_of_true hnone hends, fun session' hs' => ?_⟩
    rw [hnone] at hs'
    cases hs'
  · refine ⟨⟨fun hnone => ?_, fun hends =>
      hends.removes hk ht (sessionsRun p now events) htimeout hs⟩, fun session' hs' => ?_⟩
    · rw [hafter] at hnone
      cases hnone
    · rw [hafter, Option.some.injEq] at hs'
      rw [← hs']
      exact hcont

/-- A client was relayed for when its backend came up; `session_timeout` later the
next tick ends the session. -/
theorem session_ends_iff_quiet :
    ((⟨.default, Sni.Rfc9001.crypto⟩ : Proxy).step ((⟨.default, Sni.Rfc9001.crypto⟩ : Proxy).run 0
      (wakeRun 1 (.localhost 40000) testInitial Config.default.backend ++ [.advance 90]))
      .tickStart).relay.sessions[SocketAddr.localhost 40000]? = none :=
  (session_ends_iff ⟨.default, Sni.Rfc9001.crypto⟩ 0 _ .tickStart (.localhost 40000)
    ⟨0, Config.default.backend, 0, 0⟩ (by decide +kernel)).1.mpr
    (.quiet 0 (by decide +kernel) (by decide +kernel) (by decide +kernel))

end Sleepytale
