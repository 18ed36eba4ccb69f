import Sleepytale.RelayInvariant
import Sleepytale.ReturnPath
import Sleepytale.Sni.Rfc9001
import Sleepytale.Transitions

/-!
# Slots, sessions and incarnations

What ties the four pieces of the proxy's state together: the lifecycle of a
slot, its held Initials, its idle clock, and the sessions pinned to it. The
proxy touches the relay through the relay's own operations only, so a run of
the proxy is a run of the relay and keeps what every run of the relay keeps.
-/

namespace Sleepytale

open Sleepytale.Net
open Sleepytale.Lib.Maps
open Sleepytale.Lib.Machine
open Std (ExtTreeMap)

/-- The loop of `Proxy::run` has not been left. -/
def Phase.InLoop : Phase → Prop
  | serving => True
  | ticking _ => True
  | checking _ _ => True
  | draining _ => False
  | finished => False

@[simp] theorem Phase.tick_inLoop (rest : List SocketAddr) : (Phase.tick rest).InLoop := by
  cases rest <;> trivial

@[simp] theorem Phase.drain_not_inLoop (rest : List SocketAddr) : ¬ (Phase.drain rest).InLoop := by
  cases rest <;> exact id

namespace ManagedBackend

def Waking (managed : ManagedBackend) : Prop := ∃ boot task, managed.lifecycle = .waking boot task

def Running (managed : ManagedBackend) : Prop := ∃ boot, managed.lifecycle = .running boot

@[simp] theorem hold_config (managed : ManagedBackend) (client : SocketAddr)
    (datagram : Datagram) : (managed.hold client datagram).1.config = managed.config := by
  unfold hold
  split <;> rfl

@[simp] theorem hold_lifecycle (managed : ManagedBackend) (client : SocketAddr)
    (datagram : Datagram) : (managed.hold client datagram).1.lifecycle = managed.lifecycle := by
  unfold hold
  split <;> rfl

@[simp] theorem hold_emptySince (managed : ManagedBackend) (client : SocketAddr)
    (datagram : Datagram) : (managed.hold client datagram).1.emptySince = managed.emptySince := by
  unfold hold
  split <;> rfl

/-- What is held after `hold` was held before, or is the new Initial. -/
theorem hold_held {managed : ManagedBackend} {client : SocketAddr} {datagram : Datagram}
    {c : SocketAddr} {d : Datagram} (h : (managed.hold client datagram).1.held[c]? = some d) :
    managed.held[c]? = some d ∨ c = client ∧ d = datagram := by
  unfold hold at h
  split at h
  · exact Or.inl h
  · rcases getElem?_insert_cases h with hnew | ⟨_, hold⟩
    · exact Or.inr hnew
    · exact Or.inl hold

/-- Something is held after `hold`, kept or refused. -/
theorem hold_ne_empty (managed : ManagedBackend) (client : SocketAddr) (datagram : Datagram) :
    (managed.hold client datagram).1.held ≠ ∅ := by
  unfold hold
  split
  · next h =>
    intro he
    rw [he] at h
    exact absurd h.2 (by decide)
  · exact ExtTreeMap.insert_ne_empty

/-- What a slot must satisfy while the loop runs: Initials are held exactly
while it wakes, and its idle clock runs only while it does. -/
structure Consistent (managed : ManagedBackend) : Prop where
  held_iff : managed.held ≠ ∅ ↔ managed.Waking
  clock : managed.emptySince.isSome → managed.Running

variable {managed : ManagedBackend}

theorem not_waking_of_running (h : managed.Running) : ¬ managed.Waking := by
  rintro ⟨boot, task, hw⟩
  obtain ⟨boot', hr⟩ := h
  rw [hr] at hw
  cases hw

theorem not_running_of_waking (h : managed.Waking) : ¬ managed.Running :=
  fun hr => not_waking_of_running hr h

theorem not_running_of_sleeping (h : managed.lifecycle = .sleeping) : ¬ managed.Running := by
  intro hr
  obtain ⟨boot, hr⟩ := hr
  rw [h] at hr
  cases hr

theorem not_waking_of_sleeping (h : managed.lifecycle = .sleeping) : ¬ managed.Waking := by
  intro hw
  obtain ⟨boot, task, hw⟩ := hw
  rw [h] at hw
  cases hw

theorem consistent_of_waking (hw : managed.Waking) (hh : managed.held ≠ ∅)
    (he : managed.emptySince = none) : managed.Consistent where
  held_iff := iff_of_true hh hw
  clock := by simp [he]

theorem consistent_of_running (hr : managed.Running) (hh : managed.held = ∅) :
    managed.Consistent where
  held_iff := iff_of_false (fun hne => hne hh) (not_waking_of_running hr)
  clock := fun _ => hr

theorem consistent_of_sleeping (hl : managed.lifecycle = .sleeping) (hh : managed.held = ∅)
    (he : managed.emptySince = none) : managed.Consistent where
  held_iff := iff_of_false (fun hne => hne hh) (by simp [Waking, hl])
  clock := by simp [he]

theorem Consistent.held_empty (h : managed.Consistent) (hw : ¬ managed.Waking) :
    managed.held = ∅ := by
  by_contra hne
  exact hw (h.held_iff.mp hne)

theorem Consistent.clock_off (h : managed.Consistent) (hr : ¬ managed.Running) :
    managed.emptySince = none := by
  by_contra hne
  exact hr (h.clock (Option.isSome_iff_ne_none.mpr hne))

variable {managed' : ManagedBackend}

theorem Consistent.still_waking (h : managed.Consistent) (hbefore : managed.Waking)
    (hafter : managed'.Waking) (hheld : managed'.held = managed.held)
    (hsince : managed'.emptySince = managed.emptySince) : managed'.Consistent := by
  refine consistent_of_waking hafter ?_ ?_
  · rw [hheld]
    exact h.held_iff.mpr hbefore
  · rw [hsince]
    exact h.clock_off (not_running_of_waking hbefore)

theorem Consistent.still_running (h : managed.Consistent) (hbefore : managed.Running)
    (hafter : managed'.Running) (hheld : managed'.held = managed.held) : managed'.Consistent := by
  refine consistent_of_running hafter ?_
  rw [hheld]
  exact h.held_empty (not_waking_of_running hbefore)

theorem Consistent.put_to_sleep (h : managed.Consistent) (hbefore : managed.Running)
    (hafter : managed'.lifecycle = .sleeping) (hheld : managed'.held = managed.held)
    (hsince : managed'.emptySince = none) : managed'.Consistent := by
  refine consistent_of_sleeping hafter ?_ hsince
  rw [hheld]
  exact h.held_empty (not_waking_of_running hbefore)

end ManagedBackend

namespace State

/-- The slot of `backend` is in the state `Running`. -/
def Running (s : State) (backend : SocketAddr) : Prop :=
  ∃ managed : ManagedBackend, s.backends[backend]? = some managed ∧ managed.Running

/-- Slots are filed under the address of their backend. -/
def Keyed (s : State) : Prop :=
  ∀ (slot : SocketAddr) (managed : ManagedBackend), s.backends[slot]? = some managed →
    managed.config.backend = slot

end State

/-- A transition changes at most one slot, and never which backend it is for. -/
theorem Trans.slot_cases {p : Proxy} {s s' : State} {e : Event} (h : Trans p s e s') :
    s'.backends = s.backends ∨
    ∃ (slot : SocketAddr) (managed managed' : ManagedBackend),
      s.backends[slot]? = some managed ∧ s'.backends = s.backends.insert slot managed' ∧
      managed'.config = managed.config := by
  cases h with
  | stay => exact Or.inl rfl
  | rejected => exact Or.inl rfl
  | relayed => exact Or.inl rfl
  | woke _ hslot => exact Or.inr ⟨_, _, _, hslot, rfl, by simp⟩
  | heldBack _ hslot => exact Or.inr ⟨_, _, _, hslot, rfl, by simp⟩
  | ignored => exact Or.inl rfl
  | tickStarted => exact Or.inl rfl
  | nothingFinished => exact Or.inl rfl
  | ready _ hslot => exact Or.inr ⟨_, _, _, hslot, State.deliverHeld_backends .., rfl⟩
  | bootFailed _ hslot => exact Or.inr ⟨_, _, _, hslot, rfl, rfl⟩
  | notRunning => exact Or.inl rfl
  | exited _ hslot => exact Or.inr ⟨_, _, _, hslot, rfl, rfl⟩
  | checkFailed => exact Or.inl rfl
  | busy _ hslot => exact Or.inr ⟨_, _, _, hslot, rfl, rfl⟩
  | idling _ hslot => exact Or.inr ⟨_, _, _, hslot, rfl, rfl⟩
  | idleStopped _ hslot => exact Or.inr ⟨_, _, _, hslot, rfl, rfl⟩
  | shutDown => exact Or.inl rfl
  | nothingToDrain => exact Or.inl rfl
  | drained _ hslot => exact Or.inr ⟨_, _, _, hslot, rfl, rfl⟩
  | drainedFailed _ hslot => exact Or.inr ⟨_, _, _, hslot, rfl, rfl⟩
  | gaveUp _ hslot => exact Or.inr ⟨_, _, _, hslot, rfl, rfl⟩
  | started hslot => exact Or.inr ⟨_, _, _, hslot, rfl, rfl⟩
  | becameReady hslot => exact Or.inr ⟨_, _, _, hslot, rfl, rfl⟩
  | startupFailed hslot => exact Or.inr ⟨_, _, _, hslot, rfl, rfl⟩
  | advanced => exact Or.inl rfl
  | path => exact Or.inl rfl

/-- The configurations filed in the slot map never change. -/
theorem slot_configs (p : Proxy) (now : Instant) (events : List Event) (slot : SocketAddr) :
    (p.run now events).backends[slot]?.map (·.config) = p.slots[slot]?.map (·.config) := by
  refine run_induction (fun s => s.backends[slot]?.map (·.config) = p.slots[slot]?.map (·.config))
    rfl ?_ events
  intro before e s' hs h
  rcases h.slot_cases with hb | ⟨changed, managed, managed', hslot, hb, hc⟩
  · rw [hb]
    exact hs
  · rw [hb, getElem?_insert_eq]
    by_cases he : changed = slot
    · subst he
      rw [hslot] at hs
      rw [if_pos rfl, ← hs]
      simp [hc]
    · rw [if_neg he]
      exact hs

/-- Within one transition the relay takes steps of its own and no others. -/
theorem Trans.relay_run {p : Proxy} {s s' : State} {e : Event} (h : Trans p s e s') :
    ∃ acts : List RelayAct, s'.relay = run Relay.step s.relay acts := by
  have hsame : s'.relay = s.relay → ∃ acts : List RelayAct, s'.relay = run Relay.step s.relay acts :=
    fun he => ⟨[], he⟩
  cases h with
  | relayed => exact ⟨[.forward _ _ _ _ _], rfl⟩
  | tickStarted => exact ⟨[.reap s.now], rfl⟩
  | @ready env slot rest managed boot =>
    refine State.deliverHeld_invariant
      (fun t => ∃ acts : List RelayAct, t.relay = run Relay.step s.relay acts) _ _ _ _ ?_
      ⟨[], rfl⟩
    rintro t client datagram _ ⟨acts, ht⟩
    refine ⟨acts ++ [.forward (t.now + (env.forward client).lap) (env.forward client) client
      managed.config.backend datagram], ?_⟩
    rw [run_snoc, ← ht]
    rfl
  | exited => exact ⟨[.drop _], rfl⟩
  | shutDown => exact ⟨[.clear], rfl⟩
  | path act => exact ⟨[.path act], rfl⟩
  | _ => exact hsame rfl

/-- The relay of a proxy is a relay: every run of the proxy drives it through a
run of its own operations. -/
theorem relay_run (p : Proxy) (now : Instant) (events : List Event) :
    ∃ acts : List RelayAct, (p.run now events).relay =
      run Relay.step (Relay.new p.config.sessionTimeout) acts := by
  refine run_induction (fun s => ∃ acts : List RelayAct, s.relay =
    run Relay.step (Relay.new p.config.sessionTimeout) acts) ⟨[], rfl⟩ ?_ events
  rintro before e s' ⟨acts, hs⟩ h
  obtain ⟨acts', hs'⟩ := h.relay_run
  exact ⟨acts ++ acts', by rw [hs', hs, run_append]⟩

theorem relay_wf (p : Proxy) (now : Instant) (events : List Event) :
    (p.run now events).relay.WF := by
  obtain ⟨acts, h⟩ := relay_run p now events
  rw [h]
  exact Relay.wf_run _ acts

theorem slots_keyed {p : Proxy} {slot : SocketAddr} {managed : ManagedBackend}
    (h : p.slots[slot]? = some managed) :
    ∃ route ∈ p.routes.all, route.backend = slot ∧ managed = .new route := by
  have hm := mem_of_getElem?_ofList h
  rw [List.mem_map] at hm
  obtain ⟨route, hr, he⟩ := hm
  obtain ⟨rfl, rfl⟩ := Prod.mk.inj he
  exact ⟨route, hr, rfl, rfl⟩

theorem keyed (p : Proxy) (now : Instant) (events : List Event) : (p.run now events).Keyed := by
  intro slot managed h
  have hc := slot_configs p now events slot
  rw [h, Option.map_some] at hc
  obtain ⟨first, hfirst, hconfig⟩ := Option.map_eq_some_iff.mp hc.symm
  obtain ⟨route, _, rfl, rfl⟩ := slots_keyed hfirst
  rw [← hconfig]
  rfl

theorem mem_slots {p : Proxy} {route : BackendConfig} (h : route ∈ p.routes.all) :
    p.slots[route.backend]?.isSome := by
  rw [ExtTreeMap.isSome_getElem?_iff_mem, Proxy.slots, ExtTreeMap.mem_ofList]
  simp only [List.map_map, List.contains_iff_mem, List.mem_map, Function.comp]
  exact ⟨route, h, rfl⟩

namespace Relay

theorem sessionCountFor_eq_zero {relay : Relay} {backend : SocketAddr}
    (h : relay.sessionCountFor backend = 0) {client : SocketAddr} {session : Session}
    (hs : relay.sessions[client]? = some session) : session.backend ≠ backend := by
  rintro rfl
  rw [sessionCountFor, ← ExtTreeMap.eq_empty_iff_size_eq_zero] at h
  have hget : (relay.sessions.filter fun _ s => s.backend == session.backend)[client]? =
      some session := by
    rw [ExtTreeMap.getElem?_filter', hs]
    simp
  rw [h] at hget
  simp at hget

/-- Where a session is pinned after `forward_to_backend`: where one already was,
or to the backend the call was made for, whose client had none. -/
theorem forward_session_backend {relay : Relay} {now : Instant} {env : ForwardEnv}
    {client backend : SocketAddr} {datagram : Datagram} {c : SocketAddr} {session : Session}
    (h : (relay.forwardToBackend now env client backend datagram).relay.sessions[c]? =
      some session) :
    (∃ old : Session, relay.sessions[c]? = some old ∧ old.backend = session.backend ∧
      old.upstream = session.upstream) ∨
    (c = client ∧ session.backend = backend ∧ relay.sessions[client]? = none ∧
      (relay.forwardToBackend now env client backend datagram).opened =
        some session.upstream) := by
  rcases forward_cases relay now env client backend datagram with
    ⟨old, _, hold, _, he⟩ | ⟨_, hnone, _, _, he⟩ | ⟨_, _, _, _, he⟩
  all_goals rw [he] at h
  · rw [sessions_touch hold, Option.map_eq_some_iff] at h
    obtain ⟨s, hs, rfl⟩ := h
    refine Or.inl ⟨s, hs, ?_⟩
    split <;> exact ⟨rfl, rfl⟩
  · rw [sessions_openSession] at h
    split at h
    · next hc =>
      obtain rfl := Option.some.inj h
      exact Or.inr ⟨hc.symm, rfl, hnone, by rw [he]⟩
    · exact Or.inl ⟨session, h, rfl, rfl⟩
  · exact Or.inl ⟨session, h, rfl, rfl⟩

/-- A forward never moves a session to another backend. -/
theorem sessionBackend_forward {relay : Relay} {c pinned : SocketAddr}
    (h : relay.sessionBackend c = some pinned) (now : Instant) (env : ForwardEnv)
    (client backend : SocketAddr) (datagram : Datagram) :
    (relay.forwardToBackend now env client backend datagram).relay.sessionBackend c =
      some pinned := by
  obtain ⟨session, hs, rfl⟩ := Option.map_eq_some_iff.mp h
  rw [sessionBackend]
  rcases forward_cases relay now env client backend datagram with
    ⟨old, _, hold, _, he⟩ | ⟨_, hnone, _, _, he⟩ | ⟨_, _, _, _, he⟩
  · rw [he, sessions_touch hold, hs]
    simp only [Option.map_some]
    split <;> rfl
  · have hne : client ≠ c := by
      rintro rfl
      rw [hs] at hnone
      cases hnone
    rw [he, sessions_openSession, if_neg hne, hs]
    rfl
  · rw [he, hs]
    rfl

end Relay

namespace State

/-- Every session is pinned to a running slot, and there are none after the loop. -/
def SessionsRun (s : State) : Prop :=
  ∀ (client : SocketAddr) (session : Session), s.relay.sessions[client]? = some session →
    s.phase.InLoop ∧ s.Running session.backend

theorem Running.of_insert {s s' : State} {slot backend : SocketAddr} {managed' : ManagedBackend}
    (h : s.Running backend) (hb : s'.backends = s.backends.insert slot managed')
    (hr : slot = backend → managed'.Running) : s'.Running backend := by
  obtain ⟨managed, hm, hrun⟩ := h
  by_cases he : slot = backend
  · refine ⟨managed', ?_, hr he⟩
    rw [hb, getElem?_insert_eq, if_pos he]
  · refine ⟨managed, ?_, hrun⟩
    rw [hb, getElem?_insert_eq, if_neg he]
    exact hm

/-- A slot that does not run keeps no session, so changing it harms none. -/
theorem Running.of_insert_of_not {s s' : State} {slot backend : SocketAddr}
    {managed managed' : ManagedBackend} (h : s.Running backend)
    (hslot : s.backends[slot]? = some managed) (hnot : ¬ managed.Running)
    (hb : s'.backends = s.backends.insert slot managed') : s'.Running backend := by
  refine h.of_insert hb fun he => ?_
  obtain ⟨m, hm, hrun⟩ := h
  rw [← he, hslot, Option.some.injEq] at hm
  rw [← hm] at hrun
  exact (hnot hrun).elim

theorem sessionsRun_forward {s : State} (hs : s.SessionsRun) (hphase : s.phase.InLoop)
    (origin : Origin) (client : SocketAddr) {backend : SocketAddr} (hrun : s.Running backend)
    (datagram : Datagram) (env : Relay.ForwardEnv) :
    (s.forward origin client backend datagram env).SessionsRun := by
  intro c session hc
  rcases Relay.forward_session_backend hc with ⟨old, hold, hb, _⟩ | ⟨_, hb, _⟩
  · obtain ⟨_, hr⟩ := hs c old hold
    rw [← hb]
    exact ⟨hphase, hr⟩
  · rw [hb]
    exact ⟨hphase, hrun⟩

theorem SessionsRun.of_subset {s s' : State} (hs : s.SessionsRun)
    (hsub : ∀ (client : SocketAddr) (session : Session),
      s'.relay.sessions[client]? = some session → s.relay.sessions[client]? = some session)
    (hphase : s.phase.InLoop → s'.phase.InLoop)
    (hrun : ∀ (client : SocketAddr) (session : Session),
      s'.relay.sessions[client]? = some session → s.Running session.backend →
        s'.Running session.backend) : s'.SessionsRun := by
  intro client session hc
  obtain ⟨hp, hr⟩ := hs client session (hsub client session hc)
  exact ⟨hphase hp, hrun client session hc hr⟩

/-- No session exists outside the loop, and the transitions of the shutdown loop
open none. -/
theorem SessionsRun.of_not_inLoop {s s' : State} (hs : s.SessionsRun)
    (hphase : ¬ s.phase.InLoop) (hrel : s'.relay = s.relay) : s'.SessionsRun := by
  intro client session hc
  rw [hrel] at hc
  exact (hphase (hs client session hc).1).elim

end State

theorem sessionsRun_trans {p : Proxy} {s s' : State} {e : Event} (hk : s.Keyed)
    (hs : s.SessionsRun) (h : Trans p s e s') : s'.SessionsRun := by
  have hsame : s'.relay = s.relay → (s.phase.InLoop → s'.phase.InLoop) →
      (∀ backend, s.Running backend → s'.Running backend) → s'.SessionsRun := by
    intro hrel hp hr
    refine hs.of_subset (fun client session hc => ?_) hp fun _ session _ => hr session.backend
    rw [← hrel]
    exact hc
  cases h with
  | stay => exact hs
  | rejected => exact hsame rfl id fun _ => id
  | @relayed client datagram env managed boot hphase hslot hlife =>
    refine State.sessionsRun_forward (s := s.emit _) hs ?_ _ _ ⟨managed, hslot, boot, hlife⟩ _ _
    simp [State.emit, hphase, Phase.InLoop]
  | woke hphase hslot hlife =>
    have hnot := ManagedBackend.not_running_of_sleeping hlife
    exact hsame rfl id fun b hb => hb.of_insert_of_not hslot hnot rfl
  | heldBack hphase hslot hlife =>
    have hnot := ManagedBackend.not_running_of_waking ⟨_, _, hlife⟩
    exact hsame rfl id fun b hb => hb.of_insert_of_not hslot hnot rfl
  | ignored => exact hsame rfl id fun _ => id
  | tickStarted hphase =>
    refine hs.of_subset (fun client session hc => ?_) (fun _ => Phase.tick_inLoop _) fun _ _ _ => id
    exact (Relay.sessions_retain_some.mp hc).1
  | nothingFinished hphase =>
    exact hsame rfl (fun _ => trivial) fun _ => id
  | @ready env slot rest managed boot hphase hslot hlife =>
    have hdeliver : ((s.takeOver slot managed boot env.readyLap).deliverHeld
        managed.config.backend boot (env.order.list managed.held) env.forward).SessionsRun ∧
        ((s.takeOver slot managed boot env.readyLap).deliverHeld managed.config.backend boot
          (env.order.list managed.held) env.forward).phase.InLoop ∧
        ((s.takeOver slot managed boot env.readyLap).deliverHeld managed.config.backend boot
          (env.order.list managed.held) env.forward).Running managed.config.backend := by
      refine State.deliverHeld_invariant (fun t => t.SessionsRun ∧ t.phase.InLoop ∧
        t.Running managed.config.backend) _ _ _ _ ?_ ⟨?_, ?_, ?_⟩
      · rintro t client datagram _ ⟨ht, hp, hr⟩
        exact ⟨State.sessionsRun_forward ht hp _ client hr datagram _, hp, hr⟩
      · refine hs.of_subset (fun _ _ => id) id fun _ session _ hr => ?_
        exact hr.of_insert_of_not hslot (ManagedBackend.not_running_of_waking ⟨_, _, hlife⟩) rfl
      · simp [State.takeOver, hphase, Phase.InLoop]
      · rw [hk slot managed hslot]
        exact ⟨_, by rw [State.takeOver, getElem?_insert_eq, if_pos rfl], boot, rfl⟩
    intro client session hc
    exact ⟨trivial, (hdeliver.1 client session hc).2⟩
  | bootFailed hphase hslot hlife =>
    exact hsame rfl (fun _ => trivial) fun b hb =>
      hb.of_insert_of_not hslot (ManagedBackend.not_running_of_waking ⟨_, _, hlife⟩) rfl
  | notRunning => exact hsame rfl (fun _ => Phase.tick_inLoop _) fun _ => id
  | @exited env slot rest managed boot hphase hslot hlife =>
    refine hs.of_subset (fun client session hc => (Relay.sessions_retain_some.mp hc).1)
      (fun _ => Phase.tick_inLoop _) fun client session hc hr => ?_
    refine hr.of_insert rfl fun he => ?_
    have hkeep := (Relay.sessions_retain_some.mp hc).2
    rw [hk slot managed hslot, he] at hkeep
    simp at hkeep
  | checkFailed => exact hsame rfl (fun _ => Phase.tick_inLoop _) fun _ => id
  | busy hphase hslot hlife =>
    exact hsame rfl (fun _ => Phase.tick_inLoop _) fun b hb => hb.of_insert rfl fun _ => ⟨_, hlife⟩
  | idling hphase hslot hlife =>
    exact hsame rfl (fun _ => Phase.tick_inLoop _) fun b hb => hb.of_insert rfl fun _ => ⟨_, hlife⟩
  | @idleStopped env slot rest managed boot hphase hslot hlife hexit hcount hidle =>
    refine hs.of_subset (fun _ _ => id) (fun _ => Phase.tick_inLoop _) fun client session hc hr => ?_
    refine hr.of_insert rfl fun he => ?_
    have hne := Relay.sessionCountFor_eq_zero hcount hc
    rw [hk slot managed hslot] at hne
    exact (hne he.symm).elim
  | shutDown hphase =>
    intro client session hc
    have := (Relay.sessions_retain_some.mp hc).2
    cases this
  | nothingToDrain hphase => exact hs.of_not_inLoop (by simp [hphase, Phase.InLoop]) rfl
  | drained hphase => exact hs.of_not_inLoop (by simp [hphase, Phase.InLoop]) rfl
  | drainedFailed hphase => exact hs.of_not_inLoop (by simp [hphase, Phase.InLoop]) rfl
  | gaveUp hphase => exact hs.of_not_inLoop (by simp [hphase, Phase.InLoop]) rfl
  | started hslot hlife =>
    have hnot := ManagedBackend.not_running_of_waking ⟨_, _, hlife⟩
    exact hsame rfl id fun b hb => hb.of_insert_of_not hslot hnot rfl
  | becameReady hslot hlife =>
    have hnot := ManagedBackend.not_running_of_waking ⟨_, _, hlife⟩
    exact hsame rfl id fun b hb => hb.of_insert_of_not hslot hnot rfl
  | startupFailed hslot hlife =>
    have hnot := ManagedBackend.not_running_of_waking ⟨_, _, hlife⟩
    exact hsame rfl id fun b hb => hb.of_insert_of_not hslot hnot rfl
  | advanced => exact hsame rfl id fun _ => id
  | path act =>
    refine hs.of_subset (fun client session hc => ?_) id fun _ _ _ => id
    rw [← (Relay.pathFrame_path s.relay act).sessions]
    exact hc

theorem sessionsRun (p : Proxy) (now : Instant) (events : List Event) :
    (p.run now events).SessionsRun := by
  refine run_induction State.SessionsRun ?_ ?_ events
  · intro client session hs
    simp [Proxy.init, Relay.new] at hs
  · intro before e s' hs h
    exact sessionsRun_trans (keyed p now before) hs h

/-- While the loop runs, every slot is consistent. -/
def State.SlotsConsistent (s : State) : Prop :=
  s.phase.InLoop → ∀ (slot : SocketAddr) (managed : ManagedBackend),
    s.backends[slot]? = some managed → managed.Consistent

theorem slotsConsistent_trans {p : Proxy} {s s' : State} {e : Event} (hs : s.SlotsConsistent)
    (h : Trans p s e s') : s'.SlotsConsistent := by
  have hinsert : ∀ {changed : SocketAddr} {managed managed' : ManagedBackend}
      {backends : ExtTreeMap SocketAddr ManagedBackend},
      s.phase.InLoop → s.backends[changed]? = some managed →
      backends = s.backends.insert changed managed' →
      (managed.Consistent → managed'.Consistent) →
      ∀ (slot : SocketAddr) (m : ManagedBackend), backends[slot]? = some m → m.Consistent := by
    rintro changed managed managed' _ hp hslot rfl hm slot m hget
    rcases getElem?_insert_cases hget with ⟨rfl, rfl⟩ | ⟨_, hget⟩
    · exact hm (hs hp slot managed hslot)
    · exact hs hp slot m hget
  cases h with
  | stay => exact hs
  | rejected => exact hs
  | relayed => exact hs
  | woke hphase hslot hlife =>
    intro hp
    refine hinsert hp hslot rfl fun hm => ManagedBackend.consistent_of_waking ?_
      (ManagedBackend.hold_ne_empty _ _ _) ?_
    · exact ⟨s.boots, .starting, by simp⟩
    · simpa using hm.clock_off (ManagedBackend.not_running_of_sleeping hlife)
  | heldBack hphase hslot hlife =>
    intro hp
    refine hinsert hp hslot rfl fun hm => ManagedBackend.consistent_of_waking ?_
      (ManagedBackend.hold_ne_empty _ _ _) ?_
    · exact ⟨_, _, by simpa using hlife⟩
    · simpa using hm.clock_off (ManagedBackend.not_running_of_waking ⟨_, _, hlife⟩)
  | ignored => exact hs
  | tickStarted hphase => exact fun _ => hs (by simp [hphase, Phase.InLoop])
  | nothingFinished hphase => exact fun _ => hs (by simp [hphase, Phase.InLoop])
  | ready hphase hslot hlife =>
    intro _
    refine hinsert (by simp [hphase, Phase.InLoop]) hslot (State.deliverHeld_backends ..)
      fun _ => ?_
    exact ManagedBackend.consistent_of_running ⟨_, rfl⟩ rfl
  | bootFailed hphase hslot hlife =>
    intro _
    refine hinsert (by simp [hphase, Phase.InLoop]) hslot rfl fun hm => ?_
    exact ManagedBackend.consistent_of_sleeping rfl rfl
      (hm.clock_off (ManagedBackend.not_running_of_waking ⟨_, _, hlife⟩))
  | notRunning hphase => exact fun _ => hs (by simp [hphase, Phase.InLoop])
  | exited hphase hslot hlife =>
    intro _
    refine hinsert (by simp [hphase, Phase.InLoop]) hslot rfl fun hm => ?_
    exact hm.put_to_sleep ⟨_, hlife⟩ rfl rfl rfl
  | checkFailed hphase => exact fun _ => hs (by simp [hphase, Phase.InLoop])
  | busy hphase hslot hlife =>
    intro _
    refine hinsert (by simp [hphase, Phase.InLoop]) hslot rfl fun hm => ?_
    exact hm.still_running ⟨_, hlife⟩ ⟨_, hlife⟩ rfl
  | idling hphase hslot hlife =>
    intro _
    refine hinsert (by simp [hphase, Phase.InLoop]) hslot rfl fun hm => ?_
    exact hm.still_running ⟨_, hlife⟩ ⟨_, hlife⟩ rfl
  | idleStopped hphase hslot hlife =>
    intro _
    refine hinsert (by simp [hphase, Phase.InLoop]) hslot rfl fun hm => ?_
    exact hm.put_to_sleep ⟨_, hlife⟩ rfl rfl rfl
  | shutDown => exact fun hp => (Phase.drain_not_inLoop _ hp).elim
  | nothingToDrain => exact fun hp => (Phase.drain_not_inLoop _ hp).elim
  | drained => exact fun hp => (Phase.drain_not_inLoop _ hp).elim
  | drainedFailed => exact fun hp => (Phase.drain_not_inLoop _ hp).elim
  | gaveUp => exact fun hp => (Phase.drain_not_inLoop _ hp).elim
  | started hslot hlife =>
    intro hp
    refine hinsert hp hslot rfl fun hm => ?_
    exact hm.still_waking ⟨_, _, hlife⟩ ⟨_, _, rfl⟩ rfl rfl
  | becameReady hslot hlife =>
    intro hp
    refine hinsert hp hslot rfl fun hm => ?_
    exact hm.still_waking ⟨_, _, hlife⟩ ⟨_, _, rfl⟩ rfl rfl
  | startupFailed hslot hlife =>
    intro hp
    refine hinsert hp hslot rfl fun hm => ?_
    exact hm.still_waking ⟨_, _, hlife⟩ ⟨_, _, rfl⟩ rfl rfl
  | advanced => exact hs
  | path => exact hs

theorem slotsConsistent (p : Proxy) (now : Instant) (events : List Event) :
    (p.run now events).SlotsConsistent := by
  refine run_induction State.SlotsConsistent ?_ ?_ events
  · intro _ slot managed h
    obtain ⟨route, _, _, rfl⟩ := slots_keyed h
    exact ManagedBackend.consistent_of_sleeping rfl rfl rfl
  · intro before e s' hs h
    exact slotsConsistent_trans hs h

namespace State

/-- The session map, the slots and the return paths agree with one another. -/
structure Consistent (s : State) : Prop where
  sessions_running : ∀ (client : SocketAddr) (session : Session),
    s.relay.sessions[client]? = some session → s.Running session.backend
  held_iff_waking : ∀ (slot : SocketAddr) (managed : ManagedBackend),
    s.backends[slot]? = some managed → (managed.held ≠ ∅ ↔ managed.Waking)
  clock_running : ∀ (slot : SocketAddr) (managed : ManagedBackend),
    s.backends[slot]? = some managed → managed.emptySince.isSome → managed.Running
  paths_owned : ∀ (id : TaskId) (task : ReturnPath), s.relay.tasks[id]? = some task →
    task.status.Alive →
    ∃ session : Session, s.relay.sessions[task.client]? = some session ∧ session.returnPath = id

/-- What a step hands to a backend goes to a running one, and what it sends to
a client comes from the session of a running one. -/
structure RelaysRunning (p : Proxy) (s : State) (e : Event) : Prop where
  to_backend : ∀ call : Forward, .forwarded call ∈ (p.step s e).log.drop s.log.length →
    ∀ backend, call.dest = some backend → (p.step s e).Running backend
  to_client : ∀ act : PathAct, e = .path act → ∀ reply ∈ s.relay.sends (.path act),
    ∃ session : Session, s.relay.sessions[reply.client]? = some session ∧
      session.upstream = reply.upstream ∧ s.Running session.backend

/-- The address a forward sends to is that of a running slot. -/
theorem forward_dest_running {s : State} (hs : s.SessionsRun) {backend : SocketAddr}
    (hrun : s.Running backend) {now : Instant} {env : Relay.ForwardEnv} {client : SocketAddr}
    {datagram : Datagram} {dest : SocketAddr}
    (h : (s.relay.forwardToBackend now env client backend datagram).dest = some dest) :
    s.Running dest := by
  rcases Relay.forward_cases s.relay now env client backend datagram with
    ⟨session, _, hold, _, he⟩ | ⟨_, _, _, _, he⟩ | ⟨_, _, _, _, he⟩
  all_goals rw [he] at h
  · obtain rfl := Option.some.inj h
    exact (hs client session hold).2
  · obtain rfl := Option.some.inj h
    exact hrun
  · cases h

end State

theorem Trans.forwards_running {p : Proxy} {s s' : State} {e : Event} (hk : s.Keyed)
    (hs : s.SessionsRun) (h : Trans p s e s') (call : Forward)
    (hcall : .forwarded call ∈ s'.log.drop s.log.length) (backend : SocketAddr)
    (hdest : call.dest = some backend) : s'.Running backend := by
  cases h with
  | relayed hphase hslot hlife =>
    simp only [State.forward, State.emit, State.advance, List.append_assoc, List.drop_left,
      List.singleton_append, List.mem_cons, reduceCtorEq, false_or, List.not_mem_nil, or_false,
      Effect.forwarded.injEq] at hcall
    subst hcall
    exact State.forward_dest_running hs ⟨_, hslot, _, hlife⟩ hdest
  | @ready env slot rest managed boot hphase hslot hlife =>
    have hstart : (s.takeOver slot managed boot env.readyLap).Running managed.config.backend := by
      rw [hk slot managed hslot]
      exact ⟨_, by rw [State.takeOver, getElem?_insert_eq, if_pos rfl], boot, rfl⟩
    have hsess : (s.takeOver slot managed boot env.readyLap).SessionsRun := by
      refine hs.of_subset (fun _ _ => id) id fun _ session _ hr => ?_
      exact hr.of_insert_of_not hslot (ManagedBackend.not_running_of_waking ⟨_, _, hlife⟩) rfl
    have hphase' : (s.takeOver slot managed boot env.readyLap).phase.InLoop := by
      simp [State.takeOver, hphase, Phase.InLoop]
    have hall := State.deliverHeld_invariant
      (fun t => t.SessionsRun ∧ t.phase.InLoop ∧ t.Running managed.config.backend ∧
        ∃ effects, t.log = s.log ++ effects ∧ ∀ call : Forward, .forwarded call ∈ effects →
          ∀ backend, call.dest = some backend → t.Running backend)
      managed.config.backend boot (env.order.list managed.held) env.forward
      (by
        rintro t client datagram _ ⟨ht, hp, hr, effects, hlog, hcalls⟩
        refine ⟨State.sessionsRun_forward ht hp _ client hr datagram _, hp, hr,
          effects ++ [_], by rw [← List.append_assoc, ← hlog]; rfl, ?_⟩
        intro call hmem backend hd
        rcases List.mem_append.mp hmem with hmem | hmem
        · exact hcalls call hmem backend hd
        · rw [List.mem_singleton, Effect.forwarded.injEq] at hmem
          subst hmem
          exact State.forward_dest_running (s := t) ht hr hd)
      ⟨hsess, hphase', hstart, [.consumed boot managed.config.backend .ready], rfl, by simp⟩
    obtain ⟨_, _, _, effects, hlog, hcalls⟩ := hall
    simp only [hlog, List.drop_left] at hcall
    exact hcalls call hcall backend hdest
  | _ => simp at hcall

theorem relays_running (p : Proxy) (now : Instant) (events : List Event) (e : Event) :
    State.RelaysRunning p (p.run now events) e := by
  have hs := sessionsRun p now events
  refine ⟨fun call hcall backend hdest => ?_, fun act _ reply hr => ?_⟩
  · exact (step_trans p _ e).forwards_running (keyed p now events) hs call hcall backend hdest
  · obtain ⟨acts, hrelay⟩ := relay_run p now events
    obtain ⟨hw, hf⟩ := Relay.sound_run p.config.sessionTimeout acts
    rw [← hrelay] at hw hf
    obtain ⟨session, hsession, hu, _⟩ := Relay.sends_of_flow hw hf hr
    exact ⟨session, hsession, hu, (hs _ _ hsession).2⟩

/-- Between two iterations of the loop lifecycles, held Initials, idle clocks and
sessions agree, whatever happened before; and no step relays to or from a
backend that is not running. -/
theorem lifecycle_consistent (p : Proxy) (now : Instant) (events : List Event) :
    ((p.run now events).phase = .serving → (p.run now events).Consistent) ∧
      ∀ e : Event, State.RelaysRunning p (p.run now events) e := by
  refine ⟨fun hphase => ⟨?_, ?_, ?_, ?_⟩, relays_running p now events⟩
  · exact fun client session h => (sessionsRun p now events client session h).2
  · intro slot managed h
    exact (slotsConsistent p now events (by simp [hphase, Phase.InLoop]) slot managed h).held_iff
  · intro slot managed h
    exact (slotsConsistent p now events (by simp [hphase, Phase.InLoop]) slot managed h).clock
  · exact (relay_wf p now events).alive_session

def HeldOrder.byKey : HeldOrder := ⟨fun held => held.toList, fun _ => List.Perm.refl _⟩

/-- A tick over `slots` slots in which every call succeeds at once. -/
def calmTick (slots : Nat) : List Event :=
  .tickStart :: (List.replicate slots
    [.finishSlot ⟨.byKey, fun _ => ⟨0, true, true⟩, 0⟩,
      .checkSlot ⟨.alive, true, 0, 0⟩]).flatten

/-- A knock, the boot it starts, and the tick that finds the backend ready. -/
def wakeRun (slots : Nat) (client : SocketAddr) (datagram : Datagram) (slot : SocketAddr) :
    List Event :=
  [.datagram client datagram ⟨0, true, true⟩, .started slot, .startupDone slot .ready] ++
    calmTick slots

theorem lifecycle_consistent_after_waking :
    ((⟨.default, Sni.Rfc9001.crypto⟩ : Proxy).run 0
      (wakeRun 1 (.localhost 40000) testInitial Config.default.backend)).Consistent :=
  (lifecycle_consistent ⟨.default, Sni.Rfc9001.crypto⟩ 0
    (wakeRun 1 (.localhost 40000) testInitial Config.default.backend)).1 (by decide +kernel)

end Sleepytale
