import Sleepytale.Lib.Channel
import Sleepytale.Lifecycle

/-!
# The two directions of a client's traffic

What a client sends to a backend passes through `forward_to_backend`, at once or
by way of the hold of a waking slot; what comes back waits in a session's socket
for the return path. Each direction is a channel: the proxy loses datagrams but
neither reorders nor duplicates them, and it loses none while the backend runs
or the return path lives.
-/

namespace Sleepytale

open Sleepytale.Net
open Sleepytale.Lib
open Sleepytale.Lib.Maps
open Relation (ReflTransGen)
open Std (ExtTreeMap)

/-- The datagram of `client` that an effect is the receipt of, for `backend`. -/
def Effect.receipt? (client backend : SocketAddr) : Effect → Option Datagram
  | received c datagram target => if c = client ∧ target = backend then some datagram else none
  | _ => none

/-- The datagram of `client` that an effect hands to `forward_to_backend` for `backend`. -/
def Effect.handover? (client backend : SocketAddr) : Effect → Option Datagram
  | forwarded call =>
      if call.client = client ∧ call.backend = backend then some call.datagram else none
  | _ => none

/-- What `handle_datagram` received from a client for a backend, oldest first. -/
def receivedFor (client backend : SocketAddr) (log : List Effect) : List Datagram :=
  log.filterMap (Effect.receipt? client backend)

/-- What `forward_to_backend` was called with for a client and a backend. -/
def handedOn (client backend : SocketAddr) (log : List Effect) : List Datagram :=
  log.filterMap (Effect.handover? client backend)

theorem receivedFor_append (client backend : SocketAddr) (log effects : List Effect) :
    receivedFor client backend (log ++ effects) =
      receivedFor client backend log ++ receivedFor client backend effects :=
  List.filterMap_append

theorem handedOn_append (client backend : SocketAddr) (log effects : List Effect) :
    handedOn client backend (log ++ effects) =
      handedOn client backend log ++ handedOn client backend effects :=
  List.filterMap_append

/-- `deliver_held` receives nothing. -/
theorem receivedFor_calls (client backend : SocketAddr) (calls : List Forward) :
    receivedFor client backend (calls.map Effect.forwarded) = [] := by
  rw [receivedFor, List.filterMap_map, List.filterMap_eq_nil_iff]
  intro call _
  rfl

/-- What the calls of `deliver_held` for `slot` hand on for one client is what
the entries it walked hold for that client. -/
theorem handedOn_calls {slot : SocketAddr} {calls : List Forward}
    (hslot : ∀ call ∈ calls, call.backend = slot) (client backend : SocketAddr) :
    handedOn client backend (calls.map Effect.forwarded) =
      if slot = backend then
        (calls.map fun call => (call.client, call.datagram)).filterMap fun entry =>
          if entry.1 = client then some entry.2 else none
      else [] := by
  induction calls with
  | nil => split <;> rfl
  | cons call calls ih =>
    have hhead : call.backend = slot := hslot call List.mem_cons_self
    have hrest := ih fun c hc => hslot c (List.mem_cons_of_mem _ hc)
    rw [handedOn] at hrest ⊢
    rw [List.map_cons, List.filterMap_cons, hrest, List.map_cons, List.filterMap_cons]
    by_cases hs : slot = backend
    · by_cases hc : call.client = client <;> simp [Effect.handover?, hhead, hs, hc]
    · simp [Effect.handover?, hhead, hs]

namespace State

/-- What a slot holds for a client. -/
def heldFor (s : State) (client backend : SocketAddr) : List Datagram :=
  (s.backends[backend]?.bind fun managed => managed.held[client]?).toList

/-- The way of a client's datagrams to one backend. -/
def upstream (s : State) (client backend : SocketAddr) : Channel Datagram where
  sent := receivedFor client backend s.log
  waiting := s.heldFor client backend
  delivered := handedOn client backend s.log

theorem heldFor_of_slot {s : State} {backend : SocketAddr} {managed : ManagedBackend}
    (h : s.backends[backend]? = some managed) (client : SocketAddr) :
    s.heldFor client backend = managed.held[client]?.toList := by
  rw [heldFor, h]
  rfl

theorem heldFor_insert {s s' : State} {slot : SocketAddr} {managed : ManagedBackend}
    (h : s'.backends = s.backends.insert slot managed) (client backend : SocketAddr) :
    s'.heldFor client backend =
      if slot = backend then managed.held[client]?.toList else s.heldFor client backend := by
  rw [heldFor, h, getElem?_insert_eq]
  split
  · rfl
  · rfl

/-- A slot whose hold is written back as it was holds what it held. -/
theorem heldFor_insert_same {s s' : State} {slot : SocketAddr} {managed managed' : ManagedBackend}
    (hslot : s.backends[slot]? = some managed) (h : s'.backends = s.backends.insert slot managed')
    (hheld : managed'.held = managed.held) (client backend : SocketAddr) :
    s'.heldFor client backend = s.heldFor client backend := by
  rw [heldFor_insert h]
  split
  · next he =>
    subst he
    rw [heldFor_of_slot hslot, hheld]
  · rfl

end State

/-- An effect that neither receives nor hands on a datagram. -/
def Effect.Still : Effect → Prop
  | received _ _ _ => False
  | forwarded _ => False
  | _ => True

theorem receivedFor_still {effects : List Effect} (h : ∀ effect ∈ effects, effect.Still)
    (client backend : SocketAddr) : receivedFor client backend effects = [] := by
  rw [receivedFor, List.filterMap_eq_nil_iff]
  intro effect hm
  have hs := h effect hm
  cases effect with
  | received => exact hs.elim
  | _ => rfl

theorem handedOn_still {effects : List Effect} (h : ∀ effect ∈ effects, effect.Still)
    (client backend : SocketAddr) : handedOn client backend effects = [] := by
  rw [handedOn, List.filterMap_eq_nil_iff]
  intro effect hm
  have hs := h effect hm
  cases effect with
  | forwarded => exact hs.elim
  | _ => rfl

namespace ManagedBackend

/-- `hold` keeps the new Initial or leaves what it held for the client. -/
theorem hold_held_self (managed : ManagedBackend) (client : SocketAddr) (datagram : Datagram) :
    (managed.hold client datagram).1.held[client]? = some datagram ∨
      (managed.hold client datagram).1.held[client]? = managed.held[client]? := by
  unfold hold
  split
  · exact Or.inr rfl
  · exact Or.inl ExtTreeMap.getElem?_insert_self

theorem hold_held_other (managed : ManagedBackend) {client c : SocketAddr} (h : client ≠ c)
    (datagram : Datagram) :
    (managed.hold client datagram).1.held[c]? = managed.held[c]? := by
  unfold hold
  split
  · rfl
  · exact getElem?_insert_ne _ _ h

end ManagedBackend

namespace State

/-- What one transition may do to a channel: keep every item, or, if the backend
does not run, take one step that loses something. -/
def Carries (s s' : State) (client backend : SocketAddr) : Prop :=
  ReflTransGen Channel.Keeps (s.upstream client backend) (s'.upstream client backend) ∨
    ¬ s.Running backend ∧ Channel.Step (s.upstream client backend) (s'.upstream client backend)

theorem carries_of_eq {s s' : State} {client backend : SocketAddr}
    (h : s'.upstream client backend = s.upstream client backend) :
    s.Carries s' client backend := by
  rw [Carries, h]
  exact Or.inl ReflTransGen.refl

theorem upstream_still {s s' : State} {effects : List Effect} (hlog : s'.log = s.log ++ effects)
    (hstill : ∀ effect ∈ effects, effect.Still) (client backend : SocketAddr) :
    s'.upstream client backend =
      { s.upstream client backend with waiting := s'.heldFor client backend } := by
  simp only [upstream, hlog, receivedFor_append, handedOn_append,
    receivedFor_still hstill, handedOn_still hstill, List.append_nil]

/-- Transitions that receive nothing, hand nothing on and leave the holds alone. -/
theorem carries_still {s s' : State} {effects : List Effect} (hlog : s'.log = s.log ++ effects)
    (hstill : ∀ effect ∈ effects, effect.Still) {client backend : SocketAddr}
    (hheld : s'.heldFor client backend = s.heldFor client backend) :
    s.Carries s' client backend := by
  apply carries_of_eq
  rw [upstream_still hlog hstill, hheld]
  rfl

/-- A datagram that is received and not handed on: it is refused, or takes the
place of what is held for its client. -/
theorem carries_received {s s' : State} {client target : SocketAddr} {datagram : Datagram}
    {effects : List Effect} (hlog : s'.log = s.log ++ .received client datagram target :: effects)
    (hstill : ∀ effect ∈ effects, effect.Still) (hnot : ¬ s.Running target)
    (hother : ∀ c b, ¬ (client = c ∧ target = b) → s'.heldFor c b = s.heldFor c b)
    (hself : s'.heldFor client target = [datagram] ∨
      s'.heldFor client target = s.heldFor client target) (c b : SocketAddr) :
    s.Carries s' c b := by
  have hup : s'.upstream c b = ⟨receivedFor c b s.log ++
      if client = c ∧ target = b then [datagram] else [], s'.heldFor c b, handedOn c b s.log⟩ := by
    have hr : receivedFor c b (.received client datagram target :: effects) =
        if client = c ∧ target = b then [datagram] else [] := by
      have hrest := receivedFor_still hstill c b
      rw [receivedFor] at hrest ⊢
      rw [List.filterMap_cons, hrest]
      by_cases hit : client = c ∧ target = b <;> simp [Effect.receipt?, hit]
    have hh : handedOn c b (.received client datagram target :: effects) = [] := by
      have hrest := handedOn_still hstill c b
      rw [handedOn] at hrest ⊢
      rw [List.filterMap_cons, hrest]
      rfl
    rw [upstream, hlog, receivedFor_append, handedOn_append, hr, hh, List.append_nil]
  by_cases hit : client = c ∧ target = b
  · obtain ⟨rfl, rfl⟩ := hit
    rw [if_pos ⟨rfl, rfl⟩] at hup
    refine Or.inr ⟨hnot, ?_⟩
    rw [hup]
    rcases hself with hnew | hsame
    · rw [hnew]
      exact Channel.Step.replace datagram (s.upstream client target)
    · rw [hsame]
      exact Channel.Step.refuse datagram (s.upstream client target)
  · apply carries_of_eq
    rw [hup, if_neg hit, List.append_nil, hother c b hit]
    rfl

/-- A datagram for a running backend passes straight through. -/
theorem carries_relayed {s : State} {target : SocketAddr} {managed : ManagedBackend}
    (hm : managed.Consistent) (hslot : s.backends[target]? = some managed)
    (hrun : managed.Running) (datagram : Datagram) (env : Relay.ForwardEnv)
    (c client backend : SocketAddr) :
    s.Carries ((s.emit (.received c datagram target)).forward .direct c target datagram env)
      client backend := by
  by_cases hit : c = client ∧ target = backend
  · obtain ⟨rfl, rfl⟩ := hit
    have hempty : (s.upstream c target).waiting = [] := by
      show s.heldFor c target = []
      rw [heldFor_of_slot hslot, hm.held_empty (ManagedBackend.not_waking_of_running hrun)]
      simp
    have hup : ((s.emit (.received c datagram target)).forward .direct c target datagram
        env).upstream c target = ⟨(s.upstream c target).sent ++ [datagram],
          (s.upstream c target).waiting, (s.upstream c target).delivered ++ [datagram]⟩ := by
      rw [upstream, forward_log, emit, receivedFor_append, receivedFor_append, handedOn_append,
        handedOn_append]
      simp [receivedFor, handedOn, Effect.receipt?, Effect.handover?, forwardCall, upstream,
        heldFor]
    rw [Carries, hup, hempty]
    exact Or.inl (Channel.keeps_through hempty datagram)
  · apply carries_of_eq
    have hmiss : ¬ (c = client ∧ target = backend) := hit
    rw [upstream, forward_log, emit, receivedFor_append, receivedFor_append, handedOn_append,
      handedOn_append]
    simp [receivedFor, handedOn, Effect.receipt?, Effect.handover?, forwardCall, upstream,
      heldFor, hmiss]

/-- Taking over a finished boot hands on what its slot held, whatever the order
in which the hold is walked. -/
theorem carries_ready {s s' : State} {slot : SocketAddr} {managed managed' : ManagedBackend}
    {effects : List Effect} {calls : List Forward} (hslot : s.backends[slot]? = some managed)
    (hlog : s'.log = s.log ++ effects ++ calls.map .forwarded)
    (hstill : ∀ effect ∈ effects, effect.Still)
    (hwalk : (calls.map fun call => (call.client, call.datagram)).Perm managed.held.toList)
    (hbackend : ∀ call ∈ calls, call.backend = slot)
    (hb : s'.backends = s.backends.insert slot managed') (hheld : managed'.held = ∅)
    (client backend : SocketAddr) : s.Carries s' client backend := by
  have hup : s'.upstream client backend = ⟨receivedFor client backend s.log,
      if slot = backend then [] else s.heldFor client backend,
      handedOn client backend s.log ++ if slot = backend then managed.held[client]?.toList else []⟩ := by
    simp only [upstream, hlog, receivedFor_append, handedOn_append, receivedFor_still hstill,
      handedOn_still hstill, receivedFor_calls, handedOn_calls hbackend, List.append_nil,
      filterMap_key_of_perm hwalk, heldFor_insert hb, hheld, ExtTreeMap.getElem?_empty,
      Option.toList_none]
  rw [Carries, hup]
  by_cases he : slot = backend
  · subst he
    rw [if_pos rfl, if_pos rfl, ← heldFor_of_slot hslot]
    have hall : s.upstream client slot = ⟨receivedFor client slot s.log,
        s.heldFor client slot ++ [], handedOn client slot s.log⟩ := by
      rw [List.append_nil, upstream]
    rw [hall]
    exact Or.inl (ReflTransGen.single Channel.Keeps.deliver)
  · rw [if_neg he, if_neg he, List.append_nil]
    exact Or.inl ReflTransGen.refl

/-- A failed boot loses what its slot held. -/
theorem carries_failed {s s' : State} {slot : SocketAddr} {managed managed' : ManagedBackend}
    {effects : List Effect} (hslot : s.backends[slot]? = some managed) (hwaking : managed.Waking)
    (hlog : s'.log = s.log ++ effects) (hstill : ∀ effect ∈ effects, effect.Still)
    (hb : s'.backends = s.backends.insert slot managed') (hheld : managed'.held = ∅)
    (client backend : SocketAddr) : s.Carries s' client backend := by
  by_cases he : slot = backend
  · subst he
    refine Or.inr ⟨?_, ?_⟩
    · intro hrun
      obtain ⟨m, hm, hr⟩ := hrun
      rw [hslot, Option.some.injEq] at hm
      exact ManagedBackend.not_running_of_waking hwaking (hm ▸ hr)
    · rw [upstream_still hlog hstill]
      apply Channel.Step.lose
      rw [heldFor_insert hb, if_pos rfl, hheld]
      simp
  · refine carries_still hlog hstill ?_
    rw [heldFor_insert hb, if_neg he]

end State

/-- Every transition carries every client's datagrams to every backend in order. -/
theorem carries_trans {p : Proxy} {s s' : State} {e : Event} (hk : s.Keyed)
    (hc : s.SlotsConsistent) (h : Trans p s e s') (client backend : SocketAddr) :
    s.Carries s' client backend := by
  have hkept : ∀ {slot : SocketAddr} {managed managed' : ManagedBackend} {effects : List Effect},
      s'.log = s.log ++ effects → (∀ effect ∈ effects, effect.Still) →
      s.backends[slot]? = some managed → s'.backends = s.backends.insert slot managed' →
      managed'.held = managed.held → s.Carries s' client backend :=
    fun hlog hstill hslot hb hheld =>
      State.carries_still hlog hstill (State.heldFor_insert_same hslot hb hheld _ _)
  have hsame : s'.log = s.log → s'.backends = s.backends → s.Carries s' client backend := by
    intro hlog hb
    have hlog' : s'.log = s.log ++ [] := by rw [hlog, List.append_nil]
    refine State.carries_still hlog' (List.forall_mem_nil _) ?_
    rw [State.heldFor, hb, State.heldFor]
  have hholding : ∀ {c : SocketAddr} {datagram : Datagram} {managed managed' : ManagedBackend}
      {effects : List Effect} {target : SocketAddr}, s.backends[target]? = some managed →
      ¬ managed.Running → managed'.held = managed.held →
      s'.log = s.log ++ .received c datagram target :: effects →
      (∀ effect ∈ effects, effect.Still) →
      s'.backends = s.backends.insert target (managed'.hold c datagram).1 →
      s.Carries s' client backend := by
    intro c datagram managed managed' effects target hslot hnot hheld hlog hstill hb
    refine State.carries_received hlog hstill ?_ ?_ ?_ client backend
    · intro hrun
      obtain ⟨m, hm, hr⟩ := hrun
      rw [hslot, Option.some.injEq] at hm
      exact hnot (hm ▸ hr)
    · intro c' b' hmiss
      rw [State.heldFor_insert hb]
      split
      · next he =>
        subst he
        have hne : c ≠ c' := fun hcc => hmiss ⟨hcc, rfl⟩
        rw [ManagedBackend.hold_held_other _ hne, hheld, State.heldFor_of_slot hslot]
      · rfl
    · rw [State.heldFor_insert hb, if_pos rfl, State.heldFor_of_slot hslot]
      rcases managed'.hold_held_self c datagram with hnew | hold
      · rw [hnew]
        exact Or.inl rfl
      · rw [hold, hheld]
        exact Or.inr rfl
  cases h with
  | stay => exact State.carries_of_eq rfl
  | @rejected c datagram env hphase hslot =>
    refine State.carries_received rfl (by simp [Effect.Still]) ?_ ?_ ?_ client backend
    · intro hrun
      obtain ⟨m, hm, _⟩ := hrun
      rw [hslot] at hm
      cases hm
    · exact fun _ _ _ => rfl
    · exact Or.inr rfl
  | @relayed c datagram env managed boot hphase hslot hlife =>
    exact State.carries_relayed (hc (by simp [hphase, Phase.InLoop]) _ managed hslot) hslot
      ⟨boot, hlife⟩ datagram env c client backend
  | woke hphase hslot hlife =>
    refine hholding hslot (ManagedBackend.not_running_of_sleeping hlife) ?_ rfl ?_ rfl
    · rfl
    · simp [Effect.Still]
  | heldBack hphase hslot hlife =>
    exact hholding hslot (ManagedBackend.not_running_of_waking ⟨_, _, hlife⟩) rfl rfl
      (List.forall_mem_nil _) rfl
  | @ignored c datagram env managed hphase hslot hlife =>
    refine State.carries_received rfl (List.forall_mem_nil _) ?_ ?_ ?_ client backend
    · intro hrun
      obtain ⟨m, hm, boot, hr⟩ := hrun
      rw [hslot, Option.some.injEq] at hm
      exact hlife boot (hm ▸ hr)
    · exact fun _ _ _ => rfl
    · exact Or.inr rfl
  | tickStarted => exact hsame rfl rfl
  | nothingFinished => exact hsame rfl rfl
  | @ready env slot rest managed boot hphase hslot hlife =>
    obtain ⟨calls, hlog, hwalk, hcalls⟩ := State.deliverHeld_log
      (s.takeOver slot managed boot env.readyLap) managed.config.backend boot
      (env.order.list managed.held) env.forward
    refine State.carries_ready hslot hlog (by simp [Effect.Still]) ?_ ?_
      (State.deliverHeld_backends ..) rfl client backend
    · rw [hwalk]
      exact env.order.perm managed.held
    · intro call hm
      rw [(hcalls call hm).2, hk slot managed hslot]
  | @bootFailed env slot rest managed boot result hphase hslot hlife =>
    exact State.carries_failed hslot ⟨_, _, hlife⟩ rfl (by simp [Effect.Still]) rfl rfl client backend
  | notRunning => exact hsame rfl rfl
  | exited hphase hslot => exact hkept rfl (by simp [Effect.Still]) hslot rfl rfl
  | checkFailed =>
    exact State.carries_still rfl (by simp [Effect.Still]) rfl
  | busy hphase hslot => exact hkept rfl (by simp [Effect.Still]) hslot rfl rfl
  | idling hphase hslot => exact hkept rfl (by simp [Effect.Still]) hslot rfl rfl
  | idleStopped hphase hslot => exact hkept rfl (by simp [Effect.Still]) hslot rfl rfl
  | shutDown => exact hsame rfl rfl
  | nothingToDrain => exact hsame rfl rfl
  | drained hphase hslot => exact hkept rfl (by simp [Effect.Still]) hslot rfl rfl
  | drainedFailed hphase hslot => exact hkept (List.append_nil _).symm (List.forall_mem_nil _) hslot rfl rfl
  | gaveUp hphase hslot => exact hkept rfl (by simp [Effect.Still]) hslot rfl rfl
  | started hslot => exact hkept rfl (by simp [Effect.Still]) hslot rfl rfl
  | becameReady hslot => exact hkept (List.append_nil _).symm (List.forall_mem_nil _) hslot rfl rfl
  | startupFailed hslot => exact hkept rfl (by simp [Effect.Still]) hslot rfl rfl
  | advanced => exact hsame rfl rfl
  | path => exact hsame rfl rfl

/-- A running slot holds nothing, also while the proxy shuts down. -/
def State.RunningHoldNothing (s : State) : Prop :=
  ∀ (slot : SocketAddr) (managed : ManagedBackend), s.backends[slot]? = some managed →
    managed.Running → managed.held = ∅

theorem runningHoldNothing_trans {p : Proxy} {s s' : State} {e : Event}
    (hs : s.RunningHoldNothing) (hc : s'.SlotsConsistent) (h : Trans p s e s') :
    s'.RunningHoldNothing := by
  have hother : ∀ {changed : SocketAddr} {new : ManagedBackend},
      s'.backends = s.backends.insert changed new → ¬ new.Running → s'.RunningHoldNothing := by
    intro changed new hb hnot slot managed hslot hrun
    rw [hb] at hslot
    rcases getElem?_insert_cases hslot with hnew | ⟨_, hslot⟩
    · exact (hnot (hnew.2 ▸ hrun)).elim
    · exact hs slot managed hslot hrun
  by_cases hloop : s'.phase.InLoop
  · intro slot managed hslot hrun
    exact (hc hloop slot managed hslot).held_empty (ManagedBackend.not_waking_of_running hrun)
  · have hserving : s'.phase ≠ .serving := fun he => hloop (he ▸ trivial)
    cases h with
    | stay => exact hs
    | rejected hphase => exact (hserving hphase).elim
    | relayed hphase => exact (hserving hphase).elim
    | woke hphase => exact (hserving hphase).elim
    | heldBack hphase => exact (hserving hphase).elim
    | ignored hphase => exact (hserving hphase).elim
    | tickStarted => exact (hloop (Phase.tick_inLoop _)).elim
    | nothingFinished => exact (hloop trivial).elim
    | ready => exact (hloop trivial).elim
    | bootFailed => exact (hloop trivial).elim
    | notRunning => exact (hloop (Phase.tick_inLoop _)).elim
    | exited => exact (hloop (Phase.tick_inLoop _)).elim
    | checkFailed => exact (hloop (Phase.tick_inLoop _)).elim
    | busy => exact (hloop (Phase.tick_inLoop _)).elim
    | idling => exact (hloop (Phase.tick_inLoop _)).elim
    | idleStopped => exact (hloop (Phase.tick_inLoop _)).elim
    | shutDown => exact hs
    | nothingToDrain => exact hs
    | drained => exact hother rfl (ManagedBackend.not_running_of_sleeping rfl)
    | drainedFailed => exact hother rfl (ManagedBackend.not_running_of_sleeping rfl)
    | gaveUp => exact hother rfl (ManagedBackend.not_running_of_sleeping rfl)
    | started => exact hother rfl (ManagedBackend.not_running_of_waking ⟨_, _, rfl⟩)
    | becameReady => exact hother rfl (ManagedBackend.not_running_of_waking ⟨_, _, rfl⟩)
    | startupFailed => exact hother rfl (ManagedBackend.not_running_of_waking ⟨_, _, rfl⟩)
    | advanced => exact hs
    | path => exact hs

theorem runningHoldNothing (p : Proxy) (now : Instant) (events : List Event) :
    (p.run now events).RunningHoldNothing := by
  refine (run_induction (fun s => s.RunningHoldNothing ∧ s.SlotsConsistent) ⟨?_, ?_⟩ ?_ events).1
  · intro slot managed h hrun
    obtain ⟨route, _, _, rfl⟩ := slots_keyed h
    exact (ManagedBackend.not_running_of_sleeping rfl hrun).elim
  · exact slotsConsistent p now []
  · intro before e s' hs h
    have hc := slotsConsistent_trans hs.2 h
    exact ⟨runningHoldNothing_trans hs.1 hc h, hc⟩

theorem heldFor_of_running (p : Proxy) (now : Instant) (events : List Event)
    {backend : SocketAddr} (hrun : (p.run now events).Running backend) (client : SocketAddr) :
    (p.run now events).heldFor client backend = [] := by
  obtain ⟨managed, hslot, hr⟩ := hrun
  rw [State.heldFor_of_slot hslot, runningHoldNothing p now events backend managed hslot hr]
  simp

/-- In every run, what was handed on of a client's datagrams for a backend, and
after it what is held of them, is a subsequence of what was received: nothing is
reordered, duplicated or made up. -/
theorem handed_on_in_order (p : Proxy) (now : Instant) (events : List Event)
    (client backend : SocketAddr) :
    (handedOn client backend (p.run now events).log ++
      (p.run now events).heldFor client backend).Sublist
        (receivedFor client backend (p.run now events).log) := by
  refine run_induction (fun s => (s.upstream client backend).Ordered) ?_ ?_ events
  · have hnone : (p.init now).heldFor client backend = [] := by
      rw [State.heldFor, Option.toList_eq_nil_iff, Option.bind_eq_none_iff]
      intro managed h
      obtain ⟨route, _, _, rfl⟩ := slots_keyed h
      exact ExtTreeMap.getElem?_empty
    rw [Channel.Ordered, State.upstream, hnone]
    exact List.Sublist.refl _
  · intro before e s' hs h
    rcases carries_trans (keyed p now before) (slotsConsistent p now before) h client backend with
      hkeeps | ⟨_, hstep⟩
    · exact hs.of_steps (Channel.steps_of_keeps hkeeps)
    · exact hs.of_step hstep

/-- While a backend runs, what is received for it is handed on, all of it, each
datagram once and in order. -/
theorem none_lost_while_running (p : Proxy) (now : Instant) (before after : List Event)
    (client backend : SocketAddr)
    (hrun : ∀ part, part <+: after → (p.run now (before ++ part)).Running backend) :
    ∃ fresh : List Datagram,
      receivedFor client backend (p.run now (before ++ after)).log =
        receivedFor client backend (p.run now before).log ++ fresh ∧
      handedOn client backend (p.run now (before ++ after)).log =
        handedOn client backend (p.run now before).log ++ fresh := by
  have hkeeps : ReflTransGen Channel.Keeps ((p.run now before).upstream client backend)
      ((p.run now (before ++ after)).upstream client backend) := by
    induction after using List.reverseRecOn with
    | nil =>
      rw [List.append_nil]
    | append_singleton after e ih =>
      have hearlier := ih fun part hp => hrun part (hp.trans (List.prefix_append _ _))
      have hnow := hrun after (List.prefix_append _ _)
      have hlast : p.run now (before ++ (after ++ [e])) = p.step (p.run now (before ++ after)) e := by
        rw [← List.append_assoc]
        exact Lib.Machine.run_snoc _ _ _ e
      have hstep := carries_trans (keyed p now (before ++ after))
        (slotsConsistent p now (before ++ after)) (step_trans p _ e) client backend
      rw [hlast]
      exact hearlier.trans (hstep.resolve_right fun hlost => hlost.1 hnow)
  obtain ⟨fresh, hsent, hout⟩ := Channel.balance_of_keeps hkeeps
  have hstart : (p.run now before).Running backend := by
    simpa using hrun [] (List.nil_prefix)
  have hend := hrun after List.prefix_rfl
  refine ⟨fresh, hsent, ?_⟩
  simpa [State.upstream, heldFor_of_running p now _ hstart, heldFor_of_running p now _ hend]
    using hout

def Lifecycle.isRunning : Lifecycle → Bool
  | running _ => true
  | _ => false

theorem State.running_iff {s : State} {backend : SocketAddr} :
    s.Running backend ↔ s.backends[backend]?.any (·.lifecycle.isRunning) = true := by
  constructor
  · intro h
    obtain ⟨managed, hslot, boot, hlife⟩ := h
    rw [hslot, Option.any_some, hlife]
    rfl
  · intro h
    rw [Option.any_eq_true] at h
    obtain ⟨managed, hslot, hrun⟩ := h
    refine ⟨managed, hslot, ?_⟩
    cases hlife : managed.lifecycle with
    | running boot => exact ⟨boot, hlife⟩
    | sleeping =>
      rw [hlife] at hrun
      cases hrun
    | waking boot task =>
      rw [hlife] at hrun
      cases hrun

/-- The client that woke the backend sends on, another client in between. -/
def trafficRun : List Event :=
  [.datagram (.localhost 40000) testInitial ⟨0, true, true⟩,
    .datagram (.localhost 40001) testInitial ⟨0, true, true⟩,
    .datagram (.localhost 40000) testInitial ⟨0, true, false⟩]

theorem none_lost_after_waking :
    ∃ fresh : List Datagram, fresh.length = 2 ∧
      handedOn (.localhost 40000) Config.default.backend
        ((⟨.default, Sni.Rfc9001.crypto⟩ : Proxy).run 0
          (wakeRun 1 (.localhost 40000) testInitial Config.default.backend ++ trafficRun)).log =
        testInitial :: fresh := by
  have hrun : ∀ n ≤ 3, ((⟨.default, Sni.Rfc9001.crypto⟩ : Proxy).run 0
      (wakeRun 1 (.localhost 40000) testInitial Config.default.backend ++
        trafficRun.take n)).backends[Config.default.backend]?.any (·.lifecycle.isRunning) = true := by
    decide +kernel
  obtain ⟨fresh, hreceived, hhanded⟩ := none_lost_while_running ⟨.default, Sni.Rfc9001.crypto⟩ 0
    (wakeRun 1 (.localhost 40000) testInitial Config.default.backend) trafficRun
    (.localhost 40000) Config.default.backend (by
      intro part hpart
      rw [State.running_iff, List.prefix_iff_eq_take.mp hpart]
      exact hrun _ hpart.length_le)
  have hlengths : (receivedFor (.localhost 40000) Config.default.backend
      ((⟨.default, Sni.Rfc9001.crypto⟩ : Proxy).run 0
        (wakeRun 1 (.localhost 40000) testInitial Config.default.backend ++ trafficRun)).log).length =
        (receivedFor (.localhost 40000) Config.default.backend
          ((⟨.default, Sni.Rfc9001.crypto⟩ : Proxy).run 0
            (wakeRun 1 (.localhost 40000) testInitial Config.default.backend)).log).length + 2 := by
    decide +kernel
  have hfirst : handedOn (.localhost 40000) Config.default.backend
      ((⟨.default, Sni.Rfc9001.crypto⟩ : Proxy).run 0
        (wakeRun 1 (.localhost 40000) testInitial Config.default.backend)).log =
        [testInitial] := by
    decide +kernel
  refine ⟨fresh, ?_, ?_⟩
  · rw [hreceived, List.length_append] at hlengths
    omega
  · rw [hhanded, hfirst]
    rfl

namespace Relay

open Sleepytale.Lib.Machine

/-- The way of what reaches an upstream socket back to its client. -/
def downstream (relay : Relay) (socket : SocketId) : Channel Arrival where
  sent := relay.arrivedAt socket
  waiting := relay.pending socket
  delivered := relay.repliedFrom socket

/-- A socket's return path replies in order of arrival, and while it lives it
has replied to everything that arrived but what is pending. -/
structure Fifo (relay : Relay) : Prop where
  bound : ∀ entry ∈ relay.arrivals, entry.1 < relay.sockets.length
  lossless : ∀ (k : SocketId) (task : ReturnPath), relay.tasks[k]? = some task →
    task.status.Alive → (relay.downstream k).Lossless
  in_order : ∀ k : SocketId, relay.repliedFrom k <+: relay.arrivedAt k

theorem fifo_new (timeout : Duration) : (Relay.new timeout).Fifo := by
  refine ⟨by simp [Relay.new], by simp [Relay.new], fun k => ?_⟩
  exact List.prefix_rfl

/-- Steps that touch neither arrivals nor replies and take nothing from the hand
of a living task. -/
theorem Fifo.of_pending {relay relay' : Relay} (hf : relay.Fifo)
    (ha : relay'.arrivals = relay.arrivals) (hr : relay'.replies = relay.replies)
    (hlen : relay.sockets.length ≤ relay'.sockets.length)
    (hp : ∀ (k : SocketId) (task' : ReturnPath), relay'.tasks[k]? = some task' →
      task'.status.Alive →
      (∃ task : ReturnPath, relay.tasks[k]? = some task ∧ task.status.Alive) ∧
        relay'.pending k = relay.pending k ∨
      relay.sockets.length ≤ k ∧ relay'.pending k = []) : relay'.Fifo := by
  have hreplied : ∀ k, relay'.repliedFrom k = relay.repliedFrom k := fun k => by
    rw [repliedFrom, hr, repliedFrom]
  have harrived : ∀ k, relay'.arrivedAt k = relay.arrivedAt k := fun k => by
    rw [arrivedAt, ha, arrivedAt]
  refine ⟨?_, ?_, ?_⟩
  · intro entry hm
    rw [ha] at hm
    exact Nat.lt_of_lt_of_le (hf.bound entry hm) hlen
  · intro k task' ht' halive
    rw [Channel.Lossless, downstream, harrived, hreplied]
    rcases hp k task' ht' halive with ⟨⟨task, ht, hlive⟩, hsame⟩ | ⟨hk, hnone⟩
    · rw [hsame]
      exact hf.lossless k task ht hlive
    · -- A socket that was just bound: nothing has arrived there, so nothing was replied.
      have harr : relay.arrivedAt k = [] := by
        rw [arrivedAt, List.map_eq_nil_iff, List.filter_eq_nil_iff]
        intro entry hm
        rw [decide_eq_true_eq]
        intro he
        exact Nat.not_lt.mpr hk (he ▸ hf.bound entry hm)
      have hrep := hf.in_order k
      rw [harr, List.prefix_nil] at hrep
      rw [hnone, harr, hrep]
      rfl
  · intro k
    rw [hreplied, harrived]
    exact hf.in_order k

theorem Fifo.arrive {relay : Relay} (hf : relay.Fifo) (socket : SocketId) (source : SocketAddr)
    (datagram : Datagram) : (relay.arrive socket source datagram).Fifo := by
  by_cases hs : socket < relay.sockets.length
  · have harrived : ∀ k, (relay.arrive socket source datagram).arrivedAt k =
        relay.arrivedAt k ++
          if socket = k then [⟨relay.arrivals.length, source, datagram⟩] else [] := by
      intro k
      simp only [arrivedAt, Relay.arrive, if_pos hs, List.filter_append, List.map_append]
      by_cases hk : socket = k <;> simp [hk]
    have hreplied : ∀ k, (relay.arrive socket source datagram).repliedFrom k =
        relay.repliedFrom k := by
      intro k
      simp only [repliedFrom, Relay.arrive, if_pos hs]
    refine ⟨?_, ?_, ?_⟩
    · intro entry hm
      simp only [Relay.arrive, if_pos hs, List.mem_append, List.mem_singleton,
        List.length_modify] at hm ⊢
      rcases hm with hm | rfl
      · exact hf.bound entry hm
      · exact hs
    · intro k task ht halive
      have hbefore : relay.tasks[k]? = some task := by
        simpa only [Relay.arrive, if_pos hs] using ht
      rw [Channel.Lossless, downstream, harrived, hreplied, pending_arrive _ _ _ _ hs,
        ← List.append_assoc]
      exact congrArg (· ++ _) (hf.lossless k task hbefore halive)
    · intro k
      rw [hreplied, harrived]
      exact (hf.in_order k).trans (List.prefix_append _ _)
  · rw [Relay.arrive, if_neg hs]
    exact hf

theorem Fifo.reply {relay : Relay} (hw : relay.WF) (hf : relay.Fifo) (id : TaskId) (ok : Bool) :
    (relay.reply id ok).Fifo := by
  rcases reply_cases relay id ok with h | ⟨client, socket, arrival, ht, h⟩
  · rw [h]
    exact hf
  · obtain rfl : socket = id := hw.reads_own id _ ht
    have harrived : ∀ k, (relay.reply socket ok).arrivedAt k = relay.arrivedAt k := by
      intro k
      rw [h]
      rfl
    have hreplied : ∀ k, (relay.reply socket ok).repliedFrom k =
        relay.repliedFrom k ++ if socket = k then [arrival] else [] := by
      intro k
      simp only [repliedFrom, h, List.filter_append, List.map_append]
      by_cases hk : socket = k <;> simp [hk]
    refine ⟨?_, ?_, ?_⟩
    · intro entry hm
      rw [h] at hm ⊢
      exact hf.bound entry hm
    · intro k task ht' halive
      have hframe := (pathFrame_reply relay socket ok).tasks k task ht'
      obtain ⟨old, hold, _, _, hlive, _⟩ := hframe
      have hbefore := hf.lossless k old hold (hlive halive)
      rw [Channel.Lossless, downstream, pending_reply ht ok k, ← List.append_assoc] at hbefore
      rw [Channel.Lossless, downstream, harrived, hreplied]
      exact hbefore
    · intro k
      rw [harrived, hreplied]
      by_cases hk : socket = k
      · -- What is in the hand of a living task comes next after what it has replied.
        subst hk
        have hbefore : relay.arrivedAt socket =
            relay.repliedFrom socket ++ relay.pending socket := hf.lossless socket _ ht trivial
        rw [if_pos rfl, hbefore, pending_reply ht ok socket, if_pos rfl, ← List.append_assoc]
        exact List.prefix_append _ _
      · rw [if_neg hk, List.append_nil]
        exact hf.in_order k

theorem fifo_step {relay : Relay} (hw : relay.WF) (hf : relay.Fifo) (act : RelayAct) :
    (relay.step act).Fifo := by
  have hretain : ∀ keep : SocketAddr → Session → Bool, (relay.retain keep).Fifo := by
    intro keep
    refine hf.of_pending rfl rfl (Nat.le_refl _) fun k task' ht' halive => ?_
    obtain ⟨task, ht, ⟨_, rfl⟩ | ⟨_, rfl⟩⟩ := tasks_retain ht'
    · exact (abort_alive halive).elim
    · refine Or.inl ⟨⟨task', ht, halive⟩, ?_⟩
      have hhand : (relay.retain keep).inHand k = relay.inHand k := by
        rw [inHand, ht', inHand, ht]
      rw [pending, hhand]
      rfl
  cases act with
  | forward now env client backend datagram =>
    rcases forward_cases relay now env client backend datagram with
      ⟨session, _, _, _, h⟩ | ⟨_, _, _, _, h⟩ | ⟨_, _, _, _, h⟩
    all_goals simp only [step, h]
    · exact hf.of_pending rfl rfl (Nat.le_refl _) fun k task ht ha => Or.inl ⟨⟨task, ht, ha⟩, rfl⟩
    · refine hf.of_pending rfl rfl (by simp [openSession]) fun k task ht ha => ?_
      rw [pending_openSession hw]
      rcases Lists.getElem?_concat_some ht with ht | ⟨hk, _⟩
      · exact Or.inl ⟨⟨task, ht, ha⟩, rfl⟩
      · have hlen := hw.lengths
        refine Or.inr ⟨by rw [hk, hlen], ?_⟩
        have hnotask : relay.tasks[k]? = none := List.getElem?_eq_none (by rw [hk])
        have hnosocket : relay.sockets[k]? = none := List.getElem?_eq_none (by rw [hk, hlen])
        rw [pending, inHand, hnotask, queued, hnosocket]
        rfl
    · exact hf
  | reap now => exact hretain _
  | drop backend => exact hretain _
  | clear => exact hretain _
  | path act =>
    cases act with
    | arrive socket source datagram => exact hf.arrive socket source datagram
    | receive id ok =>
      have hframe := pathFrame_receive relay id ok
      refine hf.of_pending ?_ ?_ (Nat.le_of_eq hframe.sockets_length.symm) fun k task ht ha => ?_
      · rcases receive_cases relay id ok with h | ⟨_, _, _, _, h⟩ | ⟨_, _, _, _, _, _, _, _, _, h⟩ <;>
          simp only [step, path, h, setStatus]
      · rcases receive_cases relay id ok with h | ⟨_, _, _, _, h⟩ | ⟨_, _, _, _, _, _, _, _, _, h⟩ <;>
          simp only [step, path, h, setStatus]
      · obtain ⟨old, hold, _, _, hlive, _⟩ := hframe.tasks k task ht
        exact Or.inl ⟨⟨old, hold, hlive ha⟩, pending_receive hw id ok k⟩
    | reply id ok => exact hf.reply hw id ok

theorem fifo_run (timeout : Duration) (acts : List RelayAct) :
    (run Relay.step (Relay.new timeout) acts).Fifo :=
  (run_invariant (fun relay : Relay => relay.WF ∧ relay.Fifo)
    (fun _ act h => ⟨wf_step h.1 act, fifo_step h.1 h.2 act⟩)
    ⟨wf_new timeout, fifo_new timeout⟩ acts).2

end Relay

/-- In every run the replies sent from a socket are, in order, the first
datagrams that arrived there; and a session whose return path lives has replied
to everything that arrived but what its task holds or its socket queues. -/
theorem replies_in_order (p : Proxy) (now : Instant) (events : List Event) :
    (∀ k : SocketId, (p.run now events).relay.repliedFrom k <+:
      (p.run now events).relay.arrivedAt k) ∧
    ∀ (client : SocketAddr) (session : Session),
      (p.run now events).relay.sessions[client]? = some session →
      (p.run now events).relay.Pumping client session →
      (p.run now events).relay.arrivedAt session.upstream =
        (p.run now events).relay.repliedFrom session.upstream ++
          (p.run now events).relay.pending session.upstream := by
  obtain ⟨acts, hrelay⟩ := relay_run p now events
  have hf := Relay.fifo_run p.config.sessionTimeout acts
  have hw := relay_wf p now events
  rw [← hrelay] at hf
  refine ⟨hf.in_order, fun client session hs hp => ?_⟩
  obtain ⟨task, ht, _, _, halive⟩ := hp
  rw [(hw.session_path client session hs).1] at ht
  exact hf.lossless session.upstream task ht halive

/-- Three datagrams reach the socket of the client that woke the backend; one is
passed on and the next is in the return path's hand. -/
def answerRun : List Event :=
  wakeRun 1 (.localhost 40000) testInitial Config.default.backend ++
    [.path (.arrive 0 Config.default.backend testInitial),
      .path (.arrive 0 Config.default.backend testInitial), .path (.receive 0 true),
      .path (.reply 0 true), .path (.arrive 0 Config.default.backend testInitial),
      .path (.receive 0 true)]

def answerRelay : Relay := ((⟨.default, Sni.Rfc9001.crypto⟩ : Proxy).run 0 answerRun).relay

theorem replies_in_order_answerRun :
    answerRelay.arrivedAt 0 = answerRelay.repliedFrom 0 ++ answerRelay.pending 0 ∧
      (answerRelay.repliedFrom 0).length = 1 ∧ (answerRelay.pending 0).length = 2 := by
  have hsession : answerRelay.sessions[SocketAddr.localhost 40000]? =
      some ⟨0, Config.default.backend, 0, 0⟩ := by decide +kernel
  have hpumping : answerRelay.Pumping (.localhost 40000) ⟨0, Config.default.backend, 0, 0⟩ :=
    ⟨⟨.localhost 40000, 0, .sending ⟨1, Config.default.backend, testInitial⟩⟩, by decide +kernel,
      rfl, rfl, trivial⟩
  have hall := (replies_in_order ⟨.default, Sni.Rfc9001.crypto⟩ 0 answerRun).2 _ _ hsession hpumping
  exact ⟨hall, by decide +kernel, by decide +kernel⟩

end Sleepytale
