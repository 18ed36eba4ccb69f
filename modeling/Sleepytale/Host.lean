import Sleepytale.Lib.Service
import Sleepytale.Lifecycle

/-!
# The proxy hosts sleeping services

The state of the proxy is read as a world of services that sleep until somebody
comes: slots are services, held Initials are clients in a waiting room, sessions
say where a client is. `Effect.sights` says what an entry of the log shows of
that world. Every transition of the proxy then follows the specification, so
every run is one of its paths and whatever holds of those holds of the proxy.
-/

namespace Sleepytale

open Sleepytale.Net
open Sleepytale.Lib.Maps
open Sleepytale.Lib.Refinement
open Sleepytale.Lib.Service (World Sight Act)
open Std (ExtTreeMap)

def ManagedBackend.service (managed : ManagedBackend) : Lib.Service.Stage SocketAddr :=
  match managed.lifecycle with
  | .sleeping => .asleep
  | .waking _ _ => .waking managed.held.keys.toFinset
  | .running _ => .awake

def Phase.isOpen : Phase → Bool
  | serving => true
  | ticking _ => true
  | checking _ _ => true
  | draining _ => false
  | finished => false

theorem Phase.isOpen_tick (rest : List SocketAddr) : (Phase.tick rest).isOpen = true := by
  cases rest <;> rfl

theorem Phase.isOpen_drain (rest : List SocketAddr) :
    (Phase.drain rest).isOpen = false := by
  cases rest <;> rfl

theorem Phase.isOpen_of_inLoop {phase : Phase} (h : phase.InLoop) : phase.isOpen = true := by
  cases phase with
  | draining rest => cases h
  | finished => cases h
  | _ => rfl

theorem Phase.inLoop_of_isOpen {phase : Phase} (h : phase.isOpen = true) : phase.InLoop := by
  cases phase with
  | draining rest => cases h
  | finished => cases h
  | _ => trivial

/-- What one entry of the log shows of the services and their clients. -/
def Effect.sights : Effect → List (Sight SocketAddr SocketAddr)
  | received _ _ _ => []
  | rejected _ _ => []
  | spawned _ config _ client _ => [.wakes config.backend client]
  | forwarded call =>
      (if call.opened.isSome then [.enters call.client call.backend] else []) ++
        call.dest.toList.map (.delivers call.client)
  | started _ => []
  | consumed _ slot result => [if result = .ready then .opens slot else .fails slot]
  | checked _ slot answer => if answer = .exited then [.crashes slot] else []
  | idleStop _ slot _ => [.retires slot]
  | stopped _ _ => []
  | abandoned _ => []
  | dropped _ => []

namespace State

def world (s : State) : World SocketAddr SocketAddr where
  stage := fun slot => (s.backends[slot]?.map (·.service)).getD .asleep
  place := s.relay.sessionBackend
  isOpen := s.phase.isOpen

def sights (s : State) : List (Sight SocketAddr SocketAddr) := s.log.flatMap Effect.sights

/-- One transition follows the specification of an on-demand host whose waiting
rooms hold `maxHeldClients`. -/
def HostStep (s s' : State) : Prop :=
  Follows (Lib.Service.Step maxHeldClients) Act.shows world sights s s'

theorem sights_append {s s' : State} {effects : List Effect} (h : s'.log = s.log ++ effects) :
    s'.sights = s.sights ++ effects.flatMap Effect.sights := by
  rw [sights, h, List.flatMap_append]
  rfl

theorem stage_of_slot {s : State} {slot : SocketAddr} {managed : ManagedBackend}
    (h : s.backends[slot]? = some managed) : s.world.stage slot = managed.service := by
  simp [world, h]

/-- The world after a change of one slot. -/
theorem world_insert {s s' : State} {slot : SocketAddr} {managed : ManagedBackend}
    (hb : s'.backends = s.backends.insert slot managed)
    (hr : s'.relay.sessionBackend = s.relay.sessionBackend)
    (hp : s'.phase.isOpen = s.phase.isOpen) :
    s'.world = s.world.setStage slot managed.service := by
  have hstage : s'.world.stage = (s.world.setStage slot managed.service).stage := by
    funext k
    rw [World.stage_setStage]
    simp only [world, hb, getElem?_insert_eq]
    by_cases hk : slot = k
    · simp [hk]
    · simp [hk, Ne.symm hk]
  exact congr (congr (congrArg World.mk hstage) hr) hp

/-- A change of a slot that leaves its service as it is. -/
theorem world_insert_same {s s' : State} {slot : SocketAddr} {managed managed' : ManagedBackend}
    (hslot : s.backends[slot]? = some managed)
    (hb : s'.backends = s.backends.insert slot managed')
    (hsame : managed'.service = managed.service)
    (hr : s'.relay.sessionBackend = s.relay.sessionBackend)
    (hp : s'.phase.isOpen = s.phase.isOpen) : s'.world = s.world := by
  rw [world_insert hb hr hp, hsame, ← stage_of_slot hslot, World.setStage, Function.update_eq_self]

theorem world_congr {s s' : State} (hb : s'.backends = s.backends)
    (hr : s'.relay.sessionBackend = s.relay.sessionBackend)
    (hp : s'.phase.isOpen = s.phase.isOpen) : s'.world = s.world := by
  simp only [world, hb, hr, hp]

end State

namespace Relay

theorem sessionBackend_touch {relay : Relay} {client : SocketAddr} {session : Session}
    (h : relay.sessions[client]? = some session) (now : Instant) :
    (relay.touch client session now).sessionBackend = relay.sessionBackend := by
  funext c
  rw [sessionBackend, sessions_touch h, sessionBackend, Option.map_map]
  congr 1
  funext s
  simp only [Function.comp_apply]
  split <;> rfl

theorem sessionBackend_openSession (relay : Relay) (client backend : SocketAddr)
    (now : Instant) : (relay.openSession client backend now).sessionBackend =
      Function.update relay.sessionBackend client (some backend) := by
  funext c
  rw [sessionBackend, sessions_openSession, Function.update_apply]
  by_cases hc : client = c
  · simp [hc]
  · simp [hc, Ne.symm hc, sessionBackend]

theorem sessionBackend_retain {relay : Relay} {keep : SocketAddr → Session → Bool}
    {client : SocketAddr} {session : Session} (h : relay.sessions[client]? = some session) :
    (relay.retain keep).sessionBackend client =
      if keep client session then some session.backend else none := by
  rw [sessionBackend, sessions_retain, h]
  cases hk : keep client session <;> simp [Option.filter, hk]

theorem sessionBackend_retain_none {relay : Relay} {keep : SocketAddr → Session → Bool}
    {client : SocketAddr} (h : relay.sessions[client]? = none) :
    (relay.retain keep).sessionBackend client = none := by
  rw [sessionBackend, sessions_retain, h]
  rfl

end Relay

namespace State

variable {s s' : State}

theorem hostStep_of_same (hworld : s'.world = s.world) {effects : List Effect}
    (hlog : s'.log = s.log ++ effects) (hquiet : effects.flatMap Effect.sights = []) :
    s.HostStep s' := by
  refine .of_eq hworld ?_
  rw [sights_append hlog, hquiet, List.append_nil]

/-- A step of the world that leaves no entry in the log. -/
theorem hostStep_of_unseen {act : Act SocketAddr SocketAddr}
    (hstep : Lib.Service.Step maxHeldClients s.world act s'.world) (hlog : s'.log = s.log)
    (hshows : act.shows = []) : s.HostStep s' := by
  refine .of_step hstep ?_
  rw [hshows, List.append_nil, sights, sights, hlog]

theorem hostStep_of_step (act : Act SocketAddr SocketAddr)
    (hstep : Lib.Service.Step maxHeldClients s.world act s'.world) {effects : List Effect}
    (hlog : s'.log = s.log ++ effects) (hshows : effects.flatMap Effect.sights = act.shows) :
    s.HostStep s' := by
  refine .of_step hstep ?_
  rw [sights_append hlog, hshows]

/-- One slot changes, and with it only the stage of its service. -/
theorem hostStep_of_slot (act : Act SocketAddr SocketAddr) {slot : SocketAddr}
    {managed : ManagedBackend} {stage : Lib.Service.Stage SocketAddr}
    (hb : s'.backends = s.backends.insert slot managed) (hstage : managed.service = stage)
    (hr : s'.relay.sessionBackend = s.relay.sessionBackend)
    (hp : s'.phase.isOpen = s.phase.isOpen)
    (hstep : Lib.Service.Step maxHeldClients s.world act (s.world.setStage slot stage))
    {effects : List Effect} (hlog : s'.log = s.log ++ effects)
    (hshows : effects.flatMap Effect.sights = act.shows) : s.HostStep s' := by
  refine hostStep_of_step act ?_ hlog hshows
  rw [world_insert hb hr hp, hstage]
  exact hstep

/-- A call of `forward_to_backend` for a running backend: the client enters if it
is nowhere, and what is delivered is delivered where it is. -/
theorem hostStep_forward {s : State} (hopen : s.phase.isOpen = true) (origin : Origin)
    (client : SocketAddr) {backend : SocketAddr} (hstage : s.world.stage backend = .awake)
    (datagram : Datagram) (env : Relay.ForwardEnv) :
    s.HostStep (s.forward origin client backend datagram env) := by
  have hworld : ∀ place : SocketAddr → Option SocketAddr,
      (s.relay.forwardToBackend (s.now + env.lap) env client backend
        datagram).relay.sessionBackend = place →
      (s.forward origin client backend datagram env).world = { s.world with place := place } := by
    rintro place rfl
    rfl
  have hsights := sights_append (s.forward_log origin client backend datagram env)
  rw [List.flatMap_singleton] at hsights
  rcases s.relay.forward_cases (s.now + env.lap) env client backend datagram with
    ⟨session, result, hs, _, h⟩ | ⟨result, hs, _, _, h⟩ | ⟨result, _, _, _, h⟩
  · have hplace := Relay.sessionBackend_touch hs (s.now + env.lap)
    have hthere : s.world.place client = some session.backend := by
      simp [world, Relay.sessionBackend, hs]
    refine ⟨[.sight (.delivers client session.backend)], ?_, ?_⟩
    · rw [hworld s.relay.sessionBackend (by rw [h, hplace])]
      exact .cons (.delivers hopen hthere) (.nil _)
    · rw [hsights, forwardCall, h]
      rfl
  · have hplace := Relay.sessionBackend_openSession s.relay client backend (s.now + env.lap)
    have hnowhere : s.world.place client = none := by simp [world, Relay.sessionBackend, hs]
    refine ⟨[.sight (.enters client backend), .sight (.delivers client backend)], ?_, ?_⟩
    · rw [hworld _ (by rw [h, hplace])]
      refine .cons (.enters hopen hstage hnowhere) (.cons (.delivers hopen ?_) (.nil _))
      rw [World.place_setPlace, if_pos rfl]
    · rw [hsights, forwardCall, h]
      rfl
  · refine .of_eq (hworld s.relay.sessionBackend (by rw [h])) ?_
    rw [hsights, forwardCall, h]
    simp [Effect.sights]

theorem hostStep_deliverHeld {s : State} (hopen : s.phase.isOpen = true) {backend : SocketAddr}
    (hstage : s.world.stage backend = .awake) (boot : BootId)
    (held : List (SocketAddr × Datagram)) (env : SocketAddr → Relay.ForwardEnv) :
    s.HostStep (s.deliverHeld backend boot held env) := by
  refine (deliverHeld_invariant (fun t => s.HostStep t ∧ t.phase.isOpen = true ∧
    t.world.stage backend = .awake) backend boot held env ?_
    ⟨.of_eq rfl rfl, hopen, hstage⟩).1
  rintro t client datagram _ ⟨ht, hphase, hawake⟩
  exact ⟨ht.trans (hostStep_forward hphase _ client hawake datagram _), hphase, hawake⟩

end State

namespace ManagedBackend

variable {managed : ManagedBackend}

theorem service_sleeping (h : managed.lifecycle = .sleeping) : managed.service = .asleep := by
  rw [service, h]

theorem service_waking {boot : BootId} {task : Startup} (h : managed.lifecycle = .waking boot task) :
    managed.service = .waking managed.held.keys.toFinset := by
  rw [service, h]

theorem service_running {boot : BootId} (h : managed.lifecycle = .running boot) :
    managed.service = .awake := by
  rw [service, h]

/-- `hold` keeps the Initial of a client that is in the waiting room or finds
room in it, and refuses any other. -/
theorem room_hold (managed : ManagedBackend) (client : SocketAddr) (datagram : Datagram) :
    ((client ∈ managed.held.keys.toFinset ∨
        managed.held.keys.toFinset.card < maxHeldClients) ∧
      (managed.hold client datagram).1.held.keys.toFinset =
        insert client managed.held.keys.toFinset) ∨
    (managed.hold client datagram).1 = managed := by
  have hcard : managed.held.keys.toFinset.card = managed.held.size := by
    rw [List.toFinset_card_of_nodup ExtTreeMap.nodup_keys, ExtTreeMap.length_keys]
  have hmem : client ∈ managed.held.keys.toFinset ↔ client ∈ managed.held := by
    rw [List.mem_toFinset, ExtTreeMap.mem_keys]
  unfold hold
  split
  · exact Or.inr rfl
  · next hput =>
    refine Or.inl ⟨?_, ?_⟩
    · rw [hmem, hcard]
      by_contra hout
      exact hput ⟨fun hin => hout (Or.inl hin), Nat.le_of_not_lt fun hlt => hout (Or.inr hlt)⟩
    · ext c
      rw [List.mem_toFinset, ExtTreeMap.mem_keys, ExtTreeMap.mem_insert, Finset.mem_insert,
        List.mem_toFinset, ExtTreeMap.mem_keys, Std.compare_eq_iff_eq, eq_comm]

/-- The first Initial of a slot that held none is alone in the room. -/
theorem room_hold_first (managed : ManagedBackend) (hempty : managed.held = ∅) (client : SocketAddr) (datagram : Datagram) :
    (managed.hold client datagram).1.held.keys.toFinset = {client} := by
  rcases managed.room_hold client datagram with ⟨_, hroom⟩ | hrefused
  · have hnone : managed.held.keys = [] := ExtTreeMap.keys_eq_nil_iff.mpr hempty
    rw [hroom, hnone]
    rfl
  · exact (managed.hold_ne_empty client datagram (by rw [hrefused, hempty])).elim

end ManagedBackend

namespace State

/-- `hold` in a slot that wakes: the client joins those in the waiting room, or
nothing changes. -/
theorem hostStep_hold {s : State} {slot client : SocketAddr} {datagram : Datagram}
    {managed : ManagedBackend} {boot : BootId} {task : Startup} {effects : List Effect}
    (hopen : s.phase.isOpen = true) (hslot : s.backends[slot]? = some managed)
    (hlife : managed.lifecycle = .waking boot task)
    (hquiet : effects.flatMap Effect.sights = []) :
    s.HostStep { s with
      backends := s.backends.insert slot (managed.hold client datagram).1
      log := s.log ++ effects } := by
  have hstage : s.world.stage slot = .waking managed.held.keys.toFinset :=
    (stage_of_slot hslot).trans (ManagedBackend.service_waking hlife)
  rcases managed.room_hold client datagram with ⟨hkeep, hroom⟩ | hrefused
  · refine hostStep_of_slot (.joins client slot) rfl ?_ rfl rfl
      (.joins hopen hstage hkeep) rfl hquiet
    rw [← hroom]
    exact ManagedBackend.service_waking (by rw [ManagedBackend.hold_lifecycle, hlife])
  · exact hostStep_of_same (world_insert_same hslot rfl (by rw [hrefused]) rfl rfl) rfl hquiet

/-- A finished startup is taken over: the service opens, then its held Initials
are delivered one by one. -/
theorem hostStep_ready {s : State} {slot : SocketAddr} {managed : ManagedBackend} {boot : BootId}
    {task : Startup} (hopen : s.phase.isOpen = true) (hslot : s.backends[slot]? = some managed)
    (hlife : managed.lifecycle = .waking boot task) (hkey : managed.config.backend = slot)
    (lap : Duration) (held : List (SocketAddr × Datagram)) (env : SocketAddr → Relay.ForwardEnv) :
    s.HostStep ((s.takeOver slot managed boot lap).deliverHeld managed.config.backend boot held
      env) := by
  have hstage := (stage_of_slot hslot).trans (ManagedBackend.service_waking hlife)
  have hopens : s.HostStep (s.takeOver slot managed boot lap) := by
    refine hostStep_of_slot (.sight (.opens slot)) rfl
      (ManagedBackend.service_running rfl) rfl rfl (.opens hopen hstage) rfl ?_
    simp [Effect.sights, Act.shows, hkey]
  refine hopens.trans (hostStep_deliverHeld (s := s.takeOver slot managed boot lap) hopen ?_ boot
    held env)
  rw [hkey]
  exact (stage_of_slot (s := s.takeOver slot managed boot lap)
    (by rw [takeOver, getElem?_insert_eq, if_pos rfl])).trans (ManagedBackend.service_running rfl)

/-- Everybody at an exited backend is thrown out. -/
theorem place_dropSessionsFor (s : State) (slot : SocketAddr) :
    (s.relay.dropSessionsFor slot).sessionBackend = (s.world.vacate slot).place := by
  funext client
  cases hs : s.relay.sessions[client]? with
  | none =>
    rw [Relay.dropSessionsFor, Relay.sessionBackend_retain_none hs]
    simp [World.vacate, world, Relay.sessionBackend, hs]
  | some session =>
    rw [Relay.dropSessionsFor, Relay.sessionBackend_retain hs]
    simp [World.vacate, world, Relay.sessionBackend, hs, Option.filter]

theorem hostStep_exited {s s' : State} {slot : SocketAddr} {managed managed' : ManagedBackend}
    {boot : BootId} {effects : List Effect} (hopen : s.phase.isOpen = true)
    (hslot : s.backends[slot]? = some managed) (hlife : managed.lifecycle = .running boot)
    (hb : s'.backends = s.backends.insert slot managed') (hlife' : managed'.lifecycle = .sleeping)
    (hr : s'.relay = s.relay.dropSessionsFor slot) (hp : s'.phase.isOpen = true)
    (hlog : s'.log = s.log ++ effects)
    (hshows : effects.flatMap Effect.sights = [.crashes slot]) : s.HostStep s' := by
  refine hostStep_of_step (.sight (.crashes slot)) ?_ hlog hshows
  have hstage := world_insert (s := { s with relay := s'.relay }) hb rfl (hp.trans hopen.symm)
  have hplace : s'.relay.sessionBackend = (s.world.vacate slot).place := by
    rw [hr, place_dropSessionsFor]
  have hvacate : ({ s with relay := s'.relay } : State).world = s.world.vacate slot :=
    congrArg (World.mk _ · _) hplace
  rw [hstage, hvacate, ManagedBackend.service_sleeping hlife']
  exact .crashes hopen ((stage_of_slot hslot).trans (ManagedBackend.service_running hlife))

end State

/-- Every transition from a state of a run follows the specification. -/
theorem Trans.hostStep {p : Proxy} {s s' : State} {e : Event} (hk : s.Keyed)
    (hc : s.SlotsConsistent) (h : Trans p s e s') : s.HostStep s' := by
  have hquiet : s'.log = s.log → s'.world = s.world → s.HostStep s' := by
    intro hlog hworld
    refine .of_eq hworld ?_
    rw [State.sights, State.sights, hlog]
  have hserving : s.phase = .serving → s.phase.isOpen = true := fun hphase => by rw [hphase]; rfl
  have hticking : ∀ {slots : List SocketAddr}, s.phase = .ticking slots → s.phase.isOpen = true :=
    fun hphase => by rw [hphase]; rfl
  have hchecking : ∀ {slot : SocketAddr} {rest : List SocketAddr}, s.phase = .checking slot rest →
      s.phase.isOpen = true := fun hphase => by rw [hphase]; rfl
  have hdraining : ∀ {slots : List SocketAddr}, s.phase = .draining slots →
      s.phase.isOpen = false := fun hphase => by rw [hphase]; rfl
  cases h with
  | stay => exact hquiet rfl rfl
  | rejected => exact State.hostStep_of_same rfl rfl rfl
  | @relayed client datagram env managed boot hphase hslot hlife =>
    have hstage : s.world.stage (p.target s client datagram) = .awake :=
      (State.stage_of_slot hslot).trans (ManagedBackend.service_running hlife)
    have hnote : s.HostStep (s.emit (.received client datagram (p.target s client datagram))) :=
      State.hostStep_of_same rfl rfl rfl
    exact hnote.trans (State.hostStep_forward (s := s.emit _) (hserving hphase) _ client hstage
      datagram env)
  | @woke client datagram env managed hphase hslot hlife hinitial =>
    have hopen := hserving hphase
    have hempty : managed.held = ∅ :=
      (hc (Phase.inLoop_of_isOpen hopen) _ managed hslot).held_empty
        (ManagedBackend.not_waking_of_sleeping hlife)
    refine State.hostStep_of_slot (.sight (.wakes (p.target s client datagram) client)) rfl
      ?_ rfl rfl (.wakes client hopen ?_) rfl ?_
    · rw [ManagedBackend.service_waking (ManagedBackend.hold_lifecycle ..)]
      exact congrArg _ (ManagedBackend.room_hold_first
        { managed with lifecycle := .waking s.boots .starting } hempty client datagram)
    · exact (State.stage_of_slot hslot).trans (ManagedBackend.service_sleeping hlife)
    · simp [Effect.sights, Act.shows, hk _ managed hslot]
  | heldBack hphase hslot hlife hinitial =>
    exact State.hostStep_hold (hserving hphase) hslot hlife rfl
  | ignored => exact State.hostStep_of_same rfl rfl rfl
  | tickStarted hphase =>
    refine State.hostStep_of_unseen (?_ : Lib.Service.Step _ _ .leave _) rfl rfl
    have hworld : ({ s with
        relay := (s.relay.reapIdle s.now).1, phase := .tick s.backends.keys } : State).world =
          { s.world with place := (s.relay.reapIdle s.now).1.sessionBackend } :=
      congrArg (World.mk _ _ ·) ((Phase.isOpen_tick _).trans (hserving hphase).symm)
    rw [hworld]
    refine .leave fun client => ?_
    cases hs : s.relay.sessions[client]? with
    | none => exact Or.inr (Relay.sessionBackend_retain_none hs)
    | some session =>
      have hreap : (s.relay.reapIdle s.now).1.sessionBackend client = _ :=
        Relay.sessionBackend_retain hs
      rw [hreap]
      split
      · exact Or.inl (by simp [State.world, Relay.sessionBackend, hs])
      · exact Or.inr rfl
  | nothingFinished hphase =>
    exact hquiet rfl (State.world_congr rfl rfl (hticking hphase).symm)
  | ready hphase hslot hlife =>
    have hstep := State.hostStep_ready (hticking hphase) hslot hlife (hk _ _ hslot)
    refine (hstep _ _ _).trans (.of_eq (State.world_congr rfl rfl ?_) rfl)
    symm
    exact State.deliverHeld_invariant (fun t => t.phase.isOpen = true) _ _ _ _
      (fun _ _ _ _ h => h) (hticking hphase)
  | @bootFailed env slot rest managed boot result hphase hslot hlife hresult =>
    refine State.hostStep_of_slot (.sight (.fails slot)) rfl
      (ManagedBackend.service_sleeping rfl) rfl (hticking hphase).symm
      (.fails (hticking hphase)
        ((State.stage_of_slot hslot).trans (ManagedBackend.service_waking hlife))) rfl ?_
    simp [Effect.sights, Act.shows, hk _ managed hslot, hresult]
  | notRunning hphase =>
    exact hquiet rfl (State.world_congr rfl rfl
      ((Phase.isOpen_tick _).trans (hchecking hphase).symm))
  | @exited env slot rest managed boot hphase hslot hlife hexit =>
    have hkey := hk _ managed hslot
    exact State.hostStep_exited (hchecking hphase) hslot hlife rfl rfl
      (congrArg s.relay.dropSessionsFor hkey) (Phase.isOpen_tick _) rfl (by simp [Effect.sights, hkey])
  | checkFailed hphase =>
    exact State.hostStep_of_same (State.world_congr rfl rfl
      ((Phase.isOpen_tick _).trans (hchecking hphase).symm)) rfl rfl
  | busy hphase hslot hlife =>
    exact State.hostStep_of_same (State.world_insert_same hslot rfl rfl rfl
      ((Phase.isOpen_tick _).trans (hchecking hphase).symm)) rfl rfl
  | idling hphase hslot hlife =>
    exact State.hostStep_of_same (State.world_insert_same hslot rfl rfl rfl
      ((Phase.isOpen_tick _).trans (hchecking hphase).symm)) rfl rfl
  | @idleStopped env slot rest managed boot hphase hslot hlife hexit hcount hidle =>
    have hkey := hk _ managed hslot
    refine State.hostStep_of_slot (.sight (.retires slot)) rfl
      (ManagedBackend.service_sleeping rfl) rfl
      ((Phase.isOpen_tick _).trans (hchecking hphase).symm) (.retires (hchecking hphase) ?_ ?_) rfl ?_
    · exact (State.stage_of_slot hslot).trans (ManagedBackend.service_running hlife)
    · intro client hplace
      obtain ⟨session, hs, hb⟩ := Option.map_eq_some_iff.mp hplace
      exact Relay.sessionCountFor_eq_zero hcount hs (hb.trans hkey.symm)
    · simp [Effect.sights, Act.shows, hkey]
  | shutDown hphase =>
    refine State.hostStep_of_unseen (?_ : Lib.Service.Step _ _ .close _) rfl rfl
    have hworld : ({ s with
        relay := s.relay.clear, phase := .drain s.backends.keys } : State).world =
          { s.world with place := fun _ => none, isOpen := false } := by
      refine congr (congrArg (World.mk _ ·) ?_) (Phase.isOpen_drain _)
      funext client
      cases hs : s.relay.sessions[client]? with
      | none => exact Relay.sessionBackend_retain_none hs
      | some session => exact Relay.sessionBackend_retain hs
    rw [hworld]
    exact .close (hserving hphase)
  | nothingToDrain hphase =>
    exact hquiet rfl (State.world_congr rfl rfl
      ((Phase.isOpen_drain _).trans (hdraining hphase).symm))
  | drained hphase hslot hlife =>
    exact State.hostStep_of_slot (.dismiss _) rfl (ManagedBackend.service_sleeping rfl) rfl
      ((Phase.isOpen_drain _).trans (hdraining hphase).symm) (.dismiss (hdraining hphase)) rfl rfl
  | drainedFailed hphase hslot hlife =>
    exact State.hostStep_of_slot (.dismiss _) rfl (ManagedBackend.service_sleeping rfl) rfl
      ((Phase.isOpen_drain _).trans (hdraining hphase).symm) (.dismiss (hdraining hphase))
      (List.append_nil _).symm rfl
  | gaveUp hphase hslot hlife =>
    exact State.hostStep_of_slot (.dismiss _) rfl (ManagedBackend.service_sleeping rfl) rfl
      ((Phase.isOpen_drain _).trans (hdraining hphase).symm) (.dismiss (hdraining hphase)) rfl rfl
  | started hslot hlife =>
    refine State.hostStep_of_same (State.world_insert_same hslot rfl ?_ rfl rfl) rfl rfl
    simp only [ManagedBackend.service, hlife]
  | becameReady hslot hlife =>
    refine hquiet rfl (State.world_insert_same hslot rfl ?_ rfl rfl)
    simp only [ManagedBackend.service, hlife]
  | startupFailed hslot hlife =>
    refine State.hostStep_of_same (State.world_insert_same hslot rfl ?_ rfl rfl) rfl rfl
    simp only [ManagedBackend.service, hlife]
  | advanced => exact hquiet rfl rfl
  | path act =>
    refine hquiet rfl (State.world_congr rfl ?_ rfl)
    funext client
    rw [Relay.sessionBackend, Relay.sessionBackend, (Relay.pathFrame_path s.relay act).sessions]

theorem hostRun (p : Proxy) (now : Instant) (events : List Event) :
    (p.init now).HostStep (p.run now events) :=
  run_follows (fun before e =>
    (step_trans p _ e).hostStep (keyed p now before) (slotsConsistent p now before)) events

theorem world_init (p : Proxy) (now : Instant) : (p.init now).world = World.start := by
  have hstage : (p.init now).world.stage = World.start.stage := by
    funext slot
    cases hslot : p.slots[slot]? with
    | none => simp [State.world, Proxy.init, hslot, World.start]
    | some managed =>
      obtain ⟨route, _, _, rfl⟩ := slots_keyed hslot
      simp [State.world, Proxy.init, hslot, World.start, ManagedBackend.service,
        ManagedBackend.new]
  exact congrArg (World.mk · _ _) hstage

/-- Every run of the proxy is a path of the specification from the start, with
the log showing exactly what the path shows; and wherever it leads, clients are
at running backends of an open proxy only, and no waiting room is empty or
overfull. -/
theorem runs_are_host_paths (p : Proxy) (now : Instant) (events : List Event) :
    ∃ acts : List (Act SocketAddr SocketAddr),
      Path (Lib.Service.Step maxHeldClients) World.start acts (p.run now events).world ∧
      acts.flatMap Act.shows = (p.run now events).log.flatMap Effect.sights ∧
      Lib.Service.Safe maxHeldClients (p.run now events).world := by
  obtain ⟨acts, hpath, hseen⟩ := hostRun p now events
  rw [world_init] at hpath
  exact ⟨acts, hpath, hseen.symm, Lib.Service.safe_of_path (by decide) hpath⟩

/-- The monitor of on-demand services accepts the log of every run, and while the
loop runs it knows from the log alone the stage of every slot and the backend of
every session. -/
theorem log_passes_monitor (p : Proxy) (now : Instant) (events : List Event) :
    ∃ m, watch Lib.Service.next Lib.Service.Watch.start
        ((p.run now events).log.flatMap Effect.sights) = some m ∧
      ((p.run now events).phase.InLoop →
        (∀ (slot : SocketAddr) (managed : ManagedBackend),
          (p.run now events).backends[slot]? = some managed →
            m.status slot = managed.service.status) ∧
        ∀ (client : SocketAddr) (session : Session),
          (p.run now events).relay.sessions[client]? = some session →
            m.last client = some session.backend) := by
  obtain ⟨acts, hpath, hseen⟩ := hostRun p now events
  rw [world_init] at hpath
  obtain ⟨m, hm, htracks⟩ := Lib.Service.watched_of_path (by decide) hpath
  have hsights : (p.run now events).log.flatMap Effect.sights = acts.flatMap Act.shows := hseen
  refine ⟨m, by rw [hsights, hm], fun hphase => ?_⟩
  have ht := htracks (Phase.isOpen_of_inLoop hphase)
  refine ⟨fun slot managed hslot => ?_, fun client session hs => ?_⟩
  · rw [ht.status slot, State.stage_of_slot hslot]
  · exact ht.last client session.backend (by simp [State.world, Relay.sessionBackend, hs])

end Sleepytale
