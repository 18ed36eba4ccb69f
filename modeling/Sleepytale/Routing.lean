import Sleepytale.Lifecycle
import Sleepytale.RouteTable
import Sleepytale.Sni.Initial

/-!
# From a received datagram to the backend it is sent to

The slot map built from a validated configuration has one slot for each
configured backend, and the target `handle_datagram` chooses is always one of
them. What is sent upstream goes to the target chosen on receipt, except where
`deliver_held` meets a session that the client has opened elsewhere meanwhile;
and a session is opened by an Initial for its own backend, except where the
running branch of `handle_datagram` opens one for any datagram.
-/

namespace Sleepytale

open Sleepytale.Net
open Sleepytale.Lib.Lists
open Sleepytale.Lib.Maps
open Sleepytale.Lib.Machine
open Std (ExtTreeMap)

/-- The configuration of the default backend or of one of the routes. -/
def Config.Configures (config : Config) (route : BackendConfig) : Prop :=
  route = config.defaultBackend ∨ ∃ name : String, config.routes[name]? = some route

theorem Config.all_backends_nodup {config : Config} (hd : config.Distinct) :
    (config.toRoutes.all.map (·.backend)).Nodup := by
  have htable : (config.toRoutes.table.toList.map fun entry => entry.2.backend).Nodup := by
    refine List.Nodup.map_on ?_ (List.Nodup.of_map _ (nodup_toList_fst config.toRoutes.table))
    rintro ⟨key, route⟩ hr ⟨key', route'⟩ hr' he
    rw [ExtTreeMap.mem_toList_iff_getElem?_eq_some] at hr hr'
    obtain ⟨name, hname, rfl⟩ := (config.table_getElem? hd key route).mp hr
    obtain ⟨name', hname', rfl⟩ := (config.table_getElem? hd key' route').mp hr'
    have hsame : (name, route) = (name', route') :=
      List.inj_on_of_nodup_map hd.backends
        (ExtTreeMap.mem_toList_iff_getElem?_eq_some.mpr hname)
        (ExtTreeMap.mem_toList_iff_getElem?_eq_some.mpr hname') he
    obtain ⟨rfl, rfl⟩ := Prod.mk.inj hsame
    rfl
  rw [Routes.all, List.map_cons, List.map_map, List.nodup_cons]
  refine ⟨?_, htable⟩
  rw [List.mem_map]
  rintro ⟨⟨key, route⟩, hr, he⟩
  rw [ExtTreeMap.mem_toList_iff_getElem?_eq_some] at hr
  obtain ⟨name, hname, rfl⟩ := (config.table_getElem? hd key route).mp hr
  exact hd.default_apart (name, route) (ExtTreeMap.mem_toList_iff_getElem?_eq_some.mpr hname)
    he.symm

theorem slot_entries_nodup {p : Proxy} (hd : p.config.Distinct) :
    ((p.routes.all.map fun route => (route.backend, ManagedBackend.new route)).map
      Prod.fst).Nodup := by
  rw [List.map_map]
  exact p.config.all_backends_nodup hd

theorem slots_size {p : Proxy} (hd : p.config.Distinct) :
    p.slots.size = p.config.routes.size + 1 := by
  rw [Proxy.slots, size_ofList (slot_entries_nodup hd), List.length_map, Proxy.routes, Routes.all,
    List.length_cons, List.length_map, ExtTreeMap.length_toList, Config.table_size hd]

theorem slots_getElem? {p : Proxy} (hd : p.config.Distinct) (slot : SocketAddr)
    (managed : ManagedBackend) :
    p.slots[slot]? = some managed ↔
      ∃ route : BackendConfig, p.config.Configures route ∧ route.backend = slot ∧
        managed = .new route := by
  rw [Proxy.slots, getElem?_ofList (slot_entries_nodup hd), List.mem_map]
  constructor
  · rintro ⟨route, hr, he⟩
    obtain ⟨rfl, rfl⟩ := Prod.mk.inj he
    exact ⟨route, (p.config.mem_all hd route).mp hr, rfl, rfl⟩
  · rintro ⟨route, hr, rfl, rfl⟩
    exact ⟨route, (p.config.mem_all hd route).mpr hr, rfl⟩

/-- The target chosen for a datagram is a key of the slot map. -/
theorem target_is_slot (p : Proxy) (now : Instant) (events : List Event) (client : SocketAddr)
    (datagram : Datagram) :
    ((p.run now events).backends[p.target (p.run now events) client datagram]?).isSome := by
  rw [Proxy.target, Relay.sessionBackend]
  cases hs : (p.run now events).relay.sessions[client]? with
  | some session =>
    obtain ⟨_, managed, hm, _⟩ := sessionsRun p now events client session hs
    simp [hm]
  | none =>
    have hslot : (p.slots[(p.routes.resolve (p.peek datagram)).backend]?).isSome :=
      mem_slots (resolve_mem_all _)
    have hsame := slot_configs p now events (p.routes.resolve (p.peek datagram)).backend
    rw [Option.map_none, Option.getD_none, ← Option.isSome_map (f := fun m => m.config), hsame,
      Option.isSome_map]
    exact hslot

theorem handleDatagram_ok (p : Proxy) (now : Instant) (events : List Event)
    (client : SocketAddr) (datagram : Datagram) (env : Relay.ForwardEnv) :
    (p.handleDatagram (p.run now events) client datagram env).2 = .ok () := by
  obtain ⟨managed, hm⟩ :=
    Option.isSome_iff_exists.mp (target_is_slot p now events client datagram)
  simp only [Proxy.handleDatagram, State.emit, hm]
  cases managed.lifecycle with
  | running boot => rfl
  | sleeping => cases isQuicInitial datagram.bytes <;> rfl
  | waking boot task => cases isQuicInitial datagram.bytes <;> rfl

/-- A validated route table is faithful: the slots are the configured backends,
`resolve` finds the one route with the client's name, and the target of a
datagram is always a slot, so `handle_datagram` never fails. -/
theorem route_table_faithful (p : Proxy) (h : p.config.validate = .ok ()) :
    (p.slots.size = p.config.routes.size + 1 ∧
      ∀ (slot : SocketAddr) (managed : ManagedBackend), p.slots[slot]? = some managed ↔
        ∃ route : BackendConfig, p.config.Configures route ∧ route.backend = slot ∧
          managed = .new route) ∧
    (∀ serverName : Option String,
      (∀ (name : String) (route : BackendConfig), Matches p.config serverName name route →
        p.routes.resolve serverName = route ∧
          ∀ (name' : String) (route' : BackendConfig),
            Matches p.config serverName name' route' → name' = name) ∧
      ((∀ (name : String) (route : BackendConfig), ¬ Matches p.config serverName name route) →
        p.routes.resolve serverName = p.config.defaultBackend)) ∧
    (∀ (now : Instant) (events : List Event) (client : SocketAddr) (datagram : Datagram)
        (env : Relay.ForwardEnv),
      ((p.run now events).backends[p.target (p.run now events) client datagram]?).isSome ∧
      (p.handleDatagram (p.run now events) client datagram env).2 = .ok ()) := by
  have hd := Config.distinct_of_validate h
  refine ⟨⟨slots_size hd, slots_getElem? hd⟩, fun serverName => ⟨fun name route hm => ⟨?_, ?_⟩, ?_⟩,
    ?_⟩
  · exact resolve_of_matches hd hm
  · exact fun name' route' hm' => (Matches.unique hd hm' hm).1
  · exact fun hno => resolve_of_no_match hd hno
  · intro now events client datagram env
    exact ⟨target_is_slot p now events client datagram,
      handleDatagram_ok p now events client datagram env⟩

/-- The default backend, and one more for `example.com`. -/
def twoBackends : Config :=
  { Config.default with
    routes := (∅ : ExtTreeMap String BackendConfig).insert "example.com"
      { backend := .localhost 5522
        server := { ServerConfig.default with forwardStdin := false } } }

theorem route_table_faithful_twoBackends :
    (⟨twoBackends, Sni.Rfc9001.crypto⟩ : Proxy).slots.size = 2 :=
  (route_table_faithful ⟨twoBackends, Sni.Rfc9001.crypto⟩ (by decide +kernel)).1.1

/-- What is handed to `send_to` for a backend was assigned to that backend when
it was received, and what was held in a slot is sent to that slot's backend. -/
structure RoutedRight (log : List Effect) : Prop where
  assigned : ∀ (i : Nat) (call : Forward) (backend : SocketAddr),
    log[i]? = some (.forwarded call) → call.dest = some backend →
    ∃ j : Nat, j < i ∧ log[j]? = some (.received call.client call.datagram backend)
  held_own : ∀ (call : Forward) (slot : SocketAddr) (boot : BootId) (backend : SocketAddr),
    .forwarded call ∈ log → call.origin = .held slot boot → call.dest = some backend →
    backend = slot

theorem RoutedRight.append {log : List Effect} (h : RoutedRight log) {effects : List Effect}
    (hno : ∀ call : Forward, .forwarded call ∉ effects) : RoutedRight (log ++ effects) := by
  constructor
  · intro i call backend hi hdest
    rw [List.getElem?_append] at hi
    split at hi
    · obtain ⟨j, hj, hlog⟩ := h.assigned i call backend hi hdest
      exact ⟨j, hj, getElem?_append_of_some hlog effects⟩
    · exact (hno call (List.mem_of_getElem? hi)).elim
  · intro call slot boot backend hmem
    rcases List.mem_append.mp hmem with hmem | hmem
    · exact h.held_own call slot boot backend hmem
    · exact (hno call hmem).elim

theorem RoutedRight.snoc {log : List Effect} (h : RoutedRight log) {call : Forward}
    (hgot : ∀ backend, call.dest = some backend →
      .received call.client call.datagram backend ∈ log)
    (hown : ∀ slot boot backend, call.origin = .held slot boot → call.dest = some backend →
      backend = slot) : RoutedRight (log ++ [.forwarded call]) := by
  constructor
  · intro i call' backend hi hdest
    rcases getElem?_concat_some hi with hi | ⟨rfl, he⟩
    · obtain ⟨j, hj, hlog⟩ := h.assigned i call' backend hi hdest
      exact ⟨j, hj, getElem?_append_of_some hlog _⟩
    · obtain rfl := Effect.forwarded.inj he
      obtain ⟨j, hj, hlog⟩ := List.mem_iff_getElem.mp (hgot backend hdest)
      exact ⟨j, hj, getElem?_append_of_some (List.getElem?_eq_some_iff.mpr ⟨hj, hlog⟩) _⟩
  · intro call' slot boot backend hmem horigin hdest
    rcases List.mem_append.mp hmem with hmem | hmem
    · exact h.held_own call' slot boot backend hmem horigin hdest
    · obtain rfl := Effect.forwarded.inj (List.mem_singleton.mp hmem)
      exact hown slot boot backend horigin hdest

/-- A tick takes over a finished startup only while no client held in its slot
has a session. -/
def NoHeldSession (s : State) : Event → Prop
  | .finishSlot _ => ∀ (slot : SocketAddr) (rest : List SocketAddr) (managed : ManagedBackend)
      (boot : BootId), s.phase = .ticking (slot :: rest) → s.backends[slot]? = some managed →
      managed.lifecycle = .waking boot (.finished .ready) →
      ∀ client ∈ managed.held, s.relay.sessions[client]? = none
  | _ => True

/-- Every held Initial is one: it was received for the slot that holds it, and
its own server name, not a session, assigned it there. -/
def State.HeldRouted (p : Proxy) (s : State) : Prop :=
  ∀ (slot : SocketAddr) (managed : ManagedBackend) (client : SocketAddr) (datagram : Datagram),
    s.backends[slot]? = some managed → managed.held[client]? = some datagram →
    .received client datagram slot ∈ s.log ∧ isQuicInitial datagram.bytes = true ∧
      (p.routes.resolve (p.peek datagram)).backend = slot

/-- A client whose target does not run has no session. -/
theorem State.SessionsRun.no_session {p : Proxy} {s : State} (hs : s.SessionsRun)
    {client : SocketAddr} {datagram : Datagram} {managed : ManagedBackend}
    (hslot : s.backends[p.target s client datagram]? = some managed)
    (hnot : ¬ managed.Running) :
    s.relay.sessions[client]? = none ∧
      p.target s client datagram = (p.routes.resolve (p.peek datagram)).backend := by
  cases hc : s.relay.sessions[client]? with
  | none => exact ⟨rfl, by simp [Proxy.target, Relay.sessionBackend, hc]⟩
  | some session =>
    obtain ⟨_, m, hm, hrun⟩ := hs client session hc
    have htarget : p.target s client datagram = session.backend := by
      simp [Proxy.target, Relay.sessionBackend, hc]
    rw [htarget, hm, Option.some.injEq] at hslot
    rw [hslot] at hrun
    exact (hnot hrun).elim

theorem heldRouted_trans {p : Proxy} {s s' : State} {e : Event} (hs : s.SessionsRun)
    (hr : s.HeldRouted p) (h : Trans p s e s') : s'.HeldRouted p := by
  have hlog : ∀ {effect : Effect}, effect ∈ s.log → effect ∈ s'.log := fun hm => h.mem_log hm
  have hsame : s'.backends = s.backends → s'.HeldRouted p := by
    intro hb slot managed client datagram hslot hheld
    rw [hb] at hslot
    obtain ⟨hrec, hrest⟩ := hr slot managed client datagram hslot hheld
    exact ⟨hlog hrec, hrest⟩
  have hinsert : ∀ {changed : SocketAddr} {managed managed' : ManagedBackend},
      s.backends[changed]? = some managed → s'.backends = s.backends.insert changed managed' →
      (∀ (client : SocketAddr) (datagram : Datagram), managed'.held[client]? = some datagram →
        managed.held[client]? = some datagram ∨
          .received client datagram changed ∈ s'.log ∧ isQuicInitial datagram.bytes = true ∧
            (p.routes.resolve (p.peek datagram)).backend = changed) → s'.HeldRouted p := by
    intro changed managed managed' hslot hb hheld slot m client datagram hm hd
    rw [hb] at hm
    rcases getElem?_insert_cases hm with ⟨rfl, rfl⟩ | ⟨_, hm⟩
    · rcases hheld client datagram hd with hold | hnew
      · obtain ⟨hrec, hrest⟩ := hr slot managed client datagram hslot hold
        exact ⟨hlog hrec, hrest⟩
      · exact hnew
    · obtain ⟨hrec, hrest⟩ := hr slot m client datagram hm hd
      exact ⟨hlog hrec, hrest⟩
  -- The slot that `handle_datagram` chose may hold one Initial more, the one it was chosen for.
  have hput : ∀ {client : SocketAddr} {datagram : Datagram} {managed managed' : ManagedBackend},
      s.backends[p.target s client datagram]? = some managed → ¬ managed.Running →
      s'.backends = s.backends.insert (p.target s client datagram)
        (managed'.hold client datagram).1 → managed'.held = managed.held →
      .received client datagram (p.target s client datagram) ∈ s'.log →
      isQuicInitial datagram.bytes = true → s'.HeldRouted p := by
    intro client datagram managed managed' hslot hnot hb hheld hrec hinitial
    obtain ⟨_, htarget⟩ := hs.no_session hslot hnot
    refine hinsert hslot hb fun c d hd => ?_
    rcases ManagedBackend.hold_held hd with hold | ⟨rfl, rfl⟩
    · rw [hheld] at hold
      exact Or.inl hold
    · exact Or.inr ⟨hrec, hinitial, htarget.symm⟩
  cases h with
  | stay => exact hr
  | rejected => exact hsame rfl
  | relayed => exact hsame rfl
  | woke hphase hslot hlife hinitial =>
    exact hput hslot (ManagedBackend.not_running_of_sleeping hlife) rfl rfl (by simp) hinitial
  | heldBack hphase hslot hlife hinitial =>
    exact hput hslot (ManagedBackend.not_running_of_waking ⟨_, _, hlife⟩) rfl rfl (by simp) hinitial
  | ignored => exact hsame rfl
  | tickStarted => exact hsame rfl
  | nothingFinished => exact hsame rfl
  | ready hphase hslot =>
    exact hinsert hslot (State.deliverHeld_backends ..) fun c d hd => by simp at hd
  | bootFailed hphase hslot => exact hinsert hslot rfl fun c d hd => by simp at hd
  | notRunning => exact hsame rfl
  | exited hphase hslot => exact hinsert hslot rfl fun c d hd => Or.inl hd
  | checkFailed => exact hsame rfl
  | busy hphase hslot => exact hinsert hslot rfl fun c d hd => Or.inl hd
  | idling hphase hslot => exact hinsert hslot rfl fun c d hd => Or.inl hd
  | idleStopped hphase hslot => exact hinsert hslot rfl fun c d hd => Or.inl hd
  | shutDown => exact hsame rfl
  | nothingToDrain => exact hsame rfl
  | drained hphase hslot => exact hinsert hslot rfl fun c d hd => Or.inl hd
  | drainedFailed hphase hslot => exact hinsert hslot rfl fun c d hd => Or.inl hd
  | gaveUp hphase hslot => exact hinsert hslot rfl fun c d hd => Or.inl hd
  | started hslot => exact hinsert hslot rfl fun c d hd => Or.inl hd
  | becameReady hslot => exact hinsert hslot rfl fun c d hd => Or.inl hd
  | startupFailed hslot => exact hinsert hslot rfl fun c d hd => Or.inl hd
  | advanced => exact hsame rfl
  | path => exact hsame rfl

theorem heldRouted (p : Proxy) (now : Instant) (events : List Event) :
    (p.run now events).HeldRouted p := by
  refine run_induction (State.HeldRouted p) ?_ ?_ events
  · intro slot managed client datagram hslot hheld
    obtain ⟨route, _, _, rfl⟩ := slots_keyed hslot
    simp [ManagedBackend.new] at hheld
  · intro before e s' hr h
    exact heldRouted_trans (sessionsRun p now before) hr h

/-- Where `forward_to_backend` sends: to the client's pinned backend, if any. -/
theorem Relay.forward_dest {relay : Relay} {now : Instant} {env : ForwardEnv}
    {client backend : SocketAddr} {datagram : Datagram} {dest : SocketAddr}
    (h : (relay.forwardToBackend now env client backend datagram).dest = some dest) :
    dest = (relay.sessionBackend client).getD backend := by
  rw [sessionBackend]
  rcases forward_cases relay now env client backend datagram with
    ⟨session, _, hold, _, he⟩ | ⟨_, hnone, _, _, he⟩ | ⟨_, _, _, _, he⟩
  all_goals rw [he] at h
  · rw [hold]
    exact (Option.some.inj h).symm
  · rw [hnone]
    exact (Option.some.inj h).symm
  · cases h

theorem HeldOrder.mem_list (order : HeldOrder) {held : HeldInitials} {client : SocketAddr}
    {datagram : Datagram} :
    (client, datagram) ∈ order.list held ↔ held[client]? = some datagram := by
  rw [(order.perm held).mem_iff, ExtTreeMap.mem_toList_iff_getElem?_eq_some]

/-- A transition that delivers to no client with a session sends everything where
it was assigned. -/
theorem routedRight_trans {p : Proxy} {s s' : State} {e : Event} (hk : s.Keyed)
    (hr : s.HeldRouted p) (hright : RoutedRight s.log) (hc : NoHeldSession s e)
    (h : Trans p s e s') : RoutedRight s'.log := by
  cases h with
  | @relayed client datagram env managed boot hphase hslot hlife =>
    have hbase : RoutedRight (s.log ++
        [.received client datagram (p.target s client datagram)]) := hright.append (by simp)
    refine hbase.snoc ?_ (fun slot boot backend horigin => by cases horigin)
    intro backend hdest
    have htarget : backend = p.target s client datagram := by
      rw [Relay.forward_dest hdest, Proxy.target]
      change (s.relay.sessionBackend client).getD _ = _
      cases s.relay.sessionBackend client <;> rfl
    rw [htarget]
    exact List.mem_append_right _ (List.mem_singleton.mpr rfl)
  | @ready env slot rest managed boot hphase hslot hlife =>
    have haddr := hk slot managed hslot
    have hnone := hc slot rest managed boot hphase hslot hlife
    -- A client delivered to has no session yet, or one that this delivery opened.
    have hall := State.deliverHeld_invariant
      (fun t => RoutedRight t.log ∧
        (∀ (client : SocketAddr) (datagram : Datagram), managed.held[client]? = some datagram →
          .received client datagram slot ∈ t.log) ∧
        ∀ (client : SocketAddr) (session : Session), client ∈ managed.held →
          t.relay.sessions[client]? = some session → session.backend = slot)
      managed.config.backend boot (env.order.list managed.held) env.forward
      (by
        rintro t client datagram hm ⟨ht, hgot, hpin⟩
        have hheld := env.order.mem_list.mp hm
        have hmem : client ∈ managed.held := by
          rw [← ExtTreeMap.isSome_getElem?_iff_mem, hheld]
          rfl
        have hdest : ∀ backend, (t.relay.forwardToBackend (t.now + (env.forward client).lap)
            (env.forward client) client managed.config.backend datagram).dest = some backend →
            backend = slot := by
          intro backend hd
          rw [Relay.forward_dest hd, Relay.sessionBackend, haddr]
          cases hsess : t.relay.sessions[client]? with
          | none => rfl
          | some session => exact hpin client session hmem hsess
        refine ⟨ht.snoc ?_ ?_, fun c d hd => List.mem_append_left _ (hgot c d hd), ?_⟩
        · intro backend hd
          rw [hdest backend hd]
          exact hgot client datagram hheld
        · intro slot' boot' backend horigin hd
          rw [hdest backend hd, ← haddr]
          exact (Origin.held.inj horigin).1
        · intro c session hcm hsess
          rcases Relay.forward_session_backend hsess with ⟨old, hold, hb, _⟩ | ⟨_, hb, _⟩
          · rw [← hb]
            exact hpin c old hcm hold
          · rw [hb, haddr])
      (s := s.takeOver slot managed boot env.readyLap) ⟨hright.append (by simp), ?_, ?_⟩
    · exact hall.1
    · intro client datagram hd
      exact List.mem_append_left _ (hr slot managed client datagram hslot hd).1
    · intro client session hm hsess
      have hn := hnone client hm
      rw [State.takeOver] at hsess
      rw [hn] at hsess
      cases hsess
  | stay => exact hright
  | tickStarted => exact hright
  | nothingFinished => exact hright
  | notRunning => exact hright
  | shutDown => exact hright
  | nothingToDrain => exact hright
  | drainedFailed => exact hright
  | becameReady => exact hright
  | advanced => exact hright
  | path => exact hright
  | _ => exact hright.append (by simp)

/-- Where a client has a session, `deliver_held` sends its Initial there. -/
theorem deliverHeld_pinned {backend pinned client : SocketAddr} {boot : BootId}
    {datagram : Datagram} {env : SocketAddr → Relay.ForwardEnv}
    {held : List (SocketAddr × Datagram)} (hm : (client, datagram) ∈ held) {s : State}
    (hs : s.relay.sessionBackend client = some pinned) :
    ∃ effects : List Effect, (s.deliverHeld backend boot held env).log = s.log ++ effects ∧
      ∃ call : Forward, .forwarded call ∈ effects ∧ call.origin = .held backend boot ∧
        call.dest = some pinned := by
  induction held generalizing s with
  | nil => cases hm
  | cons entry held ih =>
    obtain ⟨session, hsession, rfl⟩ := Option.map_eq_some_iff.mp hs
    rw [State.deliverHeld_cons]
    rcases List.mem_cons.mp hm with rfl | hm
    · obtain ⟨calls, hlog, _⟩ := State.deliverHeld_log
        (s.forward (.held backend boot) client backend datagram (env client)) backend boot held env
      rw [hlog, State.forward_log, List.append_assoc]
      refine ⟨_, rfl, s.forwardCall (.held backend boot) client backend datagram (env client),
        List.mem_cons_self, rfl, ?_⟩
      rcases Relay.forward_cases s.relay (s.now + (env client).lap) (env client) client backend
        datagram with ⟨old, _, hold, _, he⟩ | ⟨_, hnone, _, _, he⟩ | ⟨_, hnone, _, _, he⟩
      · rw [hsession, Option.some.injEq] at hold
        rw [hold]
        exact congrArg Relay.Forwarding.dest he
      · rw [hsession] at hnone
        cases hnone
      · rw [hsession] at hnone
        cases hnone
    · obtain ⟨effects, hlog, call, hcall, hrest⟩ :=
        ih hm (s := s.forward (.held backend boot) entry.1 backend entry.2 (env entry.1))
          (Relay.sessionBackend_forward hs _ _ _ _ _)
      rw [hlog, State.forward_log, List.append_assoc]
      exact ⟨_, rfl, call, List.mem_append_right _ hcall, hrest⟩

/-- The tick that finds a backend ready sends the Initial of a client with a session
where the session is pinned. -/
theorem finishSlot_pinned {p : Proxy} {s : State} {slot client : SocketAddr}
    {rest : List SocketAddr} {managed : ManagedBackend} {boot : BootId} {session : Session}
    (env : FinishEnv) (hphase : s.phase = .ticking (slot :: rest))
    (hslot : s.backends[slot]? = some managed)
    (hlife : managed.lifecycle = .waking boot (.finished .ready)) (hheld : client ∈ managed.held)
    (hsession : s.relay.sessions[client]? = some session) :
    ∃ effects : List Effect, (p.step s (.finishSlot env)).log = s.log ++ effects ∧
      ∃ call : Forward, .forwarded call ∈ effects ∧
        call.origin = .held managed.config.backend boot ∧ call.dest = some session.backend := by
  obtain ⟨datagram, hd⟩ := Option.isSome_iff_exists.mp (ExtTreeMap.isSome_getElem?_iff_mem.mpr hheld)
  have hlog : (p.step s (.finishSlot env)).log =
      ((s.takeOver slot managed boot env.readyLap).deliverHeld managed.config.backend boot
        (env.order.list managed.held) env.forward).log := by
    simp only [Proxy.step, hphase, State.finishStartup, hslot, hlife]
    rfl
  obtain ⟨effects, hsent, call, hcall, hrest⟩ := deliverHeld_pinned
    (s := s.takeOver slot managed boot env.readyLap) (env.order.mem_list.mpr hd)
    (show s.relay.sessionBackend client = some session.backend by
      simp [Relay.sessionBackend, hsession])
  refine ⟨.consumed boot managed.config.backend .ready :: effects, ?_, call,
    List.mem_cons_of_mem _ hcall, hrest⟩
  rw [hlog, hsent]
  exact List.append_assoc _ _ _

theorem State.SessionsRun.backend_ne {s : State} (hs : s.SessionsRun) {slot client : SocketAddr}
    {managed : ManagedBackend} {session : Session} (hslot : s.backends[slot]? = some managed)
    (hnot : ¬ managed.Running) (hsession : s.relay.sessions[client]? = some session) :
    session.backend ≠ slot := by
  intro heq
  obtain ⟨_, m, hm, hrun⟩ := hs client session hsession
  rw [heq, hslot, Option.some.injEq] at hm
  rw [← hm] at hrun
  exact hnot hrun

theorem not_routedRight_of_held_session {p : Proxy} {s : State} {e : Event} (hk : s.Keyed)
    (hs : s.SessionsRun) (hc : ¬ NoHeldSession s e) : ¬ RoutedRight (p.step s e).log := by
  cases e with
  | finishSlot env =>
    simp only [NoHeldSession, not_forall] at hc
    obtain ⟨slot, rest, managed, boot, hphase, hslot, hlife, client, hm, hsess⟩ := hc
    obtain ⟨session, hsession⟩ := Option.ne_none_iff_exists'.mp hsess
    have hother : session.backend ≠ slot :=
      hs.backend_ne hslot (ManagedBackend.not_running_of_waking ⟨_, _, hlife⟩) hsession
    obtain ⟨effects, hsent, call, hcall, horigin, hdest⟩ :=
      finishSlot_pinned env hphase hslot hlife hm hsession
    intro hright
    rw [hsent] at hright
    have hback := hright.held_own call _ _ _ (List.mem_append_right _ hcall) horigin hdest
    rw [hk slot managed hslot] at hback
    exact hother hback
  | _ => exact (hc trivial).elim

/-- In every state of a run everything sent upstream went where it was assigned,
exactly if no tick of the run delivers held Initials to a client that has a
session by then. -/
theorem sent_as_assigned_iff (p : Proxy) (now : Instant) (events : List Event) :
    (∀ before : List Event, before <+: events → RoutedRight (p.run now before).log) ↔
      AllSteps p.step NoHeldSession (p.init now) events := by
  refine forall_prefix_iff_allSteps (fun s : State => RoutedRight s.log) ?_ ?_ ?_ events
  · exact ⟨by simp [Proxy.init], by simp [Proxy.init]⟩
  · intro before e hright hc
    exact routedRight_trans (keyed p now before) (heldRouted p now before) hright hc
      (step_trans p _ e)
  · intro before e hc
    exact not_routedRight_of_held_session (keyed p now before) (sessionsRun p now before) hc

/-- A run depends on the cryptographic crates only through the server names they
let the proxy read in the datagrams it receives. -/
theorem Proxy.run_step_congr {p q : Proxy} (hconfig : p.config = q.config) {events : List Event}
    (hpeek : ∀ client datagram env, .datagram client datagram env ∈ events →
      p.peek datagram = q.peek datagram) (s : State) :
    Lib.Machine.run p.step s events = Lib.Machine.run q.step s events := by
  have hroutes : p.routes = q.routes := by rw [routes, hconfig, routes]
  have hconsole : p.console = q.console := by rw [console, hconfig, console]
  have hstep : ∀ (s : State) (e : Event), e ∈ events → p.step s e = q.step s e := by
    intro s e hm
    cases e with
    | datagram client datagram env =>
      have htarget : p.target s client datagram = q.target s client datagram := by
        rw [target, target, hroutes, hpeek client datagram env hm]
      simp only [step, handleDatagram, htarget, hconsole]
    | checkSlot env => simp only [step, hconfig]
    | _ => rfl
  apply run_related (· = ·) _ rfl
  intro s t e he hst
  rw [hst]
  exact hstep t e he

theorem Proxy.run_congr {p q : Proxy} (hconfig : p.config = q.config) (now : Instant)
    {events : List Event} (hpeek : ∀ client datagram env,
      .datagram client datagram env ∈ events → p.peek datagram = q.peek datagram) :
    p.run now events = q.run now events := by
  have hroutes : p.routes = q.routes := by rw [routes, hconfig, routes]
  have hinit : p.init now = q.init now := by
    rw [init, init, slots, slots, hconfig, hroutes]
  rw [run, run, hinit]
  exact run_step_congr hconfig hpeek _

/-- The packet of RFC 9001, which asks for `example.com`. -/
def namedInitial : Datagram := ⟨Sni.Rfc9001.clientInitial, by decide +kernel⟩

/-- One client asks for the default backend and then for `example.com`, whose
backend is ready first. -/
def crossedRun : List Event :=
  [.datagram (.localhost 40000) testInitial ⟨0, true, true⟩] ++
    wakeRun 2 (.localhost 40000) namedInitial (.localhost 5522) ++
    [.started (.localhost 5521), .startupDone (.localhost 5521) .ready] ++ calmTick 2

/-- The table of the packet, with the PADDING of its payload left out. -/
def bareCrypto : Sni.Crypto :=
  { Sni.Rfc9001.crypto with decrypt := fun _ _ _ _ => some Sni.Rfc9001.cryptoFrame }

/-- On the two packets of these runs the PADDING makes no difference. -/
theorem run_bareCrypto (config : Config) {events : List Event}
    (h : ∀ client datagram env, .datagram client datagram env ∈ events →
      datagram = testInitial ∨ datagram = namedInitial) :
    (⟨config, Sni.Rfc9001.crypto⟩ : Proxy).run 0 events =
      (⟨config, bareCrypto⟩ : Proxy).run 0 events := by
  have hcongr := @Proxy.run_congr ⟨config, Sni.Rfc9001.crypto⟩ ⟨config, bareCrypto⟩ rfl 0 events
  apply hcongr
  intro client datagram env hm
  rcases h client datagram env hm with rfl | rfl
  · show Sni.peekServerName Sni.Rfc9001.crypto testInitial.bytes =
      Sni.peekServerName bareCrypto testInitial.bytes
    decide +kernel
  · have hbare : Sni.peekServerName bareCrypto Sni.Rfc9001.clientInitial = some "example.com" := by
      decide +kernel
    exact Sni.Rfc9001.peek_clientInitial.trans hbare.symm

theorem datagram_not_calmTick (slots : Nat) {client : SocketAddr} {datagram : Datagram}
    {env : Relay.ForwardEnv} : .datagram client datagram env ∉ calmTick slots := by
  simp [calmTick]

theorem eq_of_mem_wakeRun {slots : Nat} {client client' slot : SocketAddr}
    {datagram datagram' : Datagram} {env : Relay.ForwardEnv}
    (h : .datagram client' datagram' env ∈ wakeRun slots client datagram slot) :
    datagram' = datagram := by
  rcases List.mem_append.mp h with h | h
  · simp only [List.mem_cons, Event.datagram.injEq, reduceCtorEq, List.not_mem_nil, or_false] at h
    exact h.2.1
  · exact absurd h (datagram_not_calmTick slots)

theorem run_crossedRun : (⟨twoBackends, Sni.Rfc9001.crypto⟩ : Proxy).run 0 crossedRun =
    (⟨twoBackends, bareCrypto⟩ : Proxy).run 0 crossedRun := by
  apply run_bareCrypto
  intro client datagram env hm
  simp only [crossedRun, List.mem_append, List.mem_cons, List.not_mem_nil, Event.datagram.injEq,
    reduceCtorEq, or_false, datagram_not_calmTick] at hm
  rcases hm with hm | hm
  · exact Or.inl hm.2.1
  · exact Or.inr (eq_of_mem_wakeRun hm)

/-- The first datagram that was held for a backend is sent to an address. -/
def Effect.firstHeldSentTo (backend dest : SocketAddr) : Effect → Bool
  | .forwarded call => decide (call.origin = .held backend 0 ∧ call.dest = some dest)
  | _ => false

/-- The Initial that was held for the default backend is sent to the other one. -/
theorem held_initial_sent_elsewhere :
    twoBackends.validate = .ok () ∧
    ¬ (∀ before : List Event, before <+: crossedRun →
      RoutedRight ((⟨twoBackends, Sni.Rfc9001.crypto⟩ : Proxy).run 0 before).log) := by
  refine ⟨by decide +kernel, fun h => ?_⟩
  have hright := h crossedRun (List.prefix_refl _)
  rw [run_crossedRun] at hright
  have hany : ((⟨twoBackends, bareCrypto⟩ : Proxy).run 0 crossedRun).log.any
      (Effect.firstHeldSentTo (.localhost 5521) (.localhost 5522)) = true := by decide +kernel
  obtain ⟨effect, hm, heffect⟩ := List.any_eq_true.mp hany
  cases effect with
  | forwarded call =>
    obtain ⟨horigin, hdest⟩ := of_decide_eq_true heffect
    have he := hright.held_own call _ _ _ hm horigin hdest
    revert he
    decide
  | _ => cases heffect

/-- Every session was opened by an Initial of its client, which its server name
routed to the backend the session is pinned to. -/
def State.OpenedByInitial (p : Proxy) (s : State) : Prop :=
  ∀ (client : SocketAddr) (session : Session), s.relay.sessions[client]? = some session →
    ∃ call : Forward, .forwarded call ∈ s.log ∧ call.opened = some session.upstream ∧
      call.client = client ∧ .received client call.datagram session.backend ∈ s.log ∧
      isQuicInitial call.datagram.bytes = true ∧
      (p.routes.resolve (p.peek call.datagram)).backend = session.backend

/-- A datagram that would open a session on a running backend is an Initial. -/
def InitialOpens (p : Proxy) (s : State) : Event → Prop
  | .datagram client datagram env =>
      s.phase = .serving → s.relay.sessions[client]? = none →
      s.Running (p.routes.resolve (p.peek datagram)).backend → env.bindOk = true →
      isQuicInitial datagram.bytes = true
  | _ => True

theorem State.OpenedByInitial.of_subset {p : Proxy} {s s' : State} (h : s.OpenedByInitial p)
    (hsub : ∀ (client : SocketAddr) (session : Session),
      s'.relay.sessions[client]? = some session → s.relay.sessions[client]? = some session)
    (hlog : ∀ effect ∈ s.log, effect ∈ s'.log) : s'.OpenedByInitial p := by
  intro client session hs
  obtain ⟨call, hcall, hopened, hclient, hgot, hrest⟩ := h client session (hsub _ _ hs)
  exact ⟨call, hlog _ hcall, hopened, hclient, hlog _ hgot, hrest⟩

theorem openedByInitial_forward {p : Proxy} {s : State} (h : s.OpenedByInitial p)
    {origin : Origin} {client backend : SocketAddr} {datagram : Datagram}
    {env : Relay.ForwardEnv}
    (hnew : s.relay.sessions[client]? = none → env.bindOk = true →
      .received client datagram backend ∈ s.log ∧ isQuicInitial datagram.bytes = true ∧
        (p.routes.resolve (p.peek datagram)).backend = backend) :
    (s.forward origin client backend datagram env).OpenedByInitial p := by
  intro c session hs
  rw [State.forward_relay] at hs
  rcases Relay.forward_session_backend hs with ⟨old, hold, hb, hu⟩ | ⟨rfl, hb, hnone, hopened⟩
  · obtain ⟨call, hcall, hopened, hclient, hgot, hrest⟩ := h c old hold
    rw [hu] at hopened
    rw [hb] at hgot hrest
    exact ⟨call, List.mem_append_left _ hcall, hopened, hclient, List.mem_append_left _ hgot, hrest⟩
  · have hbind : env.bindOk = true := by
      rcases Relay.forward_cases s.relay (s.now + env.lap) env c backend datagram with
        ⟨old, _, hold, _⟩ | ⟨_, _, hb, _⟩ | ⟨_, _, _, _, he⟩
      · rw [hold] at hnone
        cases hnone
      · exact hb
      · rw [he] at hopened
        cases hopened
    obtain ⟨hgot, hinitial, hroute⟩ := hnew hnone hbind
    refine ⟨s.forwardCall origin c backend datagram env,
      List.mem_append_right _ (List.mem_singleton.mpr rfl), hopened, rfl, ?_, hinitial, ?_⟩
    · rw [hb]
      exact List.mem_append_left _ hgot
    · rw [hb]
      exact hroute

theorem openedByInitial_trans {p : Proxy} {s s' : State} {e : Event} (hk : s.Keyed)
    (hr : s.HeldRouted p) (ho : s.OpenedByInitial p) (hc : InitialOpens p s e)
    (h : Trans p s e s') : s'.OpenedByInitial p := by
  have hlog : ∀ effect ∈ s.log, effect ∈ s'.log := fun _ hm => h.mem_log hm
  cases h with
  | @relayed client datagram env managed boot hphase hslot hlife =>
    refine openedByInitial_forward (s := s.emit _)
      (ho.of_subset (fun _ _ => id) fun _ hm => List.mem_append_left _ hm) ?_
    intro hnone hbind
    have htarget : p.target s client datagram = (p.routes.resolve (p.peek datagram)).backend := by
      simp only [Proxy.target, Relay.sessionBackend]
      change s.relay.sessions[client]? = none at hnone
      rw [hnone]
      rfl
    refine ⟨List.mem_append_right _ (List.mem_singleton.mpr rfl), ?_, htarget.symm⟩
    refine hc hphase hnone ?_ hbind
    rw [← htarget]
    exact ⟨managed, hslot, boot, hlife⟩
  | @ready env slot rest managed boot hphase hslot hlife =>
    have hall := State.deliverHeld_invariant
      (fun t => t.OpenedByInitial p ∧ ∀ effect ∈ s.log, effect ∈ t.log)
      managed.config.backend boot (env.order.list managed.held) env.forward
      (by
        rintro t client datagram hm ⟨ht, hmono⟩
        refine ⟨openedByInitial_forward ht fun _ _ => ?_,
          fun effect he => List.mem_append_left _ (hmono effect he)⟩
        obtain ⟨hgot, hrest⟩ := hr slot managed client datagram hslot (env.order.mem_list.mp hm)
        rw [hk slot managed hslot]
        exact ⟨hmono _ hgot, hrest⟩)
      (s := s.takeOver slot managed boot env.readyLap)
      ⟨ho.of_subset (fun _ _ => id) fun _ hm => List.mem_append_left _ hm,
        fun _ hm => List.mem_append_left _ hm⟩
    exact hall.1
  | tickStarted =>
    exact ho.of_subset (fun client session hs => (Relay.sessions_retain_some.mp hs).1) hlog
  | exited =>
    exact ho.of_subset (fun client session hs => (Relay.sessions_retain_some.mp hs).1) hlog
  | shutDown =>
    exact ho.of_subset (fun client session hs => (Relay.sessions_retain_some.mp hs).1) hlog
  | path act =>
    refine ho.of_subset (fun client session hs => ?_) hlog
    rw [← (Relay.pathFrame_path s.relay act).sessions]
    exact hs
  | _ => exact ho.of_subset (fun _ _ => id) hlog

/-- Sockets named in the log have been bound. -/
def State.OpenedBound (s : State) : Prop :=
  ∀ (call : Forward) (socket : SocketId), .forwarded call ∈ s.log → call.opened = some socket →
    socket < s.relay.sockets.length

theorem openedBound_forward {s : State} (h : s.OpenedBound) (origin : Origin)
    (client backend : SocketAddr) (datagram : Datagram) (env : Relay.ForwardEnv) :
    (s.forward origin client backend datagram env).OpenedBound := by
  intro call socket hcall hopened
  have hle := Relay.sockets_length_le s.relay
    (.forward (s.now + env.lap) env client backend datagram)
  rw [State.forward_log] at hcall
  rcases List.mem_append.mp hcall with hcall | hcall
  · exact Nat.lt_of_lt_of_le (h call socket hcall hopened) hle
  · obtain rfl := Effect.forwarded.inj (List.mem_singleton.mp hcall)
    rw [State.forward_relay]
    change (s.relay.forwardToBackend (s.now + env.lap) env client backend datagram).opened =
      some socket at hopened
    rcases Relay.forward_cases s.relay (s.now + env.lap) env client backend datagram with
      ⟨_, _, _, _, he⟩ | ⟨_, _, _, _, he⟩ | ⟨_, _, _, _, he⟩
    all_goals rw [he] at hopened ⊢
    · cases hopened
    · obtain rfl := Option.some.inj hopened
      simp [Relay.openSession]
    · cases hopened

theorem Trans.sockets_length_le {p : Proxy} {s s' : State} {e : Event} (h : Trans p s e s') :
    s.relay.sockets.length ≤ s'.relay.sockets.length := by
  obtain ⟨acts, hrelay⟩ := h.relay_run
  rw [hrelay]
  exact run_invariant (fun relay : Relay => s.relay.sockets.length ≤ relay.sockets.length)
    (fun relay act hle => Nat.le_trans hle (relay.sockets_length_le act)) (Nat.le_refl _) acts

theorem openedBound_trans {p : Proxy} {s s' : State} {e : Event} (ho : s.OpenedBound)
    (h : Trans p s e s') : s'.OpenedBound := by
  have hsame : ∀ effects : List Effect, s'.log = s.log ++ effects →
      (∀ call : Forward, .forwarded call ∉ effects) → s'.OpenedBound := by
    intro effects hlog hno call socket hcall hopened
    rw [hlog] at hcall
    rcases List.mem_append.mp hcall with hcall | hcall
    · exact Nat.lt_of_lt_of_le (ho call socket hcall hopened) h.sockets_length_le
    · exact (hno call hcall).elim
  have hquiet : s'.log = s.log → s'.OpenedBound := fun hlog =>
    hsame [] (by rw [hlog, List.append_nil]) (by simp)
  cases h with
  | @relayed client datagram env managed boot hphase hslot hlife =>
    refine openedBound_forward (s := s.emit _) ?_ _ _ _ _ _
    intro call socket hcall hopened
    simp only [State.emit, List.mem_append, List.mem_singleton, reduceCtorEq, or_false] at hcall
    exact ho call socket hcall hopened
  | @ready env slot rest managed boot hphase hslot hlife =>
    refine State.deliverHeld_invariant State.OpenedBound _ _ _ _
      (fun t client datagram _ ht => openedBound_forward ht _ _ _ _ _) ?_
    intro call socket hcall hopened
    simp only [State.takeOver, List.mem_append, List.mem_singleton, reduceCtorEq, or_false] at hcall
    exact ho call socket hcall hopened
  | stay => exact ho
  | tickStarted => exact hquiet rfl
  | nothingFinished => exact hquiet rfl
  | notRunning => exact hquiet rfl
  | shutDown => exact hquiet rfl
  | nothingToDrain => exact hquiet rfl
  | drainedFailed => exact hquiet rfl
  | becameReady => exact hquiet rfl
  | advanced => exact hquiet rfl
  | path => exact hquiet rfl
  | _ => exact hsame _ rfl (by simp)

theorem openedBound (p : Proxy) (now : Instant) (events : List Event) :
    (p.run now events).OpenedBound :=
  run_induction State.OpenedBound (by simp [State.OpenedBound, Proxy.init])
    (fun _ _ _ ho h => openedBound_trans ho h) events

theorem not_openedByInitial_of_stray {p : Proxy} {s : State} {e : Event} (ho : s.OpenedBound)
    (hc : ¬ InitialOpens p s e) : ¬ (p.step s e).OpenedByInitial p := by
  cases e with
  | datagram client datagram env =>
    simp only [InitialOpens, Classical.not_imp] at hc
    obtain ⟨hphase, hnone, ⟨managed, hslot, boot, hlife⟩, hbind, hstray⟩ := hc
    have htarget : p.target s client datagram = (p.routes.resolve (p.peek datagram)).backend := by
      simp [Proxy.target, Relay.sessionBackend, hnone]
    rw [← htarget] at hslot
    have hstep : p.step s (.datagram client datagram env) =
        (s.emit (.received client datagram (p.target s client datagram))).forward .direct client
          (p.target s client datagram) datagram env := by
      simp [Proxy.step, Proxy.handleDatagram, hphase, State.emit, hslot, hlife]
    rw [hstep]
    generalize p.target s client datagram = target at hslot
    have hopen : ((s.emit (.received client datagram target)).forward .direct client target
        datagram env).relay.sessions[client]? =
          some ⟨s.relay.sockets.length, target, s.relay.tasks.length, s.now + env.lap⟩ := by
      rw [State.forward_relay]
      change (s.relay.forwardToBackend (s.now + env.lap) env client target
        datagram).relay.sessions[client]? = _
      rcases Relay.forward_cases s.relay (s.now + env.lap) env client target datagram with
        ⟨old, _, hold, _⟩ | ⟨_, _, _, _, he⟩ | ⟨_, _, hb, _⟩
      · rw [hnone] at hold
        cases hold
      · rw [he, Relay.sessions_openSession, if_pos rfl]
      · rw [hbind] at hb
        cases hb
    intro hinitial
    obtain ⟨call, hcall, hopened, _, _, hquic, _⟩ := hinitial client _ hopen
    rw [State.forward_log] at hcall
    rcases List.mem_append.mp hcall with hcall | hcall
    · simp only [State.emit, List.mem_append, List.mem_singleton, reduceCtorEq, or_false] at hcall
      exact Nat.lt_irrefl _ (ho call _ hcall hopened)
    · obtain rfl := Effect.forwarded.inj (List.mem_singleton.mp hcall)
      exact hstray hquic
  | _ => exact (hc trivial).elim

/-- In every state of a run each session was opened by an Initial for its own
backend, exactly if every datagram of the run that opens a session on a running
backend is an Initial. -/
theorem sessions_opened_by_initials_iff (p : Proxy) (now : Instant) (events : List Event) :
    (∀ before : List Event, before <+: events → (p.run now before).OpenedByInitial p) ↔
      AllSteps p.step (InitialOpens p) (p.init now) events := by
  refine forall_prefix_iff_allSteps (State.OpenedByInitial p) ?_ ?_ ?_ events
  · intro client session hs
    simp [Proxy.init, Relay.new] at hs
  · intro before e ho hc
    exact openedByInitial_trans (keyed p now before) (heldRouted p now before) ho hc
      (step_trans p _ e)
  · intro before e hc
    exact not_openedByInitial_of_stray (openedBound p now before) hc

/-- A backend is awake, and a late short-header datagram of an address without a
session arrives. -/
def strayRun : List Event :=
  wakeRun 1 (.localhost 40000) testInitial Config.default.backend ++
    [.datagram (.localhost 40001) ⟨[0x40, 0x01, 0x02], by decide⟩ ⟨0, true, true⟩]

/-- If a datagram opened a session on a socket, it was no Initial. -/
def Effect.opensBare (upstream : SocketId) : Effect → Bool
  | .forwarded call => call.opened != some upstream || !isQuicInitial call.datagram.bytes
  | _ => true

theorem stray_opens_session :
    ¬ (∀ before : List Event, before <+: strayRun →
      ((⟨.default, Sni.Rfc9001.crypto⟩ : Proxy).run 0 before).OpenedByInitial
        ⟨.default, Sni.Rfc9001.crypto⟩) := by
  intro h
  obtain ⟨call, hcall, hopened, _, _, hquic, _⟩ := h strayRun (List.prefix_refl _)
    (.localhost 40001) ⟨1, Config.default.backend, 1, 0⟩ (by decide +kernel)
  have hall : ((⟨.default, Sni.Rfc9001.crypto⟩ : Proxy).run 0 strayRun).log.all
      (Effect.opensBare 1) = true := by decide +kernel
  have hbare := List.all_eq_true.mp hall _ hcall
  simp [Effect.opensBare, hopened, hquic] at hbare

end Sleepytale
