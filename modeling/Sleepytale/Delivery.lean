import Sleepytale.Takeover
import Sleepytale.Wake
import Sleepytale.Sni.Initial

/-!
# What becomes of a named Initial

A client names its backend in a packet that it alone protects. The results on the
parts of the way meet here: the SNI reader opens the packet, the route table finds
the slot, the slot relays the packet or holds it, and the tick that takes the boot
over calls `forward_to_backend` for it.
-/

namespace Sleepytale

open Sleepytale.Net
open Sleepytale.Lib.Maps
open Sleepytale.Lib.Machine
open Std (ExtTreeMap)

/-- A boot holds a datagram of the client. When a tick finds the boot ready, the slot's
turn calls `forward_to_backend` for the client with that datagram, or with one that
the client sent since. The call sends it to the backend of the session that the
client has by then, or else to `slot` if a socket can be bound. -/
def Proxy.CallsWhenReady (p : Proxy) (now : Instant) (events : List Event) (slot : SocketAddr)
    (boot : BootId) (client : SocketAddr) (datagram : Datagram) : Prop :=
  ∀ (between after : List Event) (turns : List (FinishEnv × CheckEnv)) (managed : ManagedBackend),
    (p.run now (events ++ between)).phase = .serving →
    (p.run now (events ++ between)).backends[slot]? = some managed →
    managed.lifecycle = .waking boot (.finished .ready) →
    (p.run now (events ++ between)).backends.size ≤ turns.length →
    (tickTurns turns).Sublist after → (p.run now (events ++ between ++ after)).phase.InLoop →
    ∃ (before later : List Event) (turn : FinishEnv) (call : Forward),
      after = before ++ .finishSlot turn :: later ∧
      .forwarded call ∈ (p.run now (events ++ between ++ before ++ [.finishSlot turn])).log ∧
      call.origin = .held slot boot ∧ call.client = client ∧ call.backend = slot ∧
      (call.datagram = datagram ∨ ∃ env, .datagram client call.datagram env ∈ between ++ before) ∧
      call.dest =
        (p.run now (events ++ between ++ before)).relay.destFor (turn.forward client) client slot

theorem callsWhenReady_of_held {p : Proxy} {now : Instant} {events : List Event}
    {slot : SocketAddr} {managed : ManagedBackend} {boot : BootId} {task : Startup}
    {client : SocketAddr} {datagram : Datagram}
    (hslot : (p.run now events).backends[slot]? = some managed)
    (hlife : managed.lifecycle = .waking boot task)
    (hheld : managed.held[client]? = some datagram) :
    p.CallsWhenReady now events slot boot client datagram := by
  intro between after turns ready hserving hready hrlife hturns htick hloop
  have hkeeps : (p.run now events).Keeps slot boot client (fun _ d => d = datagram) :=
    keeps_of_held hslot hlife hheld rfl
  have hsplit : p.run now (events ++ between) = run p.step (p.run now events) between :=
    run_append _ _ events between
  have hkept := keeps_run (p := p) hkeeps between
  rw [← hsplit] at hkept
  have hclients : ∀ c ∈ [client], (p.run now (events ++ between)).Keeps slot boot c
      (OrSent (fun _ d => d = datagram) between) := by
    intro c hc
    rw [List.mem_singleton.mp hc]
    exact hkept
  obtain ⟨before, later, turn, calls, heq, htakes⟩ :=
    takesOver_run hserving hready hrlife hclients hturns htick hloop
  obtain ⟨call, hcall, hclient, hfit⟩ :=
    htakes.called rfl client (List.mem_singleton.mpr rfl)
  obtain ⟨horigin, hbackend, hdest⟩ := htakes.sent call hcall
  refine ⟨before, later, turn, call, heq, ?_, horigin, hclient, hbackend, ?_, hclient ▸ hdest⟩
  · rw [htakes.log]
    exact List.mem_append_right _ (List.mem_cons_of_mem _ (List.mem_map_of_mem hcall))
  · rcases hfit with (hsame | ⟨env, hsent⟩) | ⟨env, hsent⟩
    · exact Or.inl hsame
    · exact Or.inr ⟨env, List.mem_append_left _ hsent⟩
    · exact Or.inr ⟨env, List.mem_append_right _ hsent⟩

theorem step_datagram {p : Proxy} {now : Instant} {events : List Event} {client : SocketAddr}
    {datagram : Datagram} {env : Relay.ForwardEnv} (hserving : (p.run now events).phase = .serving) :
    p.run now (events ++ [.datagram client datagram env]) =
      (p.handleDatagram (p.run now events) client datagram env).1 := by
  have hok := handleDatagram_ok p now events client datagram env
  rw [Proxy.run, run_snoc]
  show p.step (p.run now events) (.datagram client datagram env) = _
  simp only [Proxy.step, hserving, if_true]
  split
  · next heq => rw [heq]
  · next heq =>
    rw [heq] at hok
    cases hok

/-- What becomes of an Initial whose ClientHello names a route, sent by a client without
a session. Whatever the proxy has been doing, the slot of the route's backend exists
and is configured as the route says. If the backend runs the packet is sent to it,
unless no socket can be bound. If not, and there is room for the client, a boot of the
slot waits with the packet until its backend is ready. -/
theorem named_initial_is_relayed_or_kept (p : Proxy) (hvalid : p.config.validate = .ok ())
    (encrypt : Vector UInt8 16 → Vector UInt8 12 → (msg aad : Bytes) → Bytes)
    (hopen : ∀ key nonce msg aad,
      p.crypto.decrypt key nonce (encrypt key nonce msg aad) aad = some msg)
    (hencrypt : ∀ key nonce msg aad,
      (encrypt key nonce msg aad).length = msg.length + Sni.tagLen)
    (initial : Sni.Initial) (keys : Sni.Keys)
    (hkeys : Sni.Keys.initial p.crypto initial.version.number initial.dcid = some keys)
    (hello : Sni.ClientHello) (hagree : Sni.Agree hello.encode (Sni.cryptoPieces initial.frames))
    (hcovered : ∀ i, i < hello.encode.length → Sni.Covered (Sni.cryptoPieces initial.frames) i)
    (name : String) (route : BackendConfig)
    (hmatch : Matches p.config hello.serverName name route) (datagram : Datagram)
    (trailing : Bytes) (hbytes : datagram.bytes = initial.packet p.crypto encrypt keys ++ trailing)
    (hlen : minInitial ≤ datagram.bytes.length) (now : Instant) (events : List Event)
    (client : SocketAddr) (env : Relay.ForwardEnv)
    (hserving : (p.run now events).phase = .serving)
    (hnew : (p.run now events).relay.sessions[client]? = none) :
    ∃ managed : ManagedBackend, (p.run now events).backends[route.backend]? = some managed ∧
      managed.config = route ∧
      ((∃ boot, managed.lifecycle = .running boot) → ∃ call : Forward,
        (p.run now (events ++ [.datagram client datagram env])).log =
          (p.run now events).log ++ [.received client datagram route.backend, .forwarded call] ∧
        call.origin = .direct ∧ call.client = client ∧ call.datagram = datagram ∧
        call.dest = if env.bindOk then some route.backend else none) ∧
      ((∀ boot, managed.lifecycle ≠ .running boot) →
        (managed.held.erase client).size < maxHeldClients →
        ∃ (waking : ManagedBackend) (boot : BootId) (task : Startup),
          (p.run now (events ++ [.datagram client datagram env])).backends[route.backend]? =
            some waking ∧
          waking.lifecycle = .waking boot task ∧
          p.CallsWhenReady now (events ++ [.datagram client datagram env]) route.backend boot client
            datagram) := by
  have hd := Config.distinct_of_validate hvalid
  obtain ⟨asked, hasked, hroute, _⟩ := id hmatch
  have hpeek : p.peek datagram = some asked := by
    have hge := hello.length_encode_ge
    have hle := Sni.length_le_of_covered hagree hcovered
    have hlong : Sni.sampleLen ≤ initial.payload.length :=
      Nat.le_trans (Nat.le_trans (by decide) hge) hle
    have hne : hello.encode ≠ [] := by simp [Sni.ClientHello.encode]
    obtain ⟨hparse, hopened⟩ := Sni.Initial.open_packet hencrypt keys hlong hopen trailing
    rw [Proxy.peek, hbytes, Sni.peekServerName_of_parts hparse hkeys hopened
      (Sni.reassembleCrypto_encodeFrames hagree hcovered hne), Sni.clientHelloServerName_encode,
      hasked]
  have htarget : p.target (p.run now events) client datagram = route.backend := by
    rw [Proxy.target, Relay.sessionBackend, hnew, hpeek, ← hasked, Proxy.routes,
      resolve_of_matches hd hmatch]
    rfl
  obtain ⟨managed, hslot⟩ :=
    Option.isSome_iff_exists.mp (target_is_slot p now events client datagram)
  have hconfig : managed.config = route := by
    have hc := slot_configs p now events route.backend
    rw [← htarget, hslot, htarget,
      (slots_getElem? hd _ _).mpr ⟨route, Or.inr ⟨name, hroute⟩, rfl, rfl⟩] at hc
    exact Option.some.inj hc
  have hloop : (p.run now events).phase.InLoop := by
    rw [hserving]
    trivial
  have hadmitted := admitted_of_initial env hslot
    (slotsConsistent p now events hloop _ managed hslot)
    (fun hwaking => by
      obtain ⟨boot, task, hlife⟩ := hwaking
      exact held_within p now events hslot hlife)
    (Proxy.isQuicInitial_of_peek hlen hpeek)
  rw [htarget] at hslot hadmitted
  refine ⟨managed, hslot, hconfig, ?_, fun hnot hroom => ?_⟩
  · rintro ⟨boot, hlife⟩
    rw [step_datagram hserving, hadmitted.forwarded managed boot hslot hlife]
    refine ⟨((p.run now events).emit (.received client datagram route.backend)).forwardCall .direct
      client route.backend datagram env, ?_, rfl, rfl, rfl, ?_⟩
    · rw [State.forward_log, State.emit, List.append_assoc]
      rfl
    · refine (Relay.forward_destFor ..).trans ?_
      rw [Relay.destFor, Relay.sessionBackend, State.emit, hnew]
      rfl
  · cases hlife : managed.lifecycle with
    | running boot => exact (hnot boot hlife).elim
    | sleeping =>
      have hwoken := (hadmitted.woken managed hslot hlife).1
      rw [← step_datagram hserving] at hwoken
      exact ⟨_, _, _, hwoken, rfl, callsWhenReady_of_held hwoken rfl ExtTreeMap.getElem?_insert_self⟩
    | waking boot task =>
      have hheld := hadmitted.held managed boot task hslot hlife
      rw [← step_datagram hserving, if_pos hroom] at hheld
      exact ⟨_, boot, task, hheld, hlife,
        callsWhenReady_of_held hheld hlife ExtTreeMap.getElem?_insert_self⟩

theorem named_initial_is_relayed_or_kept_example :
    ∃ (waking : ManagedBackend) (boot : BootId) (task : Startup),
      ((⟨twoBackends, Sni.Rfc9001.crypto⟩ : Proxy).run 0
        ([] ++ [.datagram (.localhost 40000) namedInitial
          ⟨0, true, true⟩])).backends[SocketAddr.localhost 5522]? = some waking ∧
      waking.lifecycle = .waking boot task ∧
      (⟨twoBackends, Sni.Rfc9001.crypto⟩ : Proxy).CallsWhenReady 0
        ([] ++ [.datagram (.localhost 40000) namedInitial ⟨0, true, true⟩]) (.localhost 5522) boot
        (.localhost 40000) namedInitial := by
  have hmatch : Matches twoBackends Sni.Rfc9001.hello.serverName "example.com"
      { backend := .localhost 5522
        server := { ServerConfig.default with forwardStdin := false } } :=
    ⟨"example.com", Sni.Rfc9001.serverName_hello, ExtTreeMap.getElem?_insert_self,
      (normalize_eq_iff _ _).mp rfl⟩
  obtain ⟨managed, hslot, _, _, hwaits⟩ := named_initial_is_relayed_or_kept
    ⟨twoBackends, Sni.Rfc9001.crypto⟩ (by decide +kernel) Sni.Rfc9001.encrypt
    Sni.Rfc9001.decrypt_encrypt Sni.Rfc9001.length_encrypt Sni.Rfc9001.initial Sni.Rfc9001.keys
    Sni.Rfc9001.initial_keys Sni.Rfc9001.hello Sni.Rfc9001.agree_hello Sni.Rfc9001.covered_hello
    "example.com" _ hmatch namedInitial []
    (by rw [Sni.Rfc9001.packet_initial, List.append_nil]; rfl)
    (Nat.le_of_eq Sni.Rfc9001.length_clientInitial.symm) 0 [] (.localhost 40000) ⟨0, true, true⟩
    rfl rfl
  obtain ⟨route, _, _, rfl⟩ := slots_keyed hslot
  have hroom : ((∅ : HeldInitials).erase (.localhost 40000)).size < maxHeldClients := by decide
  exact hwaits (fun boot hlife => by cases hlife) hroom

end Sleepytale
