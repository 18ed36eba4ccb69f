import Sleepytale.Hold
import Sleepytale.Routing
import Sleepytale.Sni.FirstPacket

/-!
# The wake filter and the SNI reader agree

Two parts of the proxy recognise an Initial on their own: `is_quic_initial` by
constants for the first bytes, `parse_long_header` by reading the header field by
field. A datagram of the size of an Initial in which a server name can be read is
one that the filter lets through, so a new client with such a datagram always gets
an answer from its backend's slot: its datagram is relayed, wakes the backend, or
waits with the ones before it.
-/

namespace Sleepytale

open Sleepytale.Net
open Sleepytale.Lib.Bytes
open Sleepytale.Lib.Maps
open Std (ExtTreeMap)

/-- The form bits and the packet type are the high half of the first byte. -/
theorem high_half {first type : UInt8} (hlong : first &&& 0xc0 = 0xc0)
    (htype : (first &&& 0x30) >>> 4 = type) : first &&& 0xf0 = 0xc0 + 16 * type := by
  have hbytes : ∀ n < 256, UInt8.ofNat n &&& 0xc0 = 0xc0 →
      UInt8.ofNat n &&& 0xf0 = 0xc0 + 16 * ((UInt8.ofNat n &&& 0x30) >>> (4 : UInt8)) := by
    decide +kernel
  have hbyte := hbytes first.toNat first.toNat_lt
  rw [UInt8.ofNat_toNat] at hbyte
  rw [← htype]
  exact hbyte hlong

theorem isQuicInitial_of_parseLongHeader {datagram : Bytes} {header : Sni.LongHeader}
    (hlen : minInitial ≤ datagram.length) (h : Sni.parseLongHeader datagram = some header) :
    isQuicInitial datagram = true := by
  obtain ⟨bytes, rest, rfl, _, _⟩ := Sni.exists_of_parseLongHeader h
  have hfirst : (bytes.encode ++ rest).headD 0 = bytes.first := rfl
  have hversion : ((bytes.encode ++ rest).drop 1).take 4 = beBytes 4 bytes.version := by
    simp only [Sni.HeaderBytes.encode, List.append_assoc, List.singleton_append, List.drop_one]
    exact List.take_left' (length_beBytes _ _)
  simp only [isQuicInitial, hfirst, hversion, hlen, decide_true, Bool.true_and]
  have htyped := bytes.typed
  simp only [Sni.initialType] at htyped
  split at htyped
  · next hv1 =>
    rw [hv1, high_half bytes.longForm (Option.some.inj htyped).symm]
    decide
  · split at htyped
    · next hv2 =>
      rw [hv2, high_half bytes.longForm (Option.some.inj htyped).symm]
      decide
    · cases htyped

theorem Proxy.isQuicInitial_of_peek {p : Proxy} {datagram : Datagram} {name : String}
    (hlen : minInitial ≤ datagram.bytes.length) (h : p.peek datagram = some name) :
    isQuicInitial datagram.bytes = true := by
  simp only [Proxy.peek, Sni.peekServerName, Option.bind_eq_bind, Option.bind_eq_some_iff] at h
  obtain ⟨header, hheader, _⟩ := h
  exact isQuicInitial_of_parseLongHeader hlen hheader

/-- The cap of a hold that is within it counts the other clients. -/
theorem ManagedBackend.hold_within {managed : ManagedBackend}
    (hcap : managed.held.size ≤ maxHeldClients) (client : SocketAddr) (datagram : Datagram) :
    (managed.hold client datagram).1 =
      if (managed.held.erase client).size < maxHeldClients then
        { managed with held := managed.held.insert client datagram }
      else managed := by
  have hsize : (managed.held.erase client).size =
      if client ∈ managed.held then managed.held.size - 1 else managed.held.size :=
    ExtTreeMap.size_erase
  unfold hold
  by_cases hm : client ∈ managed.held
  · have hroom : (managed.held.erase client).size < maxHeldClients := by
      rw [hsize, if_pos hm]
      unfold maxHeldClients at hcap ⊢
      omega
    rw [if_neg (fun h => h.1 hm), if_pos hroom]
  · rw [if_neg hm] at hsize
    rw [hsize]
    by_cases hfull : managed.held.size ≥ maxHeldClients
    · rw [if_pos ⟨hm, hfull⟩, if_neg (Nat.not_lt.mpr hfull)]
    · rw [if_neg (fun h => hfull h.2), if_pos (Nat.lt_of_not_le hfull)]

/-- No slot of a run ever holds more than `MAX_HELD_CLIENTS`. -/
theorem held_within (p : Proxy) (now : Instant) (events : List Event) {slot : SocketAddr}
    {managed : ManagedBackend} {boot : BootId} {task : Startup}
    (hslot : (p.run now events).backends[slot]? = some managed)
    (hlife : managed.lifecycle = .waking boot task) : managed.held.size ≤ maxHeldClients := by
  rw [((holds p now events).waking slot managed boot task hslot hlife).contents,
    (Lib.Capped.capped_spec maxHeldClients _).1]
  exact Nat.min_le_left _ _

/--
What `handle_datagram` makes of an Initial that a new client sends to a backend, by
what the slot of that backend does: the datagram is forwarded, wakes the backend
and is the one held, or is held unless eight others are. No other slot and no
other client's session is touched.
-/
structure Admitted (s s' : State) (client : SocketAddr) (datagram : Datagram)
    (env : Relay.ForwardEnv) (backend : SocketAddr) : Prop where
  forwarded : ∀ (managed : ManagedBackend) (boot : BootId), s.backends[backend]? = some managed →
    managed.lifecycle = .running boot →
    s' = (s.emit (.received client datagram backend)).forward .direct client backend datagram env
  woken : ∀ managed : ManagedBackend, s.backends[backend]? = some managed →
    managed.lifecycle = .sleeping →
    s'.backends[backend]? = some
        { managed with
          lifecycle := .waking s.boots .starting
          held := (∅ : HeldInitials).insert client datagram } ∧
      ∃ console, .spawned s.boots managed.config console client datagram ∈ s'.log
  held : ∀ (managed : ManagedBackend) (boot : BootId) (task : Startup),
    s.backends[backend]? = some managed → managed.lifecycle = .waking boot task →
    s'.backends[backend]? = some
      (if (managed.held.erase client).size < maxHeldClients then
        { managed with held := managed.held.insert client datagram }
      else managed)
  other_slots : ∀ slot, slot ≠ backend → s'.backends[slot]? = s.backends[slot]?
  other_sessions : ∀ other, other ≠ client →
    s'.relay.sessions[other]? = s.relay.sessions[other]?

theorem admitted_of_initial {p : Proxy} {s : State} {client : SocketAddr} {datagram : Datagram}
    (env : Relay.ForwardEnv) {managed : ManagedBackend}
    (hslot : s.backends[p.target s client datagram]? = some managed)
    (hconsistent : managed.Consistent)
    (hcap : managed.Waking → managed.held.size ≤ maxHeldClients)
    (hinitial : isQuicInitial datagram.bytes = true) :
    Admitted s (p.handleDatagram s client datagram env).1 client datagram env
      (p.target s client datagram) := by
  have hsame : ∀ {m : ManagedBackend}, s.backends[p.target s client datagram]? = some m →
      m = managed := by
    intro m hm
    rw [hslot] at hm
    exact (Option.some.inj hm).symm
  have hlives : ∀ {m : ManagedBackend} {life : Lifecycle},
      s.backends[p.target s client datagram]? = some m → m.lifecycle = life →
      managed.lifecycle = life := by
    intro m life hm hl
    rw [← hsame hm]
    exact hl
  simp only [Proxy.handleDatagram, State.emit, hslot]
  cases hlife : managed.lifecycle with
  | running boot =>
    simp only
    refine ⟨fun _ _ _ _ => rfl, fun m hm hl => ?_, fun m _ _ hm hl => ?_, fun _ _ => ?_,
      fun other hother => ?_⟩
    · cases hlife.symm.trans (hlives hm hl)
    · cases hlife.symm.trans (hlives hm hl)
    · rw [State.forward_backends]
    · rw [State.forward_relay]
      exact Relay.sessions_forward_other _ _ _ _ _ _ hother
  | sleeping =>
    have hempty : managed.held = ∅ :=
      hconsistent.held_empty (ManagedBackend.not_waking_of_sleeping hlife)
    simp only [hinitial, if_true, State.setSlot]
    refine ⟨fun m _ hm hl => ?_, fun m hm hl => ?_, fun m _ _ hm hl => ?_, fun slot hother => ?_,
      fun _ _ => rfl⟩
    · cases hlife.symm.trans (hlives hm hl)
    · obtain rfl := hsame hm
      refine ⟨?_, _, List.mem_append_right _ (List.mem_singleton.mpr rfl)⟩
      rw [ExtTreeMap.getElem?_insert_self, ManagedBackend.hold, hempty]
      rfl
    · cases hlife.symm.trans (hlives hm hl)
    · exact getElem?_insert_ne _ _ (Ne.symm hother)
  | waking boot task =>
    simp only [hinitial, if_true, State.setSlot]
    refine ⟨fun m _ hm hl => ?_, fun m hm hl => ?_, fun m _ _ hm hl => ?_, fun slot hother => ?_,
      fun _ _ => rfl⟩
    · cases hlife.symm.trans (hlives hm hl)
    · cases hlife.symm.trans (hlives hm hl)
    · obtain rfl := hsame hm
      rw [ExtTreeMap.getElem?_insert_self,
        ManagedBackend.hold_within (hcap ⟨boot, task, hlife⟩)]
    · exact getElem?_insert_ne _ _ (Ne.symm hother)

/--
The wake filter passes every datagram of at least 1200 bytes that the SNI reader
reads a name in. So in every state in which `handle_datagram` is called, such a
datagram of a client without a session is admitted at the backend that its name
resolves to, whatever that backend does.
-/
theorem wake_filter_agrees_with_sni (p : Proxy) (now : Instant) (events : List Event)
    (client : SocketAddr) (datagram : Datagram) (env : Relay.ForwardEnv) (name : String)
    (hserving : (p.run now events).phase = .serving)
    (hnew : (p.run now events).relay.sessions[client]? = none)
    (hlen : 1200 ≤ datagram.bytes.length) (hname : p.peek datagram = some name) :
    isQuicInitial datagram.bytes = true ∧
      ((p.run now events).backends[(p.routes.resolve (some name)).backend]?).isSome ∧
      (p.handleDatagram (p.run now events) client datagram env).2 = .ok () ∧
      Admitted (p.run now events) (p.handleDatagram (p.run now events) client datagram env).1
        client datagram env (p.routes.resolve (some name)).backend := by
  have htarget : p.target (p.run now events) client datagram =
      (p.routes.resolve (some name)).backend := by
    rw [Proxy.target, Relay.sessionBackend, hnew, hname]
    rfl
  have hinitial := Proxy.isQuicInitial_of_peek hlen hname
  have hsome := target_is_slot p now events client datagram
  obtain ⟨managed, hslot⟩ := Option.isSome_iff_exists.mp hsome
  have hloop : (p.run now events).phase.InLoop := by
    rw [hserving]
    trivial
  have hcap : managed.Waking → managed.held.size ≤ maxHeldClients := by
    intro hwaking
    obtain ⟨boot, task, hlife⟩ := hwaking
    exact held_within p now events hslot hlife
  have hadmitted := admitted_of_initial env hslot
    (slotsConsistent p now events hloop _ managed hslot) hcap hinitial
  rw [htarget] at hsome hadmitted
  exact ⟨hinitial, hsome, handleDatagram_ok p now events client datagram env, hadmitted⟩

/-- The packet of RFC 9001 wakes the backend of `example.com` and waits there. -/
theorem wake_filter_agrees_with_sni_example :
    ∃ managed : ManagedBackend,
      ((⟨twoBackends, Sni.Rfc9001.crypto⟩ : Proxy).handleDatagram
        ((⟨twoBackends, Sni.Rfc9001.crypto⟩ : Proxy).run 0 []) (.localhost 40000) namedInitial
        ⟨0, true, true⟩).1.backends[SocketAddr.localhost 5522]? = some managed ∧
      managed.lifecycle = .waking 0 .starting ∧
      managed.held[SocketAddr.localhost 40000]? = some namedInitial := by
  have hlen : 1200 ≤ namedInitial.bytes.length := Nat.le_of_eq Sni.Rfc9001.length_clientInitial.symm
  have hagree := wake_filter_agrees_with_sni ⟨twoBackends, Sni.Rfc9001.crypto⟩ 0 []
    (.localhost 40000) namedInitial ⟨0, true, true⟩ "example.com" rfl rfl hlen
    Sni.Rfc9001.peek_clientInitial
  have hroute : ((⟨twoBackends, Sni.Rfc9001.crypto⟩ : Proxy).routes.resolve
      (some "example.com")).backend = .localhost 5522 := by decide +kernel
  rw [hroute] at hagree
  obtain ⟨_, hsome, _, hadmitted⟩ := hagree
  obtain ⟨managed, hslot⟩ := Option.isSome_iff_exists.mp hsome
  have hsleeping : managed.lifecycle = .sleeping := by
    obtain ⟨route, _, _, rfl⟩ := slots_keyed hslot
    rfl
  refine ⟨_, (hadmitted.woken managed hslot hsleeping).1, rfl, ?_⟩
  exact ExtTreeMap.getElem?_insert_self

end Sleepytale
