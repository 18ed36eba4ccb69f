import Sleepytale.RouteTable

/-!
# The public socket and the backends beside it (`bind_public`)

`validate` tells the proxy's own address from a backend's by comparing socket
addresses field by field. The socket that `bind_public` makes takes more than the
address it is bound to: the unspecified address stands for every one of its
family, `[::]` is opened for both families, and an IPv4 address may be written as
an IPv6 one. What a system call answers is outside, so the calls that it refuses
are a parameter.
-/

namespace Sleepytale.Net

inductive IpAddr where
  | v4 (ip : BitVec 32)
  | v6 (ip : BitVec 128)
  deriving DecidableEq, Repr

namespace IpAddr

/-- `0.0.0.0` and `::`. -/
def isUnspecified : IpAddr → Bool
  | v4 ip => ip = 0
  | v6 ip => ip = 0

def isIpv4 : IpAddr → Bool
  | v4 _ => true
  | v6 _ => false

/-- `::ffff:a.b.c.d` for `a.b.c.d`. -/
def toIpv6Mapped (ip : BitVec 32) : BitVec 128 := ip.setWidth 128 + 0xffff00000000

def toIpv4Mapped (ip : BitVec 128) : Option (BitVec 32) :=
  if ip >>> 32 = 0xffff then some (ip.setWidth 32) else none

def toCanonical : IpAddr → IpAddr
  | v4 ip => v4 ip
  | v6 ip =>
      match toIpv4Mapped ip with
      | some mapped => v4 mapped
      | none => v6 ip

theorem toIpv4Mapped_eq_some_iff {ip : BitVec 128} {mapped : BitVec 32} :
    toIpv4Mapped ip = some mapped ↔ ip = toIpv6Mapped mapped := by
  rw [toIpv4Mapped, toIpv6Mapped, Option.ite_none_right_eq_some, Option.some.injEq]
  constructor
  · intro h
    obtain ⟨hhigh, hlow⟩ := h
    bv_omega
  · intro h
    constructor
    · bv_omega
    · bv_omega

/-- An IPv4 address has one other spelling. -/
theorem toCanonical_eq_v4_iff {ip : IpAddr} {a : BitVec 32} :
    ip.toCanonical = v4 a ↔ ip = v4 a ∨ ip = v6 (toIpv6Mapped a) := by
  cases ip with
  | v4 ip => simp [toCanonical]
  | v6 ip =>
    have hmapped : toIpv4Mapped ip = some a ↔ ip = toIpv6Mapped a := toIpv4Mapped_eq_some_iff
    simp only [toCanonical, reduceCtorEq, v6.injEq, false_or, ← hmapped]
    cases toIpv4Mapped ip with
    | none => simp
    | some mapped => simp

theorem isIpv4_toCanonical_v6 (ip : BitVec 128) :
    (v6 ip).toCanonical.isIpv4 = (toIpv4Mapped ip).isSome := by
  simp only [toCanonical]
  cases toIpv4Mapped ip with
  | none => rfl
  | some mapped => rfl

/-- Mapping to IPv4 tells IPv6 addresses apart. -/
theorem toCanonical_v6_eq_iff {ip ip' : BitVec 128} :
    (v6 ip).toCanonical = (v6 ip').toCanonical ↔ ip = ip' := by
  constructor
  · intro h
    cases hip : (v6 ip').toCanonical with
    | v4 a =>
      rw [hip, toCanonical_eq_v4_iff] at h
      rw [toCanonical_eq_v4_iff] at hip
      simp only [reduceCtorEq, v6.injEq, false_or] at h hip
      rw [h, hip]
    | v6 a =>
      rw [hip] at h
      simp only [toCanonical] at h hip
      split at h
      · cases h
      · split at hip
        · cases hip
        · rw [v6.inj h, v6.inj hip]
  · intro h
    rw [h]

end IpAddr

namespace SocketAddr

def ip : SocketAddr → IpAddr
  | v4 ip _ => .v4 ip
  | v6 ip _ _ _ => .v6 ip

def isIpv6 : SocketAddr → Bool
  | v4 _ _ => false
  | v6 _ _ _ _ => true

end SocketAddr

end Sleepytale.Net

namespace Sleepytale

open Sleepytale.Net
open Sleepytale.Net.IpAddr (toIpv6Mapped toIpv4Mapped)

inductive Domain where
  | ipv4
  | ipv6
  deriving DecidableEq, Repr

def Domain.forAddress : SocketAddr → Domain
  | .v4 _ _ => ipv4
  | .v6 _ _ _ _ => ipv6

/-- The calls of `bind_public` that may fail. -/
inductive SocketCall where
  | new
  | setOnlyV6
  | setNonblocking
  | bind
  | fromStd
  deriving DecidableEq, Repr

/-- What a failure is reported as. -/
def SocketCall.context (display : SocketAddr → String) (addr : SocketAddr) : SocketCall → String
  | new => "creating the public socket"
  | setOnlyV6 => "enabling IPv4-mapped clients on the public socket"
  | setNonblocking => "setting non-blocking"
  | bind => "binding " ++ display addr
  | fromStd => "handing the public socket to tokio"

/-- A bound datagram socket. `onlyV6` is `none` where the system's own setting stays. -/
structure PublicSocket where
  domain : Domain
  onlyV6 : Option Bool
  addr : SocketAddr
  deriving DecidableEq, Repr

def attempt (refuses : SocketCall → Bool) (call : SocketCall) : Except SocketCall Unit :=
  if refuses call then .error call else .ok ()

def bindPublic (refuses : SocketCall → Bool) (addr : SocketAddr) :
    Except SocketCall PublicSocket := do
  let domain := Domain.forAddress addr
  attempt refuses .new
  let onlyV6 ←
    (if addr.isIpv6 && addr.ip.isUnspecified then do
      attempt refuses .setOnlyV6
      return some false
    else return none)
  attempt refuses .setNonblocking
  attempt refuses .bind
  attempt refuses .fromStd
  return { domain, onlyV6, addr }

/-- What is sent to the endpoint reaches the socket. -/
def PublicSocket.Occupies (socket : PublicSocket) (endpoint : SocketAddr) : Prop :=
  socket.addr.port = endpoint.port ∧
    (socket.addr.ip.toCanonical = endpoint.ip.toCanonical ∨
      socket.addr.ip.toCanonical = .v4 0 ∧ endpoint.ip.toCanonical.isIpv4 = true ∨
      socket.addr.ip = .v6 0 ∧
        (endpoint.ip.toCanonical.isIpv4 = false ∨ socket.onlyV6 = some false))

instance (socket : PublicSocket) (endpoint : SocketAddr) : Decidable (socket.Occupies endpoint) :=
  inferInstanceAs (Decidable (_ ∧ (_ ∨ _ ∧ _ ∨ _ ∧ (_ ∨ _))))

/-- A socket on `[::]` was opened for both families. -/
theorem bindPublic_ok {refuses : SocketCall → Bool} {addr : SocketAddr} {socket : PublicSocket}
    (h : bindPublic refuses addr = .ok socket) :
    socket.addr = addr ∧ (addr.ip = .v6 0 → socket.onlyV6 = some false) := by
  simp only [bindPublic, bind_ok] at h
  obtain ⟨_, _, onlyV6, honly, _, _, _, _, _, _, hsocket⟩ := h
  obtain rfl := Except.ok.inj hsocket
  refine ⟨rfl, fun hip => ?_⟩
  have hwild : (addr.isIpv6 && addr.ip.isUnspecified) = true := by
    cases addr with
    | v4 ip port => cases hip
    | v6 ip port flowinfo scopeId =>
      obtain rfl := IpAddr.v6.inj hip
      rfl
  rw [if_pos hwild, bind_ok] at honly
  obtain ⟨_, _, honly⟩ := honly
  exact (Except.ok.inj honly).symm

/-- The default backend's address and those of the routes. -/
def Config.backends (config : Config) : List SocketAddr :=
  config.backend :: config.routes.toList.map (·.2.backend)

theorem checkRoutes_apart {listen : SocketAddr} {routes : List (String × BackendConfig)}
    {names : Std.ExtTreeMap String String} {backends : Std.ExtTreeMap SocketAddr Owner}
    (h : checkRoutes listen routes names backends = .ok ()) :
    ∀ route ∈ routes, route.2.backend ≠ listen := by
  induction routes generalizing names backends with
  | nil => exact fun route hr => absurd hr List.not_mem_nil
  | cons route rest ih =>
    obtain ⟨name, route⟩ := route
    obtain ⟨hlisten, _, _, hrest⟩ := checkRoutes_cons_ok h
    exact List.forall_mem_cons.mpr ⟨hlisten, ih hrest⟩

/-- What the two checks of `validate` against the listen address come to. -/
theorem Config.backends_apart {config : Config} (h : config.validate = .ok ()) :
    ∀ backend ∈ config.backends, backend ≠ config.listen := by
  simp only [Config.validate, bind_unit_ok, ensure_ok] at h
  obtain ⟨hlisten, _, _, _, hroutes, _⟩ := h
  intro backend hm
  rcases List.mem_cons.mp hm with rfl | hm
  · exact hlisten.symm
  · obtain ⟨route, hr, rfl⟩ := List.mem_map.mp hm
    exact checkRoutes_apart hroutes route hr

/--
The backends on the listen port that a comparison field by field lets through, by
the families of the two addresses: behind an unspecified address, under the other
spelling of an IPv4 address, and under another flow label or scope.
-/
def SlipsPast : SocketAddr → SocketAddr → Prop
  | .v4 ip port, .v4 _ port' => port = port' ∧ ip = 0
  | .v4 ip port, .v6 ip' port' _ _ =>
      port = port' ∧ (ip' = toIpv6Mapped ip ∨ ip = 0 ∧ (toIpv4Mapped ip').isSome)
  | .v6 ip port _ _, .v4 ip' port' =>
      port = port' ∧ (ip = toIpv6Mapped ip' ∨ ip = toIpv6Mapped 0 ∨ ip = 0)
  | .v6 ip port flowinfo scopeId, .v6 ip' port' flowinfo' scopeId' =>
      port = port' ∧ (ip = ip' ∧ (flowinfo ≠ flowinfo' ∨ scopeId ≠ scopeId') ∨
        ip = toIpv6Mapped 0 ∧ (toIpv4Mapped ip').isSome ∨ ip = 0)

instance : DecidableRel SlipsPast
  | .v4 _ _, .v4 _ _ => inferInstanceAs (Decidable (_ ∧ _))
  | .v4 _ _, .v6 _ _ _ _ => inferInstanceAs (Decidable (_ ∧ (_ ∨ _ ∧ _)))
  | .v6 _ _ _ _, .v4 _ _ => inferInstanceAs (Decidable (_ ∧ (_ ∨ _ ∨ _)))
  | .v6 _ _ _ _, .v6 _ _ _ _ => inferInstanceAs (Decidable (_ ∧ (_ ∧ (_ ∨ _) ∨ _ ∧ _ ∨ _)))

/-- What the socket takes, by the listen address alone. -/
theorem occupies_iff {refuses : SocketCall → Bool} {listen backend : SocketAddr}
    {socket : PublicSocket} (h : bindPublic refuses listen = .ok socket) :
    socket.Occupies backend ↔ listen.port = backend.port ∧
      (listen.ip.toCanonical = backend.ip.toCanonical ∨
        listen.ip.toCanonical = .v4 0 ∧ backend.ip.toCanonical.isIpv4 = true ∨
        listen.ip = .v6 0) := by
  obtain ⟨rfl, hdual⟩ := bindPublic_ok h
  refine and_congr_right fun _ => or_congr_right (or_congr_right ?_)
  exact and_iff_left_of_imp fun hip => .inr (hdual hip)

/-- Every pair of families, with the two spellings of an IPv4 address in each. -/
theorem occupies_iff_slipsPast {refuses : SocketCall → Bool} {listen backend : SocketAddr}
    {socket : PublicSocket} (h : bindPublic refuses listen = .ok socket)
    (hne : backend ≠ listen) : socket.Occupies backend ↔ SlipsPast listen backend := by
  rw [occupies_iff h, IpAddr.toCanonical_eq_v4_iff]
  cases listen with
  | v4 ip port =>
    have hsame : (SocketAddr.v4 ip port).ip.toCanonical = backend.ip.toCanonical ↔
        backend.ip = .v4 ip ∨ backend.ip = .v6 (toIpv6Mapped ip) :=
      eq_comm.trans IpAddr.toCanonical_eq_v4_iff
    rw [hsame]
    cases backend with
    | v4 ip' port' =>
      simp only [SlipsPast, SocketAddr.port, SocketAddr.ip, IpAddr.toCanonical, IpAddr.isIpv4,
        IpAddr.v4.injEq, reduceCtorEq, or_false, and_true]
      refine and_congr_right fun hport => or_iff_right fun hip => hne ?_
      rw [hport, hip]
    | v6 ip' port' flowinfo' scopeId' =>
      simp only [SlipsPast, SocketAddr.port, SocketAddr.ip, IpAddr.isIpv4_toCanonical_v6,
        IpAddr.v4.injEq, IpAddr.v6.injEq, reduceCtorEq, false_or, or_false]
  | v6 ip port flowinfo scopeId =>
    cases backend with
    | v4 ip' port' =>
      have hsame : (IpAddr.v6 ip).toCanonical = (IpAddr.v4 ip').toCanonical ↔
          ip = toIpv6Mapped ip' := by
        refine IpAddr.toCanonical_eq_v4_iff.trans ?_
        simp only [reduceCtorEq, IpAddr.v6.injEq, false_or]
      simp only [SlipsPast, SocketAddr.port, SocketAddr.ip, hsame]
      simp only [IpAddr.toCanonical, IpAddr.isIpv4, IpAddr.v6.injEq, reduceCtorEq, false_or,
        and_true]
    | v6 ip' port' flowinfo' scopeId' =>
      simp only [SlipsPast, SocketAddr.port, SocketAddr.ip, IpAddr.toCanonical_v6_eq_iff,
        IpAddr.isIpv4_toCanonical_v6, IpAddr.v6.injEq, reduceCtorEq, false_or]
      refine and_congr_right fun hport => or_congr_left ?_
      -- The same IPv6 address with the same flow label and scope is the listen address.
      refine (and_iff_left_of_imp fun hip => ?_).symm
      by_contra hsame
      obtain ⟨hflow, hscope⟩ := not_or.mp hsame
      refine hne ?_
      rw [hport, hip, not_not.mp hflow, not_not.mp hscope]

/--
An accepted configuration keeps every backend off the public socket exactly if no
backend slips past the comparison.
-/
theorem no_backend_occupied_iff (config : Config) (h : config.validate = .ok ())
    (refuses : SocketCall → Bool) (socket : PublicSocket)
    (hsocket : bindPublic refuses config.listen = .ok socket) :
    (∀ backend ∈ config.backends, ¬ socket.Occupies backend) ↔
      ∀ backend ∈ config.backends, ¬ SlipsPast config.listen backend := by
  refine forall₂_congr fun backend hm => not_congr ?_
  exact occupies_iff_slipsPast hsocket (config.backends_apart h backend hm)

/-- The socket that the default listen address gives. -/
def dualStack : PublicSocket where
  domain := .ipv6
  onlyV6 := some false
  addr := .v6 0 defaultPort 0 0

/-- The default backend is on a port of its own. -/
theorem no_backend_occupied_iff_default :
    Config.default.validate = .ok () ∧
      bindPublic (fun _ => false) Config.default.listen = .ok dualStack ∧
      ∀ backend ∈ Config.default.backends, ¬ dualStack.Occupies backend := by
  have hvalidate : Config.default.validate = .ok () := by decide +kernel
  have hsocket : bindPublic (fun _ => false) Config.default.listen = .ok dualStack := rfl
  refine ⟨hvalidate, hsocket, ?_⟩
  rw [no_backend_occupied_iff Config.default hvalidate _ _ hsocket]
  decide +kernel

/-- The default configuration with the server on the public port of the loopback address. -/
def sharedPort : Config := { Config.default with backend := .localhost defaultPort }

theorem backend_on_public_socket :
    sharedPort.validate = .ok () ∧
      bindPublic (fun _ => false) sharedPort.listen = .ok dualStack ∧
      ∃ backend ∈ sharedPort.backends, dualStack.Occupies backend := by
  refine ⟨by decide +kernel, rfl, .localhost defaultPort, List.mem_cons_self, ?_⟩
  decide +kernel

end Sleepytale
