import Mathlib.Algebra.Group.Nat.Defs
import Mathlib.Data.List.Nodup

/-!
# Addresses, datagrams and clock readings

`SocketAddr` follows `std::net::SocketAddr`: two families, each compared field
by field, every IPv4 address below every IPv6 one. A `Datagram` is what one
`recv` into a `MAX_DATAGRAM` buffer can produce, so its length bound is part of
the value. Clock readings and durations are naturals in one fixed unit.
-/

namespace Sleepytale.Net

abbrev Bytes := List UInt8

inductive SocketAddr where
  | v4 (ip : BitVec 32) (port : BitVec 16)
  | v6 (ip : BitVec 128) (port : BitVec 16) (flowinfo scopeId : BitVec 32)
  deriving DecidableEq, Repr

namespace SocketAddr

/-- `127.0.0.1` with the given port. -/
def localhost (port : BitVec 16) : SocketAddr := v4 0x7f000001 port

def port : SocketAddr → BitVec 16
  | v4 _ port => port
  | v6 _ port _ _ => port

/-- The position of an address in the derived order of the Rust type: the
family first, then ip, port, flow label and scope, each of fixed width. -/
def rank : SocketAddr → Nat
  | v4 ip port => ip.toNat * 2 ^ 16 + port.toNat
  | v6 ip port flowinfo scopeId =>
      2 ^ 48 + (((ip.toNat * 2 ^ 16 + port.toNat) * 2 ^ 32 + flowinfo.toNat) * 2 ^ 32 +
        scopeId.toNat)

theorem rank_injective : Function.Injective rank := by
  intro a b h
  cases a with
  | v4 ip port =>
    cases b with
    | v4 ip' port' =>
      simp only [rank] at h
      have hp := port.isLt
      have hp' := port'.isLt
      obtain rfl : ip = ip' := BitVec.eq_of_toNat_eq (by omega)
      obtain rfl : port = port' := BitVec.eq_of_toNat_eq (by omega)
      rfl
    | v6 ip' port' flow' scope' =>
      simp only [rank] at h
      have hi := ip.isLt
      have hp := port.isLt
      omega
  | v6 ip port flow scope =>
    cases b with
    | v4 ip' port' =>
      simp only [rank] at h
      have hi := ip'.isLt
      have hp := port'.isLt
      omega
    | v6 ip' port' flow' scope' =>
      simp only [rank] at h
      have hp := port.isLt
      have hp' := port'.isLt
      have hf := flow.isLt
      have hf' := flow'.isLt
      have hs := scope.isLt
      have hs' := scope'.isLt
      obtain rfl : ip = ip' := BitVec.eq_of_toNat_eq (by omega)
      obtain rfl : port = port' := BitVec.eq_of_toNat_eq (by omega)
      obtain rfl : flow = flow' := BitVec.eq_of_toNat_eq (by omega)
      obtain rfl : scope = scope' := BitVec.eq_of_toNat_eq (by omega)
      rfl

instance : Ord SocketAddr := ⟨compareOn rank⟩

instance : Std.TransOrd SocketAddr :=
  inferInstanceAs (Std.TransCmp (compareOn rank))

instance : Std.LawfulEqOrd SocketAddr where
  eq_of_compare h := rank_injective (Std.LawfulEqOrd.eq_of_compare (α := Nat) h)

end SocketAddr

/-- The receive buffers of `state.rs` and `relay.rs`, in bytes. -/
def maxDatagram : Nat := 64 * 1024

/-- One received UDP payload. -/
structure Datagram where
  bytes : Bytes
  fits : bytes.length ≤ maxDatagram
  deriving DecidableEq

/-- A reading of the monotonic clock. -/
abbrev Instant := Nat

abbrev Duration := Nat

end Sleepytale.Net
