import Sleepytale.Lib.Infix
import Sleepytale.Lib.Machine
import Sleepytale.Net

/-!
# Scanning a server's output for its boot banner (`mirror_stdout`)

The task of `mirror_stdout` copies what it reads to the terminal and looks for
the marker in it. It keeps only the end of what it has read, one byte fewer than
the marker has, so that a marker split over several reads is still found.
-/

namespace Sleepytale.Infra

open Sleepytale.Net
open Sleepytale.Lib.Infix
open Sleepytale.Lib.Machine

/-- `BOOT_MARKER.as_bytes()`. -/
def bootMarker : Bytes := "Hytale Server Booted!".toList.map fun c => UInt8.ofNat c.toNat

/-- `BOOT_MARKER.len().saturating_sub(1)`. -/
def keep : Nat := bootMarker.length - 1

/-- The bytes of one successful read: at least one, and no more than fit the
buffer. -/
structure Chunk where
  bytes : Bytes
  nonempty : bytes ≠ []
  fits : bytes.length ≤ 8192

def findsMarker (tail : Bytes) : Bool :=
  (windows bootMarker.length tail).any fun window => window == bootMarker

/-- `tail.drain(..tail.len() - keep)`, if there is more than `keep`. -/
def trim (tail : Bytes) : Bytes :=
  if tail.length > keep then tail.drop (tail.length - keep) else tail

/-- The loop's variable, the shared flag, and how often `notify_waiters` was
called. -/
structure Mirror where
  tail : Bytes
  booted : Bool
  notifies : Nat
  deriving DecidableEq

namespace Mirror

def init : Mirror := ⟨[], false, 0⟩

/-- One turn of the loop, after a read and a write to the terminal that both
succeeded. The flag is swapped only if the marker is found. -/
def scan (m : Mirror) (chunk : Chunk) : Mirror :=
  let tail := m.tail ++ chunk.bytes
  if findsMarker tail then
    { tail := trim tail
      booted := true
      notifies := if m.booted then m.notifies else m.notifies + 1 }
  else { m with tail := trim tail }

end Mirror

theorem findsMarker_iff (tail : Bytes) : findsMarker tail = true ↔ bootMarker <:+: tail :=
  any_windows_iff bootMarker tail

theorem trim_eq (tail : Bytes) : trim tail = tail.rtake keep := by
  unfold trim
  split
  · rfl
  · next hshort =>
    have hzero : tail.length - keep = 0 := by omega
    rw [List.rtake, hzero, List.drop_zero]

theorem Mirror.scan_of_finds {m : Mirror} {chunk : Chunk}
    (h : findsMarker (m.tail ++ chunk.bytes) = true) :
    m.scan chunk = ⟨trim (m.tail ++ chunk.bytes), true,
      if m.booted then m.notifies else m.notifies + 1⟩ := if_pos h

theorem Mirror.scan_of_not_finds {m : Mirror} {chunk : Chunk}
    (h : findsMarker (m.tail ++ chunk.bytes) = false) :
    m.scan chunk = { m with tail := trim (m.tail ++ chunk.bytes) } :=
  if_neg (Bool.not_eq_true _ ▸ h)

/-- All bytes of some reads. -/
def stream (chunks : List Chunk) : Bytes := chunks.flatMap Chunk.bytes

/-- What the mirror knows of the bytes it has read. -/
structure Mirror.Knows (m : Mirror) (bytes : Bytes) : Prop where
  tail : m.tail = bytes.rtake keep
  booted : m.booted = true ↔ bootMarker <:+: bytes
  notifies : m.notifies = if m.booted then 1 else 0

theorem Mirror.knows_init : Mirror.init.Knows [] where
  tail := rfl
  booted := by decide
  notifies := rfl

theorem Mirror.knows_scan {m : Mirror} {bytes : Bytes} (h : m.Knows bytes) (chunk : Chunk) :
    (m.scan chunk).Knows (bytes ++ chunk.bytes) := by
  have htail : trim (m.tail ++ chunk.bytes) = (bytes ++ chunk.bytes).rtake keep := by
    rw [trim_eq, h.tail, rtake_append]
  have hfound : bootMarker <:+: bytes ++ chunk.bytes ↔
      bootMarker <:+: bytes ∨ findsMarker (m.tail ++ chunk.bytes) = true := by
    rw [findsMarker_iff, h.tail]
    exact infix_append_iff (by decide) bytes chunk.bytes
  cases hfinds : findsMarker (m.tail ++ chunk.bytes) with
  | true =>
    rw [Mirror.scan_of_finds hfinds]
    refine ⟨htail, ⟨fun _ => hfound.mpr (Or.inr hfinds), fun _ => rfl⟩, ?_⟩
    have hcount := h.notifies
    cases hbooted : m.booted with
    | true =>
      rw [hbooted] at hcount
      exact hcount
    | false =>
      rw [hbooted] at hcount
      show m.notifies + 1 = 1
      rw [hcount]
      rfl
  | false =>
    rw [Mirror.scan_of_not_finds hfinds]
    refine ⟨htail, ?_, h.notifies⟩
    show m.booted = true ↔ _
    rw [h.booted, hfound, hfinds]
    simp

/-- However the output is cut into reads, after each of them the flag is set
exactly if the marker is in the bytes read so far, and the waiters have been
notified once if so and never otherwise. -/
theorem banner_found_however_chunked (chunks : List Chunk) :
    ((run Mirror.scan Mirror.init chunks).booted = true ↔ bootMarker <:+: stream chunks) ∧
    ((run Mirror.scan Mirror.init chunks).notifies =
      if bootMarker <:+: stream chunks then 1 else 0) := by
  have hknows : (run Mirror.scan Mirror.init chunks).Knows (stream chunks) := by
    induction chunks using List.reverseRecOn with
    | nil => exact Mirror.knows_init
    | append_singleton chunks chunk ih =>
      have hstream : stream (chunks ++ [chunk]) = stream chunks ++ chunk.bytes := by
        simp [stream]
      rw [run_snoc, hstream]
      exact Mirror.knows_scan ih chunk
  refine ⟨hknows.booted, ?_⟩
  rw [hknows.notifies]
  exact if_congr hknows.booted rfl rfl

end Sleepytale.Infra
