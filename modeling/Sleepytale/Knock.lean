import Sleepytale.Net

/-!
# Recognising a client that opens a connection (`knock.rs`)

The slices of the source stand behind the length test, so they exist wherever
they are taken.
-/

namespace Sleepytale

open Sleepytale.Net

def minInitial : Nat := 1200

def quicV1 : Bytes := [0x00, 0x00, 0x00, 0x01]

def quicV2 : Bytes := [0x6b, 0x33, 0x43, 0xcf]

/-- Does this datagram look like a client opening a QUIC v1 or v2 connection? -/
def isQuicInitial (datagram : Bytes) : Bool :=
  let first := datagram.headD 0
  let version := (datagram.drop 1).take 4
  decide (minInitial ≤ datagram.length) &&
    ((version == quicV1 && first &&& 0xf0 == 0xc0) ||
      (version == quicV2 && first &&& 0xf0 == 0xd0))

/-- `initial()` of the source's tests: a header that is recognised, padded to the
1200 bytes a real client sends, in which no server name can be read. -/
def testInitial : Datagram where
  bytes := [0xc3, 0x00, 0x00, 0x00, 0x01] ++ List.replicate 1195 0
  fits := by decide +kernel

end Sleepytale
