import Sleepytale.Lib.Machine
import Sleepytale.Config
import Sleepytale.RouteTable
import Sleepytale.PublicSocket
import Sleepytale.Lib.Bytes
import Sleepytale.Sni.Reader
import Sleepytale.Knock
import Sleepytale.Sni.Peek
import Sleepytale.Sni.Rfc9001
import Sleepytale.Relay
import Sleepytale.State
import Sleepytale.RelayInvariant
import Sleepytale.ReturnPath
import Sleepytale.Transitions
import Sleepytale.Lifecycle
import Sleepytale.Routing
import Sleepytale.Lib.Capped
import Sleepytale.Boots
import Sleepytale.Adapters
import Sleepytale.Hold
import Sleepytale.Idle
import Sleepytale.Sni.Cursor
import Sleepytale.Sni.FirstPacket
import Sleepytale.Sni.Frames
import Sleepytale.Lib.Ticks
import Sleepytale.Sni.Progress
import Sleepytale.Sni.Hello
import Sleepytale.Sni.Grammar
import Sleepytale.Sni.Initial
import Sleepytale.Lib.Panic
import Sleepytale.Sni.Checked
import Sleepytale.Lib.Infix
import Sleepytale.Infra.Mirror
import Sleepytale.Infra.Readiness
import Sleepytale.Infra.Console
import Sleepytale.Infra.Stop
import Sleepytale.Apart
import Sleepytale.Scoping
import Sleepytale.Wake
import Sleepytale.IdleClock
import Sleepytale.Lib.Channel
import Sleepytale.Traffic
import Sleepytale.Infra.Launch
import Sleepytale.System
import Sleepytale.Shutdown
import Sleepytale.Lib.Refinement
import Sleepytale.Lib.Service
import Sleepytale.Host
import Sleepytale.Validation
import Sleepytale.ConsoleOwner
import Sleepytale.Expiry
import Sleepytale.Turns
import Sleepytale.Takeover
import Sleepytale.Delivery
