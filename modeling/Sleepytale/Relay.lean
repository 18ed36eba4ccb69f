import Sleepytale.Net
import Sleepytale.Lib.Machine
import Sleepytale.Lib.Maps

/-!
# The blind UDP relay (`relay.rs`)

A session owns an upstream socket and the return-path task that reads it. Both
are named by their index in the lists of sockets ever bound and tasks ever
spawned, so a closed session's socket and task stay identifiable. What the
runtime decides is an argument: the clock reading, whether a socket can be
bound, whether a send succeeds. `arrivals` and `replies` record the traffic of
the return paths; no operation reads them back.
-/

namespace Sleepytale

open Sleepytale.Net
open Std (ExtTreeMap)

abbrev SocketId := Nat

abbrev TaskId := Nat

structure Session where
  upstream : SocketId
  backend : SocketAddr
  returnPath : TaskId
  lastSeen : Instant
  deriving DecidableEq

/-- A datagram that reached an upstream socket, numbered in order of arrival. -/
structure Arrival where
  number : Nat
  source : SocketAddr
  datagram : Datagram
  deriving DecidableEq

/-- An upstream socket: the session it was bound for, its local wildcard
address, and the datagrams waiting in its receive queue. -/
structure Upstream where
  client : SocketAddr
  backend : SocketAddr
  bind : SocketAddr
  inbox : List Arrival
  deriving DecidableEq

/-- Where a return path stands: in `recv`, in `send_to` with the datagram it
received, returned on an error, or aborted from outside. -/
inductive PathStatus where
  | receiving
  | sending (arrival : Arrival)
  | ended
  | aborted
  deriving DecidableEq

structure ReturnPath where
  client : SocketAddr
  upstream : SocketId
  status : PathStatus
  deriving DecidableEq

/-- `JoinHandle::abort`; a task that has returned is left as it is. -/
def ReturnPath.abort (task : ReturnPath) : ReturnPath :=
  match task.status with
  | .ended => task
  | _ => { task with status := .aborted }

/-- One `public.send_to` of a return path. -/
structure Reply where
  upstream : SocketId
  arrival : Arrival
  client : SocketAddr
  datagram : Datagram
  ok : Bool
  deriving DecidableEq

structure Relay where
  sessionTimeout : Duration
  sessions : ExtTreeMap SocketAddr Session
  sockets : List Upstream
  tasks : List ReturnPath
  arrivals : List (SocketId × Arrival)
  replies : List Reply

namespace Relay

def new (sessionTimeout : Duration) : Relay where
  sessionTimeout := sessionTimeout
  sessions := ∅
  sockets := []
  tasks := []
  arrivals := []
  replies := []

def sessionBackend (relay : Relay) (client : SocketAddr) : Option SocketAddr :=
  relay.sessions[client]?.map (·.backend)

/-- The wildcard address of the backend's family, port 0. -/
def bindFor : SocketAddr → SocketAddr
  | .v4 _ _ => .v4 0 0
  | .v6 _ _ _ _ => .v6 0 0 0 0

/-- Note traffic on a session the client already has. -/
def touch (relay : Relay) (client : SocketAddr) (session : Session) (now : Instant) : Relay :=
  { relay with sessions := relay.sessions.insert client { session with lastSeen := now } }

/-- Bind an upstream socket, spawn its return path and record the session. -/
def openSession (relay : Relay) (client backend : SocketAddr) (now : Instant) : Relay :=
  let upstream := relay.sockets.length
  let returnPath := relay.tasks.length
  { relay with
    sockets := relay.sockets ++ [⟨client, backend, bindFor backend, []⟩]
    tasks := relay.tasks ++ [⟨client, upstream, .receiving⟩]
    sessions := relay.sessions.insert client ⟨upstream, backend, returnPath, now⟩ }

/-- Existing sessions keep their selected backend; `backend` only matters when
opening a connection from a new client address. -/
def sessionFor (relay : Relay) (now : Instant) (bindOk : Bool) (client backend : SocketAddr) :
    Relay × Except String (SocketId × SocketAddr) :=
  match relay.sessions[client]? with
  | some session => (relay.touch client session now, .ok (session.upstream, session.backend))
  | none =>
      if bindOk then (relay.openSession client backend now, .ok (relay.sockets.length, backend))
      else (relay, .error "binding an upstream socket for a new session")

/-- What the runtime answers inside one `forward_to_backend`: the time that
passes before the clock is read, and how `bind` and `send_to` end. -/
structure ForwardEnv where
  lap : Duration
  bindOk : Bool
  sendOk : Bool
  deriving DecidableEq

/-- The outcome of one `forward_to_backend`: the socket it bound if it opened a
session, the address it handed the datagram to, and the result it returned. -/
structure Forwarding where
  relay : Relay
  opened : Option SocketId
  dest : Option SocketAddr
  result : Except String Unit

def forwardToBackend (relay : Relay) (now : Instant) (env : ForwardEnv)
    (client backend : SocketAddr) (datagram : Datagram) : Forwarding :=
  match relay.sessionFor now env.bindOk client backend with
  | (relay', .error error) => ⟨relay', none, none, .error error⟩
  | (relay', .ok (upstream, dest)) =>
      { relay := relay'
        opened := if relay.sessions[client]?.isNone then some upstream else none
        dest := some dest
        result :=
          if env.sendOk then .ok ()
          else .error ("relaying " ++ toString datagram.bytes.length ++ " bytes to the backend") }

/-- Keep the sessions that pass the test; abort the return path of the others. -/
def retain (relay : Relay) (keep : SocketAddr → Session → Bool) : Relay :=
  let closed := (relay.sessions.filter fun client session => !keep client session).toList.map
    (·.2.returnPath)
  { relay with
    sessions := relay.sessions.filter keep
    tasks := relay.tasks.mapIdx fun id task => if id ∈ closed then task.abort else task }

/-- Drop sessions that have gone quiet. Returns how many remain. -/
def reapIdle (relay : Relay) (now : Instant) : Relay × Nat :=
  let relay := relay.retain fun _ session =>
    !decide (now - session.lastSeen ≥ relay.sessionTimeout)
  (relay, relay.sessions.size)

def sessionCountFor (relay : Relay) (backend : SocketAddr) : Nat :=
  (relay.sessions.filter fun _ session => session.backend == backend).size

def dropSessionsFor (relay : Relay) (backend : SocketAddr) : Relay :=
  relay.retain fun _ session => !(session.backend == backend)

def clear (relay : Relay) : Relay := relay.retain fun _ _ => false

/-- A datagram from anywhere reaches an upstream socket and waits there. -/
def arrive (relay : Relay) (socket : SocketId) (source : SocketAddr) (datagram : Datagram) :
    Relay :=
  if socket < relay.sockets.length then
    let arrival : Arrival := ⟨relay.arrivals.length, source, datagram⟩
    { relay with
      sockets := relay.sockets.modify socket fun upstream =>
        { upstream with inbox := upstream.inbox ++ [arrival] }
      arrivals := relay.arrivals ++ [(socket, arrival)] }
  else relay

def setStatus (relay : Relay) (id : TaskId) (status : PathStatus) : Relay :=
  { relay with tasks := relay.tasks.modify id fun task => { task with status := status } }

/-- A return path's `upstream.recv` completes, with the oldest waiting datagram
whoever sent it, or with an error that ends the task. -/
def receive (relay : Relay) (id : TaskId) (ok : Bool) : Relay :=
  match relay.tasks[id]? with
  | some ⟨_, socket, .receiving⟩ =>
      if ok then
        match relay.sockets[socket]? with
        | some ⟨client, backend, bind, arrival :: inbox⟩ =>
            { relay.setStatus id (.sending arrival) with
              sockets := relay.sockets.set socket ⟨client, backend, bind, inbox⟩ }
        | _ => relay
      else relay.setStatus id .ended
  | _ => relay

/-- A return path's `public.send_to` completes; an error ends the task. -/
def reply (relay : Relay) (id : TaskId) (ok : Bool) : Relay :=
  match relay.tasks[id]? with
  | some ⟨client, socket, .sending arrival⟩ =>
      { relay.setStatus id (if ok then .receiving else .ended) with
        replies := relay.replies ++ [⟨socket, arrival, client, arrival.datagram, ok⟩] }
  | _ => relay

end Relay

/-- What happens on the upstream side: a datagram reaches a socket, or a return
path takes a step. -/
inductive PathAct where
  | arrive (socket : SocketId) (source : SocketAddr) (datagram : Datagram)
  | receive (id : TaskId) (ok : Bool)
  | reply (id : TaskId) (ok : Bool)

def Relay.path (relay : Relay) : PathAct → Relay
  | .arrive socket source datagram => relay.arrive socket source datagram
  | .receive id ok => relay.receive id ok
  | .reply id ok => relay.reply id ok

/-- One atomic step of the relay: an operation under the session lock, or a
step on the upstream side, which no lock orders. -/
inductive RelayAct where
  | forward (now : Instant) (env : Relay.ForwardEnv) (client backend : SocketAddr)
      (datagram : Datagram)
  | reap (now : Instant)
  | drop (backend : SocketAddr)
  | clear
  | path (act : PathAct)

def Relay.step (relay : Relay) : RelayAct → Relay
  | .forward now env client backend datagram =>
      (relay.forwardToBackend now env client backend datagram).relay
  | .reap now => (relay.reapIdle now).1
  | .drop backend => relay.dropSessionsFor backend
  | .clear => relay.clear
  | .path act => relay.path act

end Sleepytale
