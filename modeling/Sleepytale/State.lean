import Sleepytale.Config
import Sleepytale.Knock
import Sleepytale.Relay
import Sleepytale.Sni.Peek

/-!
# Lifecycle management for all routed backends (`state.rs`)

The state is what `Proxy::run` owns, with the position of its loop (`Phase`) and
a log of what it did. An event is one thing that can happen: a datagram handed
to `handle_datagram`, the start of a tick, one half of the tick's work on its
next slot, the shutdown signal and the work on each slot after it, progress of a
startup task, time passing, or a step on the upstream side of the relay. Startup
tasks, return paths and the clock run between any two of them, also inside a
tick. What outside code answers (has the backend exited, did `stop` succeed) is
part of the event. An event that is not possible in a state leaves it unchanged.

A startup task and the adapter it builds share one number, their `BootId`.
-/

namespace Sleepytale

open Sleepytale.Net
open Std (ExtTreeMap)

def maxHeldClients : Nat := 8

/-- Client Initials received while a backend was booting, newest per address. -/
abbrev HeldInitials := ExtTreeMap SocketAddr Datagram

abbrev BootId := Nat

/-- How a startup task ended: with the ready adapter, an error, or a panic. -/
inductive StartupResult where
  | ready
  | failed
  | panicked
  deriving DecidableEq

/-- A startup task: `start` has not returned yet, it returned `Ok` and
`wait_until_ready` runs, or the task has finished. -/
inductive Startup where
  | starting
  | waiting
  | finished (result : StartupResult)
  deriving DecidableEq

inductive Lifecycle where
  | sleeping
  | waking (boot : BootId) (task : Startup)
  | running (boot : BootId)
  deriving DecidableEq

structure ManagedBackend where
  config : BackendConfig
  lifecycle : Lifecycle
  emptySince : Option Instant
  held : HeldInitials

namespace ManagedBackend

def new (config : BackendConfig) : ManagedBackend where
  config := config
  lifecycle := .sleeping
  emptySince := none
  held := ∅

/-- Hold a client's Initial until this backend is ready, reporting whether it
was kept. -/
def hold (managed : ManagedBackend) (client : SocketAddr) (datagram : Datagram) :
    ManagedBackend × Bool :=
  if client ∉ managed.held ∧ managed.held.size ≥ maxHeldClients then (managed, false)
  else ({ managed with held := managed.held.insert client datagram }, true)

end ManagedBackend

/-- Who called `forward_to_backend`: `handle_datagram` with the datagram it just
received, or `deliver_held` with one held in a slot during a boot. -/
inductive Origin where
  | direct
  | held (slot : SocketAddr) (boot : BootId)
  deriving DecidableEq

/-- One call of `forward_to_backend` and what came of it. -/
structure Forward where
  origin : Origin
  client : SocketAddr
  backend : SocketAddr
  datagram : Datagram
  time : Instant
  opened : Option SocketId
  dest : Option SocketAddr
  ok : Bool
  deriving DecidableEq

/-- What `has_exited` answered: `Ok(false)`, `Ok(true)` or an error. -/
inductive ExitCheck where
  | alive
  | exited
  | error
  deriving DecidableEq

inductive Effect where
  | received (client : SocketAddr) (datagram : Datagram) (target : SocketAddr)
  | rejected (client : SocketAddr) (error : String)
  | spawned (boot : BootId) (config : BackendConfig) (console : Bool) (client : SocketAddr)
      (datagram : Datagram)
  | forwarded (call : Forward)
  | started (boot : BootId)
  | consumed (boot : BootId) (slot : SocketAddr) (result : StartupResult)
  | checked (boot : BootId) (slot : SocketAddr) (answer : ExitCheck)
  | idleStop (boot : BootId) (slot : SocketAddr) (time : Instant)
  | stopped (boot : BootId) (ok : Bool)
  | abandoned (boot : BootId)
  | dropped (boot : BootId)
  deriving DecidableEq

/-- Where the loop of `Proxy::run` is: between two iterations, in a tick with
these slots to go, in a tick before the second half of its work on a slot, in
the shutdown loop with these slots to go, or returned. -/
inductive Phase where
  | serving
  | ticking (rest : List SocketAddr)
  | checking (slot : SocketAddr) (rest : List SocketAddr)
  | draining (rest : List SocketAddr)
  | finished
  deriving DecidableEq

def Phase.tick : List SocketAddr → Phase
  | [] => serving
  | rest => ticking rest

def Phase.drain : List SocketAddr → Phase
  | [] => finished
  | rest => draining rest

structure State where
  now : Instant
  relay : Relay
  backends : ExtTreeMap SocketAddr ManagedBackend
  boots : Nat
  phase : Phase
  log : List Effect

/-- The order in which `deliver_held` walks a hash map, whatever it is. -/
structure HeldOrder where
  list : HeldInitials → List (SocketAddr × Datagram)
  perm : ∀ held, (list held).Perm held.toList

/-- What the runtime answers in the first half of the tick's work on a slot. -/
structure FinishEnv where
  order : HeldOrder
  forward : SocketAddr → Relay.ForwardEnv
  readyLap : Duration

/-- What outside code answers in the second half, and the time that passes
before each of its two readings of the clock. -/
structure CheckEnv where
  exitCheck : ExitCheck
  stopOk : Bool
  emptyLap : Duration
  elapsedLap : Duration

inductive Event where
  | datagram (client : SocketAddr) (datagram : Datagram) (env : Relay.ForwardEnv)
  | tickStart
  | finishSlot (env : FinishEnv)
  | checkSlot (env : CheckEnv)
  | shutdown
  | drainSlot (stopOk : Bool)
  | giveUp
  | started (slot : SocketAddr)
  | startupDone (slot : SocketAddr) (result : StartupResult)
  | advance (lap : Duration)
  | path (act : PathAct)

namespace State

def emit (s : State) (effect : Effect) : State := { s with log := s.log ++ [effect] }

def advance (s : State) (lap : Duration) : State := { s with now := s.now + lap }

def setSlot (s : State) (slot : SocketAddr) (managed : ManagedBackend) : State :=
  { s with backends := s.backends.insert slot managed }

/-- `relay.forward_to_backend(client, backend, datagram).await`; both callers
only log its result. -/
def forward (s : State) (origin : Origin) (client backend : SocketAddr) (datagram : Datagram)
    (env : Relay.ForwardEnv) : State :=
  let s := s.advance env.lap
  let f := s.relay.forwardToBackend s.now env client backend datagram
  { s with
    relay := f.relay
    log := s.log ++ [.forwarded ⟨origin, client, backend, datagram, s.now, f.opened, f.dest,
      f.result.isOk⟩] }

/-- Deliver the Initials held while a backend was booting. -/
def deliverHeld (s : State) (backend : SocketAddr) (boot : BootId)
    (held : List (SocketAddr × Datagram)) (env : SocketAddr → Relay.ForwardEnv) : State :=
  held.foldl (fun s entry =>
    s.forward (.held backend boot) entry.1 backend entry.2 (env entry.1)) s

/-- The first half of the tick's work on a slot: take over a finished startup. -/
def finishStartup (s : State) (slot : SocketAddr) (env : FinishEnv) : State :=
  match s.backends[slot]? with
  | none => s
  | some managed =>
      let addr := managed.config.backend
      match managed.lifecycle with
      | .waking boot (.finished .ready) =>
          let s := (s.emit (.consumed boot addr .ready)).advance env.readyLap
          let s := s.setSlot slot
            { managed with lifecycle := .running boot, emptySince := some s.now, held := ∅ }
          s.deliverHeld addr boot (env.order.list managed.held) env.forward
      | .waking boot (.finished result) =>
          (s.emit (.consumed boot addr result)).setSlot slot
            { managed with lifecycle := .sleeping, held := ∅ }
      | _ => s

/-- The second half: notice that a running backend exited or has gone idle. -/
def checkRunning (s : State) (idleTimeout : Duration) (slot : SocketAddr) (env : CheckEnv) :
    State :=
  match s.backends[slot]? with
  | none => s
  | some managed =>
      let addr := managed.config.backend
      match managed.lifecycle with
      | .running boot =>
          let s := s.emit (.checked boot addr env.exitCheck)
          match env.exitCheck with
          | .exited =>
              let s := (s.setSlot slot { managed with lifecycle := .sleeping, emptySince := none }).emit
                (.dropped boot)
              { s with relay := s.relay.dropSessionsFor addr }
          | .error => s
          | .alive =>
              if s.relay.sessionCountFor addr = 0 then
                let s := s.advance env.emptyLap
                let since := managed.emptySince.getD s.now
                let s := s.advance env.elapsedLap
                if s.now - since ≥ idleTimeout then
                  (((s.setSlot slot
                    { managed with lifecycle := .sleeping, emptySince := none }).emit
                      (.idleStop boot addr s.now)).emit (.stopped boot env.stopOk)).emit
                        (.dropped boot)
                else s.setSlot slot { managed with emptySince := some since }
              else s.setSlot slot { managed with emptySince := none }
      | _ => s

/-- A startup task's `start` returned `Ok`. -/
def startReturned (s : State) (slot : SocketAddr) : State :=
  match s.backends[slot]? with
  | some managed =>
      match managed.lifecycle with
      | .waking boot .starting =>
          (s.setSlot slot { managed with lifecycle := .waking boot .waiting }).emit (.started boot)
      | _ => s
  | none => s

/-- A startup task returns or panics. Anything but success drops the adapter
inside the task; success needs `start` to have returned. -/
def startupDone (s : State) (slot : SocketAddr) (result : StartupResult) : State :=
  match s.backends[slot]? with
  | some managed =>
      match managed.lifecycle, result with
      | .waking boot .waiting, .ready =>
          s.setSlot slot { managed with lifecycle := .waking boot (.finished .ready) }
      | .waking _ .starting, .ready => s
      | .waking boot .waiting, result | .waking boot .starting, result =>
          (s.setSlot slot { managed with lifecycle := .waking boot (.finished result) }).emit
            (.dropped boot)
      | _, _ => s
  | none => s

/-- The shutdown loop's work on a slot, once the slot has something to act on. -/
def drainSlot (s : State) (slot : SocketAddr) (rest : List SocketAddr) (stopOk : Bool) : State :=
  match s.backends[slot]? with
  | none => { s with phase := .drain rest }
  | some managed =>
      match managed.lifecycle with
      | .running boot | .waking boot (.finished .ready) =>
          { ((s.setSlot slot { managed with lifecycle := .sleeping }).emit
              (.stopped boot stopOk)).emit (.dropped boot) with phase := .drain rest }
      | .waking _ (.finished _) =>
          { s.setSlot slot { managed with lifecycle := .sleeping } with phase := .drain rest }
      | .waking _ _ => s
      | .sleeping => { s with phase := .drain rest }

/-- `shutdown_grace` runs out while the startup task is unfinished. -/
def giveUp (s : State) (slot : SocketAddr) (rest : List SocketAddr) : State :=
  match s.backends[slot]? with
  | some managed =>
      match managed.lifecycle with
      | .waking boot .starting | .waking boot .waiting =>
          { (s.setSlot slot { managed with lifecycle := .sleeping }).emit (.abandoned boot) with
            phase := .drain rest }
      | _ => s
  | none => s

end State

/-- The proxy: its configuration and the cryptographic crates it is built with. -/
structure Proxy where
  config : Config
  crypto : Sni.Crypto

namespace Proxy

def routes (p : Proxy) : Routes := p.config.toRoutes

def peek (p : Proxy) (datagram : Datagram) : Option String :=
  Sni.peekServerName p.crypto datagram.bytes

/-- Where a datagram goes: the client's pinned session, or else the SNI route. -/
def target (p : Proxy) (s : State) (client : SocketAddr) (datagram : Datagram) : SocketAddr :=
  (s.relay.sessionBackend client).getD (p.routes.resolve (p.peek datagram)).backend

/-- `console()` starts a reader exactly when some backend wants stdin. -/
def console (p : Proxy) : Bool :=
  (p.config.server :: p.config.routes.toList.map (·.2.server)).any (·.forwardStdin)

def handleDatagram (p : Proxy) (s : State) (client : SocketAddr) (datagram : Datagram)
    (env : Relay.ForwardEnv) : State × Except String Unit :=
  let target := p.target s client datagram
  let s := s.emit (.received client datagram target)
  match s.backends[target]? with
  | none => (s, .error "selected backend is not configured")
  | some managed =>
      match managed.lifecycle with
      | .running _ => (s.forward .direct client target datagram env, .ok ())
      | .sleeping =>
          if isQuicInitial datagram.bytes then
            let boot := s.boots
            let console := managed.config.server.forwardStdin && p.console
            let waking := { managed with lifecycle := .waking boot .starting }
            (({ s with boots := boot + 1 }.setSlot target (waking.hold client datagram).1).emit
              (.spawned boot managed.config console client datagram), .ok ())
          else (s, .ok ())
      | .waking _ _ =>
          if isQuicInitial datagram.bytes then
            (s.setSlot target (managed.hold client datagram).1, .ok ())
          else (s, .ok ())

def slots (p : Proxy) : ExtTreeMap SocketAddr ManagedBackend :=
  ExtTreeMap.ofList (p.routes.all.map fun route => (route.backend, ManagedBackend.new route))

/-- The state in which the loop of `run` starts, at clock reading `now`. -/
def init (p : Proxy) (now : Instant) : State where
  now := now
  relay := Relay.new p.config.sessionTimeout
  backends := p.slots
  boots := 0
  phase := .serving
  log := []

def step (p : Proxy) (s : State) : Event → State
  | .datagram client datagram env =>
      if s.phase = .serving then
        match p.handleDatagram s client datagram env with
        | (s, .ok ()) => s
        | (s, .error error) => s.emit (.rejected client error)
      else s
  | .tickStart =>
      if s.phase = .serving then
        { s with relay := (s.relay.reapIdle s.now).1, phase := .tick s.backends.keys }
      else s
  | .finishSlot env =>
      match s.phase with
      | .ticking (slot :: rest) => { s.finishStartup slot env with phase := .checking slot rest }
      | _ => s
  | .checkSlot env =>
      match s.phase with
      | .checking slot rest =>
          { s.checkRunning p.config.idleTimeout slot env with phase := .tick rest }
      | _ => s
  | .shutdown =>
      if s.phase = .serving then
        { s with relay := s.relay.clear, phase := .drain s.backends.keys }
      else s
  | .drainSlot stopOk =>
      match s.phase with
      | .draining (slot :: rest) => s.drainSlot slot rest stopOk
      | _ => s
  | .giveUp =>
      match s.phase with
      | .draining (slot :: rest) => s.giveUp slot rest
      | _ => s
  | .started slot => s.startReturned slot
  | .startupDone slot result => s.startupDone slot result
  | .advance lap => s.advance lap
  | .path act => { s with relay := s.relay.path act }

/-- The state after the events of a run, oldest first. -/
def run (p : Proxy) (now : Instant) (events : List Event) : State :=
  Lib.Machine.run p.step (p.init now) events

end Proxy

end Sleepytale
