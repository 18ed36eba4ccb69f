import Sleepytale.Infra.Readiness
import Sleepytale.Infra.Stop
import Sleepytale.State

/-!
# Launching a server (`create_backend`, `start`, `wait_until_ready`, `has_exited`)

The adapter as the startup task of `handle_datagram` and later the proxy use it.
`Readiness` is what the adapter shares with the task that mirrors the server's
output; the child's exit is the operating system's doing. How a socket address
is shown is the formatting of the standard library. `stop` itself is about the
processes of the child's group: `stopping` is the adapter as it finds it.
-/

namespace Sleepytale

open Sleepytale.Net

/-- Full arguments for this server, with its private bind address appended. -/
def BackendConfig.serverArgs (display : SocketAddr → String) (backend : BackendConfig) :
    List String :=
  backend.server.args ++ ["-b", display backend.backend]

namespace Infra.Launch

inductive Stdio where
  | piped
  | null
  deriving DecidableEq

/-- `tokio::process::Command` as `start` fills it in. -/
structure Command where
  program : String
  args : List String
  currentDir : String
  stdin : Stdio
  stdout : Stdio
  stderr : Stdio
  killOnDrop : Bool
  processGroup : Option Nat
  deriving DecidableEq

/-- A spawned server: what it was spawned with, which of its pipes the handle
still holds, and whether it has exited. -/
structure Child where
  command : Command
  stdin : Bool
  stdout : Bool
  stderr : Bool
  exited : Bool
  deriving DecidableEq

/-- `spawn` hands out a pipe for each stream that was asked to be piped. -/
def Command.spawn (command : Command) : Child where
  command := command
  stdin := command.stdin = .piped
  stdout := command.stdout = .piped
  stderr := command.stderr = .piped
  exited := false

structure ProcessBackend where
  command : String
  args : List String
  workingDir : String
  bootTimeout : Duration
  shutdownGrace : Duration
  console : Bool
  child : Option Child
  readiness : Readiness
  startedAt : Option Instant

/-- The contexts of the errors that a startup task returns. -/
inductive StartupError where
  | spawning (command : String)
  | stdoutNotPiped
  | stderrNotPiped
  | notStarted
  | exitedDuringStartup
  | waitingOnBackend
  | noBanner (within : Duration)
  deriving DecidableEq

/-- How `start` ends; it panics if the deadline is past the end of the clock. -/
inductive Started where
  | deadline (time : Instant)
  | error (error : StartupError)
  | panicked

namespace ProcessBackend

def new (display : SocketAddr → String) (config : Config) (backend : BackendConfig)
    (console : Bool) : ProcessBackend where
  command := backend.server.command
  args := backend.serverArgs display
  workingDir := backend.server.workingDir
  bootTimeout := config.bootTimeout
  shutdownGrace := config.shutdownGrace
  console := console
  child := none
  readiness := .init
  startedAt := none

def launch (b : ProcessBackend) : Command where
  program := b.command
  args := b.args
  currentDir := b.workingDir
  stdin := if b.console then .piped else .null
  stdout := .piped
  stderr := .piped
  killOnDrop := true
  processGroup := some 0

/-- `spawns` is whether the operating system can spawn the command, `now` the
clock reading after it did, and `clockMax` the last instant the clock can show. -/
def start (b : ProcessBackend) (now clockMax : Instant) (spawns : Bool) :
    ProcessBackend × Started :=
  if spawns then
    let child := b.launch.spawn
    let b := { b with startedAt := some now }
    if child.stdout then
      let child := { child with stdout := false }
      if child.stderr then
        let child := { child with stderr := false }
        -- `console.attach` takes the stdin pipe of the one backend that has a console.
        let child := if b.console then { child with stdin := false } else child
        let b := { b with child := some child }
        if now + b.bootTimeout ≤ clockMax then (b, .deadline (now + b.bootTimeout))
        else (b, .panicked)
      else (b, .error .stderrNotPiped)
    else (b, .error .stdoutNotPiped)
  else (b, .error (.spawning b.command))

inductive StatusError where
  | notStarted
  | checkingStatus
  deriving DecidableEq

/-- `fails` is whether `try_wait` reports an error. -/
def hasExited (b : ProcessBackend) (fails : Bool) : Except StatusError Bool :=
  match b.child with
  | none => .error .notStarted
  | some child => if fails then .error .checkingStatus else .ok child.exited

def exitCheck (b : ProcessBackend) (fails : Bool) : ExitCheck :=
  match b.hasExited fails with
  | .ok false => .alive
  | .ok true => .exited
  | .error _ => .error

/-- `stop` takes the child, however it then goes on. -/
def stop (b : ProcessBackend) : ProcessBackend := { b with child := none }

/-- The adapter as `stop` finds it. The exit status of the child has not been asked
for: where a wait returns it, the adapter is dropped. -/
def stopping (b : ProcessBackend) (pid : Nat) (group : ProcessGroup) : Infra.ProcessBackend where
  shutdownGrace := b.shutdownGrace
  group := group
  child := b.child.map fun _ => ⟨pid, false⟩
  reaped_gone c hc hr := by
    obtain ⟨_, _, rfl⟩ := Option.map_eq_some_iff.mp hc
    cases hr

end ProcessBackend

namespace ProcessBackend

/-- `start` fails only if the command cannot be spawned: both of the pipes it
takes were asked for. -/
theorem start_cases (b : ProcessBackend) (now clockMax : Instant) (spawns : Bool) :
    b.start now clockMax spawns = (b, .error (.spawning b.command)) ∨
    ∃ child : Child, child.command = b.launch ∧ child.exited = false ∧
      (now + b.bootTimeout ≤ clockMax ∧ b.start now clockMax spawns =
          ({ b with startedAt := some now, child := some child },
            .deadline (now + b.bootTimeout)) ∨
        clockMax < now + b.bootTimeout ∧ b.start now clockMax spawns =
          ({ b with startedAt := some now, child := some child }, .panicked)) := by
  cases spawns with
  | false => exact Or.inl rfl
  | true =>
    refine Or.inr ⟨if b.console then
      { b.launch.spawn with stdout := false, stderr := false, stdin := false } else
        { b.launch.spawn with stdout := false, stderr := false }, ?_, ?_, ?_⟩
    · split <;> rfl
    · split <;> rfl
    · by_cases hclock : now + b.bootTimeout ≤ clockMax
      · refine Or.inl ⟨hclock, ?_⟩
        simp [start, Command.spawn, launch, hclock]
      · refine Or.inr ⟨Nat.lt_of_not_le hclock, ?_⟩
        simp [start, Command.spawn, launch, hclock]

/-- With a child, it is what `Infra.ProcessBackend.start` makes. -/
theorem stopping_of_child {b : ProcessBackend} {child : Child} (h : b.child = some child)
    (pid : Nat) (group : ProcessGroup) :
    b.stopping pid group = Infra.ProcessBackend.start b.shutdownGrace pid group := by
  simp only [stopping, Infra.ProcessBackend.start, h, Option.map_some]

theorem start_stopping {b after : ProcessBackend} {now clockMax deadline : Instant} {spawns : Bool}
    (h : b.start now clockMax spawns = (after, .deadline deadline)) (pid : Nat)
    (group : ProcessGroup) :
    after.stopping pid group = Infra.ProcessBackend.start b.shutdownGrace pid group := by
  rcases b.start_cases now clockMax spawns with hs | ⟨child, _, _, ⟨_, hs⟩ | ⟨_, hs⟩⟩
  · rw [hs] at h
    cases h
  · rw [hs] at h
    cases h
    exact stopping_of_child rfl pid group
  · rw [hs] at h
    cases h

/-- `has_exited` asks what `stop` asks first. -/
theorem hasExited_eq_tryWait {b : ProcessBackend} {child : Child} (hchild : b.child = some child)
    (pid : Nat) (leader : Process) (os : Os)
    (hexited : child.exited = leader.goneBy unsignalled os.checkAt) :
    b.hasExited os.tryWaitFails =
      ((⟨pid, false⟩ : Infra.Child).tryWait leader os).mapError fun _ => .checkingStatus := by
  rw [hasExited, hchild, Infra.Child.tryWait, ← hexited]
  cases os.tryWaitFails <;> rfl

/-- A second `stop` sends nothing. -/
theorem stop_stopping (b : ProcessBackend) (pid : Nat) (group : ProcessGroup) (os : Os) :
    (b.stop.stopping pid group).stop os = ⟨.ok (), os.checkAt, unsignalled⟩ :=
  Infra.ProcessBackend.stop_of_taken os rfl

end ProcessBackend

def createBackend (display : SocketAddr → String) (config : Config) (backend : BackendConfig)
    (console : Bool) : ProcessBackend :=
  match backend.server.provider with
  | .process => .new display config backend console

/-- A startup task with the adapter it builds: what it was spawned for, how far
it has come, the deadline `start` returned and the error it ended with. -/
structure Boot where
  backend : BackendConfig
  adapter : ProcessBackend
  task : Startup
  deadline : Instant
  error : Option StartupError

/-- What a boot tells the proxy: its `start` returned, or its task finished. -/
inductive Report where
  | started
  | done (result : StartupResult)
  deriving DecidableEq

/-- A step of a boot: its `start`, a step of its two tasks, an error of
`child.wait()`, or the exit of its server. -/
inductive BootAct where
  | start (spawns : Bool)
  | ready (act : ReadyAct)
  | waitFails
  | exits

namespace Boot

def new (display : SocketAddr → String) (config : Config) (backend : BackendConfig)
    (console : Bool) : Boot where
  backend := backend
  adapter := createBackend display config backend console
  task := .starting
  deadline := 0
  error := none

def finish (b : Boot) (result : StartupResult) (error : Option StartupError) :
    Boot × Option Report :=
  ({ b with task := .finished result, error := error }, some (.done result))

/-- `adapter.start().await?`, and on success the call of `wait_until_ready`. -/
def start (b : Boot) (now clockMax : Instant) (spawns : Bool) : Boot × Option Report :=
  let (adapter, outcome) := b.adapter.start now clockMax spawns
  let b := { b with adapter := adapter }
  match outcome with
  | .deadline time =>
      ({ b with
        adapter := { b.adapter with readiness := b.adapter.readiness.step .call }
        task := .waiting
        deadline := time }, some .started)
  | .error error => b.finish .failed (some error)
  | .panicked => b.finish .panicked none

/-- Whether the runtime can take a step of `mirror_stdout` or `wait_until_ready`
now: the mirror runs once the server was spawned, the waiter while its task waits,
and the two timers of the waiter fire for a reason. -/
def allows (b : Boot) (now : Instant) : ReadyAct → Bool
  | .read _ | .readEnds | .writeFails _ | .scan | .swap | .notifyWaiters | .trim =>
      b.adapter.startedAt.isSome
  | .call => false
  | .firstCheck hasChild => b.task = .waiting && hasChild == b.adapter.child.isSome
  | .register | .secondCheck | .wake => b.task = .waiting
  | .childExits => b.task = .waiting && b.adapter.child.any (·.exited)
  | .deadline => b.task = .waiting && decide (b.deadline ≤ now)

def errorOf (b : Boot) : ReadyAct → StartupError
  | .firstCheck _ => .notStarted
  | .childExits => .exitedDuringStartup
  | _ => .noBanner b.adapter.bootTimeout

/-- The log line after a successful wait reads `started_at.unwrap()`; the two
early returns do not reach it. -/
def unwraps (b : Boot) : ReadyAct → Bool
  | .wake => b.adapter.startedAt.isSome
  | _ => true

def ready (b : Boot) (act : ReadyAct) : Boot × Option Report :=
  let b := { b with adapter := { b.adapter with readiness := b.adapter.readiness.step act } }
  if b.task = .waiting then
    match b.adapter.readiness.waiterAt with
    | .returned .ok => if b.unwraps act then b.finish .ready none else b.finish .panicked none
    | .returned .error => b.finish .failed (some (b.errorOf act))
    | _ => (b, none)
  else (b, none)

def step (b : Boot) (now clockMax : Instant) : BootAct → Boot × Option Report
  | .start spawns => if b.task = .starting then b.start now clockMax spawns else (b, none)
  | .ready act => if b.allows now act then b.ready act else (b, none)
  | .waitFails =>
      if b.task = .waiting ∧ b.adapter.readiness.waiterAt = .parked then
        { b with adapter := { b.adapter with
          readiness := b.adapter.readiness.step .childExits } }.finish .failed
            (some .waitingOnBackend)
      else (b, none)
  | .exits =>
      ({ b with adapter := { b.adapter with
        child := b.adapter.child.map fun child => { child with exited := true } } }, none)

end Boot

/-! ## What holds of every boot -/

/-- A call of `wait_until_ready` in progress. -/
def Waiting (s : Readiness) : Prop :=
  s.waiterAt ≠ .idle ∧ ∀ result, s.waiterAt ≠ .returned result

/-- A call of `wait_until_ready` goes on or returns; it fails because the adapter
has no child, because the child has exited, or because the deadline has passed. -/
theorem waiting_step {s : Readiness} (h : Waiting s) (act : ReadyAct) :
    Waiting (s.step act) ∨ (s.step act).waiterAt = .returned .ok ∨
      (s.step act).waiterAt = .returned .error ∧
        (act = .firstCheck false ∨ act = .childExits ∨ act = .deadline) := by
  obtain ⟨hidle, hreturned⟩ := h
  have hsame : (s.step act).waiterAt = s.waiterAt → Waiting (s.step act) := by
    intro he
    rw [Waiting, he]
    exact ⟨hidle, hreturned⟩
  cases act with
  | read chunk => exact Or.inl (hsame (by simp only [Readiness.step]; split <;> rfl))
  | readEnds => exact Or.inl (hsame (by simp only [Readiness.step]; split <;> rfl))
  | writeFails chunk => exact Or.inl (hsame (by simp only [Readiness.step]; split <;> rfl))
  | scan => exact Or.inl (hsame (by simp only [Readiness.step]; split <;> rfl))
  | swap => exact Or.inl (hsame (by simp only [Readiness.step]; split <;> rfl))
  | notifyWaiters => exact Or.inl (hsame (by simp only [Readiness.step]; split <;> rfl))
  | trim => exact Or.inl (hsame (by simp only [Readiness.step]; split <;> rfl))
  | call =>
    refine Or.inl (hsame ?_)
    simp only [Readiness.step]
  | firstCheck hasChild =>
    simp only [Readiness.step]
    split
    · split
      · exact Or.inr (Or.inl rfl)
      · cases hasChild with
        | true => exact Or.inl ⟨by simp, by simp⟩
        | false => exact Or.inr (Or.inr ⟨rfl, Or.inl rfl⟩)
    · exact Or.inl ⟨hidle, hreturned⟩
  | register =>
    simp only [Readiness.step]
    split
    · exact Or.inl ⟨by simp, by simp⟩
    · exact Or.inl ⟨hidle, hreturned⟩
  | secondCheck =>
    simp only [Readiness.step]
    split
    · split
      · exact Or.inr (Or.inl rfl)
      · exact Or.inl ⟨by simp, by simp⟩
    · exact Or.inl ⟨hidle, hreturned⟩
  | wake =>
    simp only [Readiness.step]
    split
    · exact Or.inr (Or.inl rfl)
    · exact Or.inl ⟨hidle, hreturned⟩
  | childExits =>
    simp only [Readiness.step]
    split
    · exact Or.inr (Or.inr ⟨rfl, Or.inr (Or.inl trivial)⟩)
    · exact Or.inl ⟨hidle, hreturned⟩
  | deadline =>
    simp only [Readiness.step]
    split
    · exact Or.inr (Or.inr ⟨rfl, Or.inr (Or.inr trivial)⟩)
    · exact Or.inl ⟨hidle, hreturned⟩

/-- How far a call of `wait_until_ready` has come. -/
def rank : WaiterAt → Nat
  | .idle => 0
  | .firstCheck => 0
  | .registering => 1
  | .secondCheck => 2
  | .parked => 3
  | .returned _ => 4

theorem rank_step {s : Readiness} (h : Waiting s) (act : ReadyAct) :
    rank s.waiterAt ≤ rank (s.step act).waiterAt := by
  obtain ⟨hidle, hreturned⟩ := h
  have hsame : (s.step act).waiterAt = s.waiterAt →
      rank s.waiterAt ≤ rank (s.step act).waiterAt := fun he => by rw [he]
  cases act with
  | call => exact hsame (by simp only [Readiness.step])
  | firstCheck hasChild =>
    simp only [Readiness.step]
    split
    · next hat =>
      rw [hat]
      exact Nat.zero_le _
    · exact Nat.le_refl _
  | register =>
    simp only [Readiness.step]
    split
    · next hat =>
      rw [hat]
      show 1 ≤ 2
      omega
    · exact Nat.le_refl _
  | secondCheck =>
    simp only [Readiness.step]
    split
    · next hat =>
      rw [hat]
      split
      · show 2 ≤ 4
        omega
      · show 2 ≤ 3
        omega
    · exact Nat.le_refl _
  | wake =>
    simp only [Readiness.step]
    split
    · next hat =>
      rw [hat.1]
      show 3 ≤ 4
      omega
    · exact Nat.le_refl _
  | childExits =>
    simp only [Readiness.step]
    split
    · next hat =>
      rw [hat]
      show 3 ≤ 4
      omega
    · exact Nat.le_refl _
  | deadline =>
    simp only [Readiness.step]
    split
    · next hat =>
      rw [hat]
      show 3 ≤ 4
      omega
    · exact Nat.le_refl _
  | _ => exact hsame (by simp only [Readiness.step]; split <;> rfl)

theorem booted_step {s : Readiness} (h : s.booted = true) (act : ReadyAct) :
    (s.step act).booted = true := by
  cases act <;> simp only [Readiness.step] <;> (repeat' split) <;> first | exact h | rfl

namespace Boot

section

variable (display : SocketAddr → String) (config : Config) (clockMax : Instant)

/-- The adapter was built from the configuration of the boot's backend. -/
structure Built (b : Boot) : Prop where
  command : b.adapter.command = b.backend.server.command
  args : b.adapter.args = b.backend.serverArgs display
  workingDir : b.adapter.workingDir = b.backend.server.workingDir
  bootTimeout : b.adapter.bootTimeout = config.bootTimeout
  shutdownGrace : b.adapter.shutdownGrace = config.shutdownGrace

/-- The errors a startup task can end with, and what must have happened. -/
def Blames (b : Boot) (now : Instant) : StartupError → Prop
  | .spawning command => command = b.backend.server.command
  | .exitedDuringStartup => b.adapter.child.any (·.exited) = true
  | .waitingOnBackend => True
  | .noBanner within => within = config.bootTimeout ∧
      ∃ t, b.adapter.startedAt = some t ∧ t + config.bootTimeout ≤ now
  | .stdoutNotPiped | .stderrNotPiped | .notStarted => False

/-- The server of this boot was spawned, as configured, and has its handle. -/
def Launched (b : Boot) : Prop :=
  ∃ child : Child, b.adapter.child = some child ∧ child.command = b.adapter.launch

structure Ok (b : Boot) (now : Instant) : Prop where
  built : b.Built display config
  sound : b.adapter.readiness.Sound
  starting : b.task = .starting → b.adapter.startedAt = none ∧ b.adapter.readiness = .init
  waiting : b.task = .waiting → b.Launched ∧ Waiting b.adapter.readiness ∧
    ∃ t, b.adapter.startedAt = some t ∧ b.deadline = t + config.bootTimeout ∧ t ≤ now ∧
      t + config.bootTimeout ≤ clockMax
  ready : b.task = .finished .ready → b.adapter.readiness.booted = true
  failed : b.task = .finished .failed → ∃ error, b.error = some error ∧ b.Blames config now error
  panicked : b.task = .finished .panicked →
    ∃ t, b.adapter.startedAt = some t ∧ clockMax < t + config.bootTimeout

variable {display config clockMax} {b : Boot} {now : Instant}

theorem ok_of_starting (hb : b.Built display config) (hs : b.adapter.readiness.Sound)
    (ht : b.task = .starting)
    (hstarting : b.adapter.startedAt = none ∧ b.adapter.readiness = .init) :
    b.Ok display config clockMax now := by
  refine ⟨hb, hs, fun _ => hstarting, ?_, ?_, ?_, ?_⟩ <;> simp [ht]

theorem ok_of_waiting (hb : b.Built display config) (hs : b.adapter.readiness.Sound)
    (ht : b.task = .waiting)
    (hwaiting : b.Launched ∧ Waiting b.adapter.readiness ∧
      ∃ t, b.adapter.startedAt = some t ∧ b.deadline = t + config.bootTimeout ∧ t ≤ now ∧
        t + config.bootTimeout ≤ clockMax) : b.Ok display config clockMax now := by
  refine ⟨hb, hs, ?_, fun _ => hwaiting, ?_, ?_, ?_⟩ <;> simp [ht]

theorem ok_of_ready (hb : b.Built display config) (hs : b.adapter.readiness.Sound)
    (ht : b.task = .finished .ready) (hready : b.adapter.readiness.booted = true) :
    b.Ok display config clockMax now := by
  refine ⟨hb, hs, ?_, ?_, fun _ => hready, ?_, ?_⟩ <;> simp [ht]

theorem ok_of_failed (hb : b.Built display config) (hs : b.adapter.readiness.Sound)
    (ht : b.task = .finished .failed)
    (hfailed : ∃ error, b.error = some error ∧ b.Blames config now error) :
    b.Ok display config clockMax now := by
  refine ⟨hb, hs, ?_, ?_, ?_, fun _ => hfailed, ?_⟩ <;> simp [ht]

theorem ok_of_panicked (hb : b.Built display config) (hs : b.adapter.readiness.Sound)
    (ht : b.task = .finished .panicked)
    (hpanicked : ∃ t, b.adapter.startedAt = some t ∧ clockMax < t + config.bootTimeout) :
    b.Ok display config clockMax now := by
  refine ⟨hb, hs, ?_, ?_, ?_, ?_, fun _ => hpanicked⟩ <;> simp [ht]

theorem ok_new (backend : BackendConfig) (console : Bool) :
    (Boot.new display config backend console).Ok display config clockMax now :=
  ok_of_starting ⟨rfl, rfl, rfl, rfl, rfl⟩ Readiness.sound_init rfl ⟨rfl, rfl⟩

theorem Blames.later {error : StartupError} (h : b.Blames config now error) {later : Instant}
    (hle : now ≤ later) : b.Blames config later error := by
  cases error with
  | noBanner within =>
    obtain ⟨hw, t, ht, hlate⟩ := h
    exact ⟨hw, t, ht, Nat.le_trans hlate hle⟩
  | _ => exact h

theorem Ok.later (h : b.Ok display config clockMax now) {later : Instant} (hle : now ≤ later) :
    b.Ok display config clockMax later where
  built := h.built
  sound := h.sound
  starting := h.starting
  waiting := by
    intro ht
    obtain ⟨hl, hw, t, hs, hd, hn, hc⟩ := h.waiting ht
    exact ⟨hl, hw, t, hs, hd, Nat.le_trans hn hle, hc⟩
  ready := h.ready
  failed := by
    intro ht
    obtain ⟨error, he, hb⟩ := h.failed ht
    exact ⟨error, he, hb.later hle⟩
  panicked := h.panicked

theorem Ok.stop (h : b.Ok display config clockMax now) (ht : b.task = .finished .ready) :
    ({ b with adapter := b.adapter.stop } : Boot).Ok display config clockMax now :=
  ok_of_ready ⟨h.built.command, h.built.args, h.built.workingDir, h.built.bootTimeout,
    h.built.shutdownGrace⟩ h.sound ht (h.ready ht)

/-- What a step of a boot tells the proxy is what became of its task. -/
inductive Moves (b b' : Boot) : Option Report → Prop where
  | quiet (htask : b'.task = b.task) (hkept : b.Launched → b'.Launched) : Moves b b' none
  | started (hbefore : b.task = .starting) (hafter : b'.task = .waiting) (hl : b'.Launched) :
      Moves b b' (some .started)
  | done {result : StartupResult} (hbefore : b.task = .starting ∨ b.task = .waiting)
      (hafter : b'.task = .finished result)
      (hready : result = .ready → b.task = .waiting ∧ b'.Launched) :
      Moves b b' (some (.done result))

/-- A step keeps what holds of the boot and whose boot it is. -/
structure Steps (display : SocketAddr → String) (config : Config) (clockMax now : Instant)
    (b : Boot) (after : Boot × Option Report) : Prop where
  ok : after.1.Ok display config clockMax now
  backend : after.1.backend = b.backend
  moves : b.Moves after.1 after.2

theorem Ok.stay (h : b.Ok display config clockMax now) :
    b.Steps display config clockMax now (b, none) :=
  ⟨h, rfl, .quiet rfl id⟩

theorem steps_start (h : b.Ok display config clockMax now) (ht : b.task = .starting)
    (spawns : Bool) : b.Steps display config clockMax now (b.start now clockMax spawns) := by
  obtain ⟨hbuilt, hsound, hfresh, _⟩ := h
  obtain ⟨_, hr⟩ := hfresh ht
  have htime := hbuilt.bootTimeout
  have hbuilt' : ∀ adapter task deadline error,
      adapter.command = b.adapter.command → adapter.args = b.adapter.args →
      adapter.workingDir = b.adapter.workingDir → adapter.bootTimeout = b.adapter.bootTimeout →
      adapter.shutdownGrace = b.adapter.shutdownGrace →
      (⟨b.backend, adapter, task, deadline, error⟩ : Boot).Built display config :=
    fun _ _ _ _ h₁ h₂ h₃ h₄ h₅ => ⟨h₁.trans hbuilt.command, h₂.trans hbuilt.args,
      h₃.trans hbuilt.workingDir, h₄.trans hbuilt.bootTimeout, h₅.trans hbuilt.shutdownGrace⟩
  rcases b.adapter.start_cases now clockMax spawns with hs |
    ⟨child, hcommand, _, ⟨hclock, hs⟩ | ⟨hclock, hs⟩⟩
  · have heq : b.start now clockMax spawns =
        ({ b with task := .finished .failed, error := some (.spawning b.adapter.command) },
          some (.done .failed)) := by
      rw [Boot.start, hs]
      rfl
    rw [heq]
    refine ⟨?_, rfl, .done (Or.inl ht) rfl (by simp)⟩
    exact ok_of_failed (hbuilt' _ _ _ _ rfl rfl rfl rfl rfl) hsound rfl ⟨_, rfl, hbuilt.command⟩
  · have heq : b.start now clockMax spawns =
        (⟨b.backend, { b.adapter with
            startedAt := some now, child := some child, readiness := b.adapter.readiness.step .call },
          .waiting, now + b.adapter.bootTimeout, b.error⟩, some .started) := by
      rw [Boot.start, hs]
    rw [heq]
    have hwaiting : Waiting (b.adapter.readiness.step .call) := by
      rw [hr]
      exact ⟨by decide, fun result => by simp [Readiness.step, Readiness.init]⟩
    rw [htime] at hclock
    refine ⟨?_, rfl, .started ht rfl ⟨child, rfl, hcommand⟩⟩
    refine ok_of_waiting (hbuilt' _ _ _ _ rfl rfl rfl rfl rfl) (Readiness.sound_step hsound .call) rfl
      ⟨⟨child, rfl, hcommand⟩, hwaiting, now, rfl, ?_, Nat.le_refl _, hclock⟩
    rw [← htime]
  · have heq : b.start now clockMax spawns =
        (⟨b.backend, { b.adapter with startedAt := some now, child := some child },
          .finished .panicked, b.deadline, none⟩, some (.done .panicked)) := by
      rw [Boot.start, hs]
      rfl
    rw [heq]
    rw [htime] at hclock
    refine ⟨?_, rfl, .done (Or.inl ht) rfl (by simp)⟩
    exact ok_of_panicked (hbuilt' _ _ _ _ rfl rfl rfl rfl rfl) hsound rfl ⟨now, rfl, hclock⟩

/-- The adapter after a step of one of its two tasks. -/
def ticked (b : Boot) (act : ReadyAct) : Boot :=
  { b with adapter := { b.adapter with readiness := b.adapter.readiness.step act } }

theorem Built.ticked (h : b.Built display config) (act : ReadyAct) :
    (b.ticked act).Built display config :=
  ⟨h.command, h.args, h.workingDir, h.bootTimeout, h.shutdownGrace⟩

theorem Built.finish (h : b.Built display config) (result : StartupResult)
    (error : Option StartupError) : (b.finish result error).1.Built display config :=
  ⟨h.command, h.args, h.workingDir, h.bootTimeout, h.shutdownGrace⟩

/-- Neither task runs before `start`. -/
theorem Ok.not_allows (h : b.Ok display config clockMax now) (ht : b.task = .starting)
    (act : ReadyAct) : b.allows now act = false := by
  obtain ⟨hs, _⟩ := h.starting ht
  cases act <;> simp [allows, ht, hs]

theorem steps_failed (h : b.Ok display config clockMax now) (ht : b.task = .waiting)
    {act : ReadyAct} {error : StartupError}
    (hblame : ((b.ticked act).finish .failed (some error)).1.Blames config now error) :
    b.Steps display config clockMax now ((b.ticked act).finish .failed (some error)) := by
  refine ⟨?_, rfl, .done (Or.inr ht) rfl (by simp)⟩
  exact ok_of_failed ((h.built.ticked act).finish _ _) (Readiness.sound_step h.sound act) rfl
    ⟨error, rfl, hblame⟩

theorem steps_ready (h : b.Ok display config clockMax now) {act : ReadyAct}
    (ha : b.allows now act = true) : b.Steps display config clockMax now (b.ready act) := by
  have hready : b.ready act = if b.task = .waiting then
      match (b.adapter.readiness.step act).waiterAt with
      | .returned .ok => if (b.ticked act).unwraps act then (b.ticked act).finish .ready none
          else (b.ticked act).finish .panicked none
      | .returned .error => (b.ticked act).finish .failed (some ((b.ticked act).errorOf act))
      | _ => (b.ticked act, none)
    else (b.ticked act, none) := rfl
  rw [hready]
  by_cases ht : b.task = .waiting
  · rw [if_pos ht]
    obtain ⟨hl, hw, t, hs, hd, hn, hc⟩ := h.waiting ht
    obtain ⟨child, hchild, hcommand⟩ := hl
    have hl' : (b.ticked act).Launched := ⟨child, hchild, hcommand⟩
    rcases waiting_step hw act with hgoes | hok | ⟨herror, hwhy⟩
    · have hstill : b.Steps display config clockMax now (b.ticked act, none) := by
        refine ⟨?_, rfl, .quiet rfl fun _ => hl'⟩
        exact ok_of_waiting (h.built.ticked act) (Readiness.sound_step h.sound act) ht
          ⟨hl', hgoes, t, hs, hd, hn, hc⟩
      split
      · next he => exact (hgoes.2 _ he).elim
      · next he => exact (hgoes.2 _ he).elim
      · exact hstill
    · have hsound := Readiness.sound_step h.sound act
      have hunwraps : (b.ticked act).unwraps act = true := by
        cases act <;> simp [unwraps, ticked, hs]
      rw [hok]
      simp only [hunwraps, if_true]
      refine ⟨?_, rfl, .done (Or.inr ht) rfl fun _ => ⟨ht, child, hchild, hcommand⟩⟩
      exact ok_of_ready ((h.built.ticked act).finish _ _) hsound rfl (hsound.returned hok)
    · rw [herror]
      apply steps_failed h ht
      rcases hwhy with rfl | rfl | rfl
      · -- The adapter has a child, so the check does not fail for the lack of one.
        simp [allows, hchild] at ha
      · simp only [allows, Bool.and_eq_true] at ha
        exact ha.2
      · simp only [allows, Bool.and_eq_true, decide_eq_true_eq] at ha
        refine ⟨h.built.bootTimeout, t, hs, ?_⟩
        rw [← hd]
        exact ha.2
  · rw [if_neg ht]
    have hnot : b.task ≠ .starting := fun hst => by
      rw [h.not_allows hst] at ha
      cases ha
    refine ⟨⟨h.built.ticked act, Readiness.sound_step h.sound act, fun hst => (hnot hst).elim,
      fun hst => (ht hst).elim, fun hst => booted_step (h.ready hst) act, ?_, h.panicked⟩, rfl,
      .quiet rfl fun hl => hl⟩
    intro hst
    obtain ⟨error, he, hb⟩ := h.failed hst
    exact ⟨error, he, by cases error <;> exact hb⟩

theorem steps_waitFails (h : b.Ok display config clockMax now) :
    b.Steps display config clockMax now (b.step now clockMax .waitFails) := by
  simp only [step]
  split
  · next hat => exact steps_failed h hat.1 trivial
  · exact h.stay

theorem Launched.exits (h : b.Launched) : (b.step now clockMax .exits).1.Launched := by
  obtain ⟨child, hchild, hcommand⟩ := h
  exact ⟨{ child with exited := true }, by simp [step, hchild], hcommand⟩

theorem steps_exits (h : b.Ok display config clockMax now) :
    b.Steps display config clockMax now (b.step now clockMax .exits) := by
  refine ⟨⟨⟨h.built.command, h.built.args, h.built.workingDir, h.built.bootTimeout,
    h.built.shutdownGrace⟩, h.sound, h.starting, ?_, h.ready, ?_, h.panicked⟩, rfl,
    .quiet rfl Launched.exits⟩
  · intro ht
    obtain ⟨hl, hrest⟩ := h.waiting ht
    exact ⟨hl.exits, hrest⟩
  · intro ht
    obtain ⟨error, he, hb⟩ := h.failed ht
    refine ⟨error, he, ?_⟩
    cases error with
    | exitedDuringStartup =>
      obtain ⟨child, hchild, _⟩ := (Option.any_eq_true _ _).mp hb
      simp [Blames, step, hchild]
    | _ => exact hb

/-- The task has finished, or its deadline has passed and its call of
`wait_until_ready` has come to the place of rank `i`. -/
def Overdue (b : Boot) (now : Instant) (i : Nat) : Prop :=
  (∃ result, b.task = .finished result) ∨
    b.task = .waiting ∧ b.deadline ≤ now ∧ i ≤ rank b.adapter.readiness.waiterAt

theorem steps (h : b.Ok display config clockMax now) (act : BootAct) :
    b.Steps display config clockMax now (b.step now clockMax act) := by
  cases act with
  | start spawns =>
    simp only [step]
    split
    · next ht => exact steps_start h ht spawns
    · exact h.stay
  | ready act =>
    simp only [step]
    split
    · next ha => exact steps_ready h ha
    · exact h.stay
  | waitFails => exact steps_waitFails h
  | exits => exact steps_exits h

theorem finished_step {result : StartupResult} (h : b.task = .finished result) (act : BootAct) :
    (b.step now clockMax act).1.task = .finished result := by
  cases act with
  | start spawns => simp [step, h]
  | ready act =>
    simp only [step]
    split
    · simp [ready, h]
    · exact h
  | waitFails => simp [step, h]
  | exits => exact h

theorem ready_of_waiting {act : ReadyAct} (hw : Waiting (b.adapter.readiness.step act)) :
    b.ready act = (b.ticked act, none) := by
  have hplace := hw.2
  simp only [ready, ticked]
  split
  · split
    · next he => exact (hplace _ he).elim
    · next he => exact (hplace _ he).elim
    · rfl
  · rfl

theorem ready_of_returned {act : ReadyAct} {result : WaitResult} (ht : b.task = .waiting)
    (hr : (b.adapter.readiness.step act).waiterAt = .returned result) :
    ∃ outcome, (b.ready act).1.task = .finished outcome := by
  cases result with
  | ok =>
    simp only [ready, ht, hr, if_true]
    split <;> exact ⟨_, rfl⟩
  | error =>
    simp only [ready, ht, hr, if_true]
    exact ⟨_, rfl⟩

/-- No step of a boot takes it back. -/
theorem Overdue.step (h : b.Ok display config clockMax now) {i : Nat} (ho : b.Overdue now i)
    (act : BootAct) : (b.step now clockMax act).1.Overdue now i := by
  rcases ho with ⟨result, ht⟩ | ⟨ht, hd, hi⟩
  · exact Or.inl ⟨result, finished_step ht act⟩
  · obtain ⟨_, hw, _⟩ := h.waiting ht
    cases act with
    | start spawns =>
      refine Or.inr ?_
      simp [Boot.step, ht, hd, hi]
    | ready act =>
      simp only [Boot.step]
      split
      · rcases waiting_step hw act with hgoes | hok | ⟨herror, _⟩
        · rw [ready_of_waiting hgoes]
          exact Or.inr ⟨ht, hd, Nat.le_trans hi (rank_step hw act)⟩
        · exact Or.inl (ready_of_returned ht hok)
        · exact Or.inl (ready_of_returned ht herror)
      · exact Or.inr ⟨ht, hd, hi⟩
    | waitFails =>
      simp only [Boot.step]
      split
      · exact Or.inl ⟨.failed, rfl⟩
      · exact Or.inr ⟨ht, hd, hi⟩
    | exits => exact Or.inr ⟨ht, hd, hi⟩

/-- The steps of a call of `wait_until_ready` that is not notified. -/
def waiterActs : List BootAct :=
  [.ready (.firstCheck true), .ready .register, .ready .secondCheck, .ready .deadline]

/-- After its deadline, each step of the call brings it one place further. -/
theorem Overdue.next (h : b.Ok display config clockMax now) {i : Nat} (ho : b.Overdue now i)
    {act : BootAct} (hact : waiterActs[i]? = some act) :
    (b.step now clockMax act).1.Overdue now (i + 1) := by
  rcases ho with ⟨result, ht⟩ | ⟨ht, hd, hi⟩
  · exact Or.inl ⟨result, finished_step ht act⟩
  · obtain ⟨⟨child, hchild, _⟩, hw, _⟩ := h.waiting ht
    by_cases hlater : i + 1 ≤ rank b.adapter.readiness.waiterAt
    · exact Overdue.step h (Or.inr ⟨ht, hd, hlater⟩) act
    · -- The call is at the very place this step is for, and the step is allowed.
      have hplace : rank b.adapter.readiness.waiterAt = i := by omega
      have hmoves : ∀ a : ReadyAct, act = .ready a → b.allows now a = true →
          i + 1 ≤ rank (b.adapter.readiness.step a).waiterAt →
          (b.step now clockMax act).1.Overdue now (i + 1) := by
        rintro a rfl hallows hrank
        rw [Boot.step, if_pos hallows]
        rcases waiting_step hw a with hgoes | hok | ⟨herror, _⟩
        · rw [ready_of_waiting hgoes]
          exact Or.inr ⟨ht, hd, hrank⟩
        · exact Or.inl (ready_of_returned ht hok)
        · exact Or.inl (ready_of_returned ht herror)
      cases hat : b.adapter.readiness.waiterAt with
      | idle => exact (hw.1 hat).elim
      | returned result => exact (hw.2 result hat).elim
      | firstCheck =>
        obtain rfl : 0 = i := by rw [← hplace, hat]; rfl
        obtain rfl := Option.some.inj hact
        refine hmoves _ rfl (by simp [allows, ht, hchild]) ?_
        simp only [Readiness.step, hat, if_true]
        split
        · show 1 ≤ 4
          omega
        · exact Nat.le_refl _
      | registering =>
        obtain rfl : 1 = i := by rw [← hplace, hat]; rfl
        obtain rfl := Option.some.inj hact
        refine hmoves _ rfl (by simp [allows, ht]) ?_
        simp only [Readiness.step, hat, if_true]
        exact Nat.le_refl _
      | secondCheck =>
        obtain rfl : 2 = i := by rw [← hplace, hat]; rfl
        obtain rfl := Option.some.inj hact
        refine hmoves _ rfl (by simp [allows, ht]) ?_
        simp only [Readiness.step, hat, if_true]
        split
        · show 3 ≤ 4
          omega
        · exact Nat.le_refl _
      | parked =>
        obtain rfl : 3 = i := by rw [← hplace, hat]; rfl
        obtain rfl := Option.some.inj hact
        refine hmoves _ rfl (by simp [allows, ht, hd]) ?_
        simp only [Readiness.step, hat, if_true]
        exact Nat.le_refl _

end

end Boot

end Infra.Launch

end Sleepytale
