import Sleepytale.Net

/-!
# Configuration, validation and the route table (`config.rs`)

`validate` walks the configured routes once, in key order, and records the
normalised names and the backend addresses it has seen. `toRoutes` and the slot
map of `Proxy::run` later collect the same names and addresses into maps, where
a second entry under one key would silently replace the first. `toRoutes` is
`Config::routes`, renamed because the field already has that name; ASCII
lowercasing is `Char.toLower`, which moves `A`..`Z` only.
-/

namespace Sleepytale

open Sleepytale.Net
open Std (ExtTreeMap)

def defaultPort : BitVec 16 := 5520

def maxServerName : Nat := 253

inductive BackendProvider where
  | process
  deriving DecidableEq, Repr

structure ServerConfig where
  provider : BackendProvider
  command : String
  args : List String
  workingDir : String
  forwardStdin : Bool
  deriving DecidableEq

/-- One private server endpoint and the adapter settings that manage it. -/
structure BackendConfig where
  backend : SocketAddr
  server : ServerConfig
  deriving DecidableEq

structure Config where
  listen : SocketAddr
  backend : SocketAddr
  server : ServerConfig
  routes : ExtTreeMap String BackendConfig
  idleTimeout : Duration
  bootTimeout : Duration
  sessionTimeout : Duration
  shutdownGrace : Duration

def ServerConfig.default : ServerConfig where
  provider := .process
  command := "java"
  args := ["-jar", "HytaleServer.jar"]
  workingDir := "."
  forwardStdin := true

/-- `Default for Config`: listen on `[::]:5520`, backend on `127.0.0.1:5521`.
Durations are in seconds here; nothing below depends on the unit. -/
def Config.default : Config where
  listen := .v6 0 defaultPort 0 0
  backend := .v4 0x7f000001 (defaultPort + 1)
  server := .default
  routes := ∅
  idleTimeout := 900
  bootTimeout := 300
  sessionTimeout := 90
  shutdownGrace := 10

/-- `name.strip_suffix('.')`. -/
def stripDot (name : String) : Option String :=
  if name.toList.getLast? = some '.' then some (String.ofList name.toList.dropLast) else none

def toAsciiLowercase (name : String) : String := String.ofList (name.toList.map Char.toLower)

def normalize (name : String) : String := toAsciiLowercase ((stripDot name).getD name)

/-- What holds a backend address, for the message about a second use of it. -/
inductive Owner where
  | defaultBackend
  | route (name : String)
  deriving DecidableEq, Repr

/-- The ways `validate` refuses a configuration, one for each check. -/
inductive ConfigError where
  | sharedListen (listen : SocketAddr)
  | listenPortZero
  | backendPortZero
  | emptyCommand
  | routeNameLength (name : String) (length : Nat)
  | routePortZero (name : String)
  | routeListen (name : String) (listen : SocketAddr)
  | sameName (other name : String)
  | sameBackend (other : Owner) (name : String) (backend : SocketAddr)
  | routeEmptyCommand (name : String)
  | consoleShared (interactive : Nat)
  deriving DecidableEq, Repr

def Owner.text (debug : String → String) : Owner → String
  | defaultBackend => "default backend"
  | route name => "route " ++ debug name

/-- The message of each check. Quoting a name (`{:?}`) and showing an address
(`{}`) are the formatting of the standard library. -/
def ConfigError.message (debug : String → String) (display : SocketAddr → String) :
    ConfigError → String
  | sharedListen listen =>
      "listen and backend must differ; the proxy and the server cannot share " ++ display listen
  | listenPortZero =>
      "listen port must be fixed, not 0 — players need a stable port to reconnect to"
  | backendPortZero =>
      "backend port must be fixed, not 0 — the proxy has to know where to forward"
  | emptyCommand => "server.command must not be empty"
  | routeNameLength name length =>
      "route names must be 1 to " ++ toString maxServerName ++ " characters; " ++ debug name ++
        " is " ++ toString length
  | routePortZero name => "route " ++ debug name ++ " backend port must be fixed, not 0"
  | routeListen name listen =>
      "route " ++ debug name ++ " points at " ++ display listen ++
        ", which is the proxy's own listen address"
  | sameName other name =>
      "routes " ++ debug other ++ " and " ++ debug name ++ " are the same server name"
  | sameBackend other name backend =>
      other.text debug ++ " and route " ++ debug name ++ " use the same backend address " ++
        display backend
  | routeEmptyCommand name => "route " ++ debug name ++ ".command must not be empty"
  | consoleShared interactive =>
      "only one backend may set forward_stdin = true; " ++ toString interactive ++ " do"

def ensure (cond : Prop) [Decidable cond] (error : ConfigError) : Except ConfigError Unit :=
  if cond then .ok () else .error error

/-- `anyhow::bail!` on the previous value `BTreeMap::insert` returned, if any. -/
def vacant {α : Type} (previous : Option α) (error : α → ConfigError) : Except ConfigError Unit :=
  match previous with
  | some other => .error (error other)
  | none => .ok ()

/-- The loop over the routes, with the names and the addresses seen so far. -/
def checkRoutes (listen : SocketAddr) :
    List (String × BackendConfig) → ExtTreeMap String String → ExtTreeMap SocketAddr Owner →
      Except ConfigError Unit
  | [], _, _ => .ok ()
  | (name, route) :: rest, names, backends => do
      ensure (1 ≤ name.utf8ByteSize ∧ name.utf8ByteSize ≤ maxServerName)
        (.routeNameLength name name.utf8ByteSize)
      ensure (route.backend.port ≠ 0) (.routePortZero name)
      ensure (route.backend ≠ listen) (.routeListen name listen)
      vacant names[normalize name]? (.sameName · name)
      vacant backends[route.backend]? (.sameBackend · name route.backend)
      ensure (route.server.command ≠ "") (.routeEmptyCommand name)
      checkRoutes listen rest (names.insert (normalize name) name)
        (backends.insert route.backend (.route name))

def Config.interactive (config : Config) : Nat :=
  ((config.server :: config.routes.toList.map (·.2.server)).filter (·.forwardStdin)).length

def Config.validate (config : Config) : Except ConfigError Unit := do
  ensure (config.listen ≠ config.backend) (.sharedListen config.listen)
  ensure (config.listen.port ≠ 0) .listenPortZero
  ensure (config.backend.port ≠ 0) .backendPortZero
  ensure (config.server.command ≠ "") .emptyCommand
  checkRoutes config.listen config.routes.toList ∅ ((∅ : ExtTreeMap SocketAddr Owner).insert
    config.backend .defaultBackend)
  ensure (config.interactive ≤ 1) (.consoleShared config.interactive)

def Config.defaultBackend (config : Config) : BackendConfig where
  backend := config.backend
  server := config.server

/-- Resolves the name in a ClientHello to a backend configuration. -/
structure Routes where
  default : BackendConfig
  table : ExtTreeMap String BackendConfig

def Config.toRoutes (config : Config) : Routes where
  default := config.defaultBackend
  table := ExtTreeMap.ofList (config.routes.toList.map fun route => (normalize route.1, route.2))

def Routes.resolve (routes : Routes) (serverName : Option String) : BackendConfig :=
  ((serverName.map normalize).bind fun name => routes.table[name]?).getD routes.default

def Routes.all (routes : Routes) : List BackendConfig :=
  routes.default :: routes.table.toList.map (·.2)

end Sleepytale
