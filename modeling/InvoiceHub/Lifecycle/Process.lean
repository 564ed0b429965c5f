import InvoiceHub.Effects.Run
import Mathlib.Data.Rat.Init
import Mathlib.Algebra.Order.Ring.Unbundled.Rat

/-!
# The life of a process

`ServerBootstrapper.start` awaits what the process depends on and then listens.  From then on each
signal runs a `shutDown` of its own, which closes the server, disconnects the services side by
side, each with retries, and exits.
-/

namespace InvoiceHub.Lifecycle

open Effects

/-! ## Configuration -/

/-- What `Number` makes of a variable of the environment. -/
inductive Number where
  | nan
  | finite (value : Rat)
  | infinity (negative : Bool)
  deriving DecidableEq

namespace Number

/-- `attempt <= n`. -/
def admits : Number → Nat → Bool
  | nan, _ => false
  | finite value, attempt => (attempt : Rat) ≤ value
  | infinity negative, _ => !negative

/-- `attempt === n`. -/
def equals : Number → Nat → Bool
  | finite value, attempt => (attempt : Rat) = value
  | _, _ => false

end Number

/-- What `start` awaits. -/
inductive Component where
  | KafkaInfrastructure
  | RedisInfrastructure
  | DataSource
  /-- The service of a key. -/
  | service (key : String)
  deriving DecidableEq

/-- `AppConfig`, and what is read from the environment. -/
structure Config where
  useTypeOrm : Bool
  /-- The keys of the services that have an `initialize`. -/
  serviceKeys : List String
  /-- The names of the services that are disconnected. -/
  gracefulShutDownService : List String
  SHUTDOWN_RETRIES : Number

/-- What `initializeDependencies` initializes, in this order. -/
def Config.components (c : Config) : List Component :=
  if c.useTypeOrm then
    [.KafkaInfrastructure, .RedisInfrastructure, .DataSource] ++ c.serviceKeys.map .service
  else []

/-! ## State -/

/-- Where `executeWithRetry` stands. -/
inductive Retry where
  /-- It awaits the attempt. -/
  | calling (attempt : Nat)
  /-- It awaits `delay` after the attempt. -/
  | delaying (attempt : Nat)
  | resolved
  | rejected
  deriving DecidableEq

/-- Where `shutDown` stands. -/
inductive ShutDown where
  /-- It awaits the callback of `close`. -/
  | closing
  /-- It awaits `disconnectServices`. -/
  | disconnecting (retries : List Retry)

/-- How a process has ended. -/
inductive Exit where
  | code (n : Nat)
  /-- By a signal that nothing handles. -/
  | killed
  deriving DecidableEq

/-- What has happened. -/
inductive Event where
  | initialized (component : Component)
  /-- `start` has failed. -/
  | startFailed
  /-- An exception or a rejection that nothing handles. -/
  | uncaught
  | closed (i : Nat)
  | closeFailed (i : Nat)
  /-- In the `i`-th shutdown, `disconnect` of the `j`-th service is called. -/
  | called (i j : Nat)
  | disconnected (i j : Nat)
  | failed (i j : Nat)
  deriving DecidableEq

/-- A process; `pending` is what `start` has not initialized yet. -/
structure Process where
  pending : List Component
  /-- Signals are handled. -/
  started : Bool := false
  /-- `httpServer.listening`. -/
  listening : Bool := false
  shutdowns : List ShutDown := []
  exited : Option Exit := none
  history : List Event := []

/-! ## Methods -/

section Methods

variable (c : Config) (s : Process)

/-- The loop of `executeWithRetry` comes to an attempt. -/
def attempted (attempt : Nat) : Retry :=
  if c.SHUTDOWN_RETRIES.admits attempt then .calling attempt else .rejected

/-- An attempt fails. -/
def failedAt (attempt : Nat) : Retry :=
  if c.SHUTDOWN_RETRIES.equals attempt then .rejected else .delaying attempt

/-- The `i`-th shutdown goes on.  `Promise.all` settles once one service has failed or all are
disconnected, and either way `finally` exits. -/
def goOn (i : Nat) (retries : List Retry) : Process :=
  { s with
    shutdowns := s.shutdowns.set i (.disconnecting retries)
    exited :=
      if .rejected ∈ retries ∨ ∀ retry ∈ retries, retry = .resolved then some (.code 0)
      else s.exited }

def note (events : List Event) : Process := { s with history := s.history ++ events }

/-- A retry awaits a call of `disconnect`. -/
def isCalling : Retry → Bool
  | .calling _ => true
  | _ => false

/-- The call that a retry has made, if it has made one. -/
def callsOf (i j : Nat) (retry : Retry) : List Event :=
  if isCalling retry then [.called i j] else []

/-- `disconnectServices`, up to its first `await`. -/
def disconnectServices (i : Nat) : Process :=
  goOn (note s ((List.range c.gracefulShutDownService.length).flatMap fun j =>
    callsOf i j (attempted c 1))) i (c.gracefulShutDownService.map fun _ => attempted c 1)

/-- `shutDown`, up to its first `await`; `close` makes the server stop listening at once. -/
def shutDown : Process :=
  let started := { s with shutdowns := s.shutdowns ++ [.closing] }
  if s.listening then { started with listening := false }
  else disconnectServices c started s.shutdowns.length

end Methods

/-! ## Runs -/

/-- What may happen next. -/
inductive Label where
  /-- What `start` awaits is initialized. -/
  | initialized
  /-- It fails, or what comes after it does. -/
  | startFailed
  /-- All is initialized: signals are handled from now on, and the server listens. -/
  | listen
  | signal
  | uncaught
  /-- The callback of `close` is called, for the `i`-th shutdown. -/
  | close (i : Nat) (ok : Bool)
  /-- In the `i`-th shutdown, `disconnect` of the `j`-th service settles. -/
  | settle (i j : Nat) (ok : Bool)
  /-- Its `delay` is over. -/
  | delayed (i j : Nat)

/-- What a label does where it is enabled. -/
def fire (c : Config) (s : Process) (label : Label) : Option Process :=
  if s.exited ≠ none then none
  else match label with
  | .initialized =>
    match s.pending with
    | component :: pending => some (note { s with pending } [.initialized component])
    | [] => none
  | .startFailed =>
    if s.started then none else some (note { s with exited := some (.code 1) } [.startFailed])
  | .listen =>
    if s.pending = [] ∧ s.started = false then some { s with started := true, listening := true }
    else none
  | .signal => if s.started then some (shutDown c s) else some { s with exited := some .killed }
  | .uncaught => some (note { s with exited := some (.code 1) } [.uncaught])
  | .close i ok =>
    match s.shutdowns[i]? with
    | some .closing =>
      if ok then some (disconnectServices c (note s [.closed i]) i)
      else some (note { s with exited := some (.code 0) } [.closeFailed i])
    | _ => none
  | .settle i j ok =>
    match s.shutdowns[i]? with
    | some (.disconnecting retries) =>
      match retries[j]? with
      | some (.calling attempt) =>
        if ok then some (goOn (note s [.disconnected i j]) i (retries.set j .resolved))
        else some (goOn (note s [.failed i j]) i (retries.set j (failedAt c attempt)))
      | _ => none
    | _ => none
  | .delayed i j =>
    match s.shutdowns[i]? with
    | some (.disconnecting retries) =>
      match retries[j]? with
      | some (.delaying attempt) =>
        let retry := attempted c (attempt + 1)
        some (goOn (note s (callsOf i j retry)) i (retries.set j retry))
      | _ => none
    | _ => none

/-- A process with a configuration. -/
def machine (c : Config) : Machine Process Label where
  initial := { pending := c.components }
  fire := fire c

end InvoiceHub.Lifecycle
