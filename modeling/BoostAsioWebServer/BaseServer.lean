/-
  File:      BoostAsioWebServer/BaseServer.lean
  Subject:   THE SERVER (`BaseServer.cpp`, `buildConnection` of `Server.cpp` and
             `SecuredServer.cpp`): lifecycle, acceptor, connections.

  `start` and `stop` keep every change made before an exception: each returns the state it leaves
  and whether it returned or threw. What the operating system decides in a call of `start` is its
  argument (`StartOutcomes`). `step` is one event of a server: a call of `start` or `stop`, or the
  completion of an accept or of a connection's operation, whose handler runs whole.

  Assumed of Asio: `open` throws on an open acceptor; `stop` puts the `io_service` in a state in
  which every `run` returns at once and no handler runs; nothing but `reset` ends that state. Of the
  standard library: `join` on a thread that is not joinable throws, and an exception that leaves a
  thread's function ends the process.
-/
import BoostAsioWebServer.Connections.Connection

namespace BoostAsioWebServer

open ByteText

/-! ## 1. Data -/

/-- An IP address. -/
inductive Address where
  | v4 (value : UInt32)
  | v6 (value : BitVec 128)
  deriving DecidableEq

/-- `boost::asio::ip::tcp::endpoint`. -/
structure Endpoint where
  address : Address
  port : UInt16
  deriving DecidableEq

/-- The acceptor. It is never closed again. -/
inductive Acceptor where
  | closed
  | opened
  | bound (endpoint : Endpoint)
  | listening (endpoint : Endpoint)
  deriving DecidableEq

/-- A `std::thread` of the pool: whether it is joinable, how often it was joined, how often `join`
    was called on it in vain, and whether it is inside `io_service::run`. -/
structure Thread where
  joinable : Bool
  joins : Nat
  failedJoins : Nat
  serving : Bool
  deriving DecidableEq

/-- `io_service::run` returns in the thread. -/
def Thread.leave (t : Thread) : Thread := { t with serving := false }

/-- The fields of `BaseServer`, the connections built so far, and the accepts under way, each with
    the connection whose socket it was given. `newConnection` is a position in `connections`. -/
structure BaseServer where
  ioStopped : Bool
  acceptor : Acceptor
  threads : List Thread
  running : Bool
  newConnection : Option Nat
  connections : List Connection
  pendingAccepts : List Nat
  crashed : Bool

/-- The constructor. -/
def BaseServer.new : BaseServer where
  ioStopped := false
  acceptor := .closed
  threads := []
  running := false
  newConnection := none
  connections := []
  pendingAccepts := []
  crashed := false

/-- What the operating system decides in a call of `start`: name resolution (`none` where it
    throws), whether each call on the acceptor succeeds, and which threads can be created. -/
structure StartOutcomes where
  resolve : Bytes → Bytes → Option Endpoint
  opens : Bool
  setsOption : Bool
  binds : Bool
  listens : Bool
  createsThread : Nat → Bool

/-- How a call ends. -/
inductive Outcome where
  | returned
  | threw
  deriving DecidableEq

/-! ## 2. Accepting -/

/-- `BaseServer::startAcceptor`; `buildConnection` hands out a fresh connection. -/
def BaseServer.startAcceptor (s : BaseServer) : BaseServer :=
  { s with
    connections := s.connections ++ [.built]
    newConnection := some s.connections.length
    pendingAccepts := s.pendingAccepts ++ [s.connections.length] }

/-- `m_newConnection->start()`. -/
def BaseServer.startNewConnection (transport : Transport) (s : BaseServer) : BaseServer :=
  match s.newConnection with
  | some i => { s with connections := s.connections.modify i transport.start }
  | none => s

/-- `BaseServer::handleAccept`. -/
def BaseServer.handleAccept (transport : Transport) (s : BaseServer) (failed : Bool) : BaseServer :=
  let s := if !failed then s.startNewConnection transport else s
  if s.running then s.startAcceptor else s

/-! ## 3. Starting and stopping -/

section Lifecycle

variable (configuration : Configuration)

/-- The endpoint `openAcceptor` builds: any IPv4 address and the port, cut to 16 bits, or what the
    resolver answers for the host and the text of the port. -/
def Configuration.endpoint (os : StartOutcomes) : Option Endpoint :=
  if configuration.singleHostAddress then some ⟨.v4 0, configuration.port.toUInt16⟩
  else os.resolve configuration.hostAddress (intText configuration.port.toNat)

/-- `BaseServer::openAcceptor`. -/
def BaseServer.openAcceptor (os : StartOutcomes) (s : BaseServer) : BaseServer × Outcome :=
  match configuration.endpoint os with
  | none => (s, .threw)
  | some endpoint =>
    if s.acceptor ≠ .closed || !os.opens then (s, .threw)
    else
      let s := { s with acceptor := .opened }
      if !os.setsOption then (s, .threw)
      else if !os.binds then (s, .threw)
      else
        let s := { s with acceptor := .bound endpoint }
        if !os.listens then (s, .threw)
        else
          let s := { s with acceptor := .listening endpoint, running := true }
          (s.startAcceptor, .returned)

/-- The loop of `BaseServer::start` for the last `n` threads, from the thread at `i` on. A new
    thread is inside `run` unless the `io_service` is stopped. -/
def BaseServer.startThreads (os : StartOutcomes) : Nat → Nat → BaseServer → BaseServer × Outcome
  | 0, _, s => (s, .returned)
  | n + 1, i, s =>
    if os.createsThread i then
      startThreads os n (i + 1) { s with threads := s.threads ++ [⟨true, 0, 0, !s.ioStopped⟩] }
    else (s, .threw)

/-- `BaseServer::start`. -/
def BaseServer.start (os : StartOutcomes) (s : BaseServer) : BaseServer × Outcome :=
  match s.openAcceptor configuration os with
  | (s, .threw) => (s, .threw)
  | (s, .returned) => s.startThreads os configuration.threadPoolSize 0

/-- The loop of `BaseServer::stop`: a thread that is not joinable makes `join` throw. -/
def joinAll : List Thread → List Thread × Outcome
  | [] => ([], .returned)
  | t :: ts =>
    if t.joinable then
      let (ts, outcome) := joinAll ts
      ({ t with joinable := false, joins := t.joins + 1 } :: ts, outcome)
    else ({ t with failedJoins := t.failedJoins + 1 } :: ts, .threw)

/-- `BaseServer::stop`. The threads leave `run` before they are joined. -/
def BaseServer.stop (s : BaseServer) : BaseServer × Outcome :=
  let s := { s with ioStopped := true, threads := s.threads.map Thread.leave }
  let (threads, outcome) := joinAll s.threads
  match outcome with
  | .threw => ({ s with threads := threads }, .threw)
  | .returned => ({ s with threads := threads, running := false }, .returned)

/-- `BaseServer::~BaseServer`; an exception that leaves it terminates the process. -/
def BaseServer.destroy (s : BaseServer) : BaseServer × Outcome := s.stop

/-! ## 4. Steps -/

/-- An event of a server. -/
inductive Event where
  | start (os : StartOutcomes)
  | stop
  | accept (index : Nat) (failed : Bool)
  | complete (index : Nat) (completion : Completion)

/-- Some thread runs the handlers. -/
def BaseServer.handlersRun (s : BaseServer) : Bool := !s.ioStopped && s.threads.any (·.serving)

/-- A handler let an exception through. -/
def hasThrown (log : List Action) : Bool :=
  log.any fun
    | .threw => true
    | _ => false

variable (services : Services) (transport : Transport)

/-- **One event.** A process that has crashed has no more events; a completion needs its operation
    under way and a thread to run its handler. -/
def BaseServer.step (s : BaseServer) : Event → Option BaseServer
  | .start os => if s.crashed then none else some (s.start configuration os).1
  | .stop => if s.crashed then none else some s.stop.1
  | .accept index failed =>
    if s.crashed = false ∧ s.handlersRun = true ∧ index ∈ s.pendingAccepts then
      some (BaseServer.handleAccept transport
        { s with pendingAccepts := s.pendingAccepts.erase index } failed)
    else none
  | .complete index completion =>
    if s.crashed = false ∧ s.handlersRun = true then
      match s.connections[index]? with
      | some c =>
        (c.complete services transport completion).map fun c =>
          { s with connections := s.connections.set index c, crashed := hasThrown c.log }
      | none => none
    else none

end Lifecycle

end BoostAsioWebServer
