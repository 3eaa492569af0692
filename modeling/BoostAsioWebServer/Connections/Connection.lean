/-
  File:      BoostAsioWebServer/Connections/Connection.lean
  Subject:   A CONNECTION (`Connections/Connection.cpp`, `Connections/SecuredConnection.cpp`), one
             handler a step.

  A connection has at most one asynchronous operation under way (`pending`); its completion is an
  event, and `complete` runs the handler the operation was given. What a handler does that can be
  seen from outside is appended to `log`. The two transports differ in `start`, in the handshake and
  in what `handleWrite` shuts down; `handleRead` is the same text in both sources.

  The contextual conversion of a `boost::optional<bool>` tests that it holds a value, not the
  value: `if (result)` is `result.isSome`.
-/
import BoostAsioWebServer.Agents.RequestParserAgent
import BoostAsioWebServer.Services.RequestURIParserService
import BoostAsioWebServer.Services.ReplyServices

namespace BoostAsioWebServer

open ByteText Feed

/-! ## 1. Data -/

/-- What the connections of a server share: code outside the repository, the registered web
    services, the CORS configuration. -/
structure Services where
  env : External
  webServices : List WebService
  cors : CORSConfiguration

/-- One web service that answers every request with its URI. -/
def Services.echo : Services where
  env := .reference
  webServices := [fun request => some { Reply.ofStatus .ok with content := request.uri }]
  cors := .off

/-- The transport of a server's connections. -/
inductive Transport where
  | plain
  | secured
  deriving DecidableEq, Repr

/-- An asynchronous operation. -/
inductive Operation where
  | handshake
  | read
  | write
  deriving DecidableEq, Repr

/-- The bytes of one successful read: at least one, at most what the buffer holds. -/
structure ReadData where
  bytes : Bytes
  pos : 0 < bytes.length
  le_size : bytes.length ≤ 8192

/-- `boost::array<char, 8192>`. -/
structure ReadBuffer where
  bytes : Bytes
  size_eq : bytes.length = 8192

/-- The buffer as the constructor leaves it. -/
def ReadBuffer.zero : ReadBuffer := ⟨List.replicate 8192 0, List.length_replicate⟩

/-- A read overwrites the start of the buffer; behind it the bytes of earlier reads remain. -/
def ReadBuffer.overwrite (b : ReadBuffer) (data : ReadData) : ReadBuffer :=
  ⟨data.bytes ++ b.bytes.drop data.bytes.length, by
    have h1 := b.size_eq
    have h2 := data.le_size
    rw [List.length_append, List.length_drop]
    omega⟩

/-- The first bytes of the buffer, as `parseBuffer` is given them. -/
def ReadBuffer.first (b : ReadBuffer) (n : Nat) : Buffer :=
  ⟨b.bytes.take n, by
    have h1 := b.size_eq
    have h2 := List.length_take_le n b.bytes
    rw [List.length_take]
    omega⟩

/-- The bytes of a read are what its handler finds in the buffer. -/
theorem ReadBuffer.first_overwrite (b : ReadBuffer) (data : ReadData) :
    ((b.overwrite data).first data.bytes.length).data = data.bytes :=
  List.take_left

/-- What a connection does, in order. -/
inductive Action where
  | started
  | asyncHandshake
  | asyncRead
  | parsed (result : Option Bool)
  | uriParsed (accepted : Bool)
  | process (call : ServiceCall)
  | serialised (reply : Reply)
  | threw
  | asyncWrite (buffer : Bytes)
  | shutdown (transport : Transport)

/-- The fields of `Connection` and of `SecuredConnection`, the operation under way and what was
    done. -/
structure Connection where
  requestBuffer : ReadBuffer
  replyBuffer : Bytes
  agent : RequestParserAgent
  request : Request
  reply : Option Reply
  pending : Option Operation
  log : List Action

/-- The constructor. -/
def Connection.built : Connection where
  requestBuffer := .zero
  replyBuffer := []
  agent := .fresh
  request := {}
  reply := none
  pending := none
  log := []

/-- The parser's part of a connection. -/
def Connection.parse (c : Connection) : Parse := ⟨c.agent, c.request⟩

/-! ## 2. Starting -/

/-- `m_socket.async_read_some` with `handleRead`. -/
def Connection.asyncReadSome (c : Connection) : Connection :=
  { c with pending := some .read, log := c.log ++ [.asyncRead] }

/-- `Connection::start`. -/
def Connection.start (c : Connection) : Connection :=
  { c with request := {}, reply := none, log := c.log ++ [Action.started] }.asyncReadSome

/-- `SecuredConnection::start`. -/
def SecuredConnection.start (c : Connection) : Connection :=
  { c with
    request := {}
    reply := none
    pending := some .handshake
    log := c.log ++ [.started, .asyncHandshake] }

/-- `SecuredConnection::handleHandshake`. -/
def SecuredConnection.handleHandshake (c : Connection) (failed : Bool) : Connection :=
  if !failed then c.asyncReadSome else c

/-- `IConnection::start`. -/
def Transport.start : Transport → Connection → Connection
  | .plain, c => c.start
  | .secured, c => SecuredConnection.start c

/-! ## 3. Reading and replying -/

section Handlers

variable (services : Services)

/-- The branch of `handleRead` behind a verdict: the URI, the reply, the CORS headers, the write. -/
def Connection.respond (c : Connection) (result : Option Bool) : Connection :=
  let (c, result) :=
    if result.isSome then
      let (request, accepted) := RequestURIParserService.parse c.request
      ({ c with request := request, log := c.log ++ [Action.uriParsed accepted] }, some accepted)
    else (c, result)
  let (c, reply) :=
    if result.isSome then
      let (calls, reply) := processRequest services.webServices c.request
      ({ c with log := c.log ++ calls.map .process }, reply)
    else (c, Reply.ofStatus .badRequest)
  let reply := addCORSHeaders services.env services.cors c.request reply
  let c := { c with reply := some reply, log := c.log ++ [Action.serialised reply] }
  match buildBuffer reply with
  | some buffer =>
    { c with
      replyBuffer := buffer
      pending := some .write
      log := c.log ++ [Action.asyncWrite buffer] }
  | none => { c with log := c.log ++ [Action.threw] }

/-- `handleRead`, the same in both connection classes. -/
def Connection.handleRead (c : Connection) (failed : Bool) (bytesTransferred : Nat) : Connection :=
  if !failed then
    let (p, result) :=
      parseBuffer services.env.lexicalCast c.parse (c.requestBuffer.first bytesTransferred)
    let c := { c with
      agent := p.agent
      request := p.request
      log := c.log ++ [Action.parsed result] }
    if !result.isSome then c.asyncReadSome else c.respond services result
  else c

/-- `SecuredConnection::handleRead`. -/
def SecuredConnection.handleRead (c : Connection) (failed : Bool) (bytesTransferred : Nat) :
    Connection := Connection.handleRead services c failed bytesTransferred

/-- `Connection::handleWrite`: the TCP socket is shut down, which waits for nobody. -/
def Connection.handleWrite (c : Connection) (failed : Bool) : Connection :=
  if !failed then { c with log := c.log ++ [.shutdown .plain] } else c

/-- `SecuredConnection::handleWrite`: the TLS stream is shut down. That call writes `close_notify`
    and comes back when the peer has answered or is gone; until then it keeps the thread, which
    ServerHeld.lean models. -/
def SecuredConnection.handleWrite (c : Connection) (failed : Bool) : Connection :=
  if !failed then { c with log := c.log ++ [.shutdown .secured] } else c

/-- `handleRead` of the transport's connection class. -/
def Transport.handleRead : Transport → Connection → Bool → Nat → Connection
  | .plain => Connection.handleRead services
  | .secured => SecuredConnection.handleRead services

/-- `handleWrite` of the transport's connection class. -/
def Transport.handleWrite : Transport → Connection → Bool → Connection
  | .plain => Connection.handleWrite
  | .secured => SecuredConnection.handleWrite

/-! ## 4. Completions -/

/-- The completion of an asynchronous operation. -/
inductive Completion where
  | handshake (failed : Bool)
  | read (data : ReadData)
  | readFailed
  | write (failed : Bool)

/-- The operation a completion ends. -/
def Completion.operation : Completion → Operation
  | .handshake _ => .handshake
  | .read _ => .read
  | .readFailed => .read
  | .write _ => .write

/-- The handler of a completion; the operation it ends is under way no more. -/
def Connection.handle (transport : Transport) (c : Connection) : Completion → Connection
  | .handshake failed => SecuredConnection.handleHandshake { c with pending := none } failed
  | .read data =>
    transport.handleRead services
      { c with pending := none, requestBuffer := c.requestBuffer.overwrite data } false
      data.bytes.length
  | .readFailed => transport.handleRead services { c with pending := none } true 0
  | .write failed => transport.handleWrite { c with pending := none } failed

/-- The handler of a write: behind one that succeeded, the transport's shutdown. -/
theorem Connection.handle_write (transport : Transport) (c : Connection) (failed : Bool) :
    c.handle services transport (.write failed) =
      { c with
        pending := none
        log := c.log ++ if failed then [] else [.shutdown transport] } := by
  unfold Connection.handle Transport.handleWrite
  cases failed with
  | true => cases transport <;> simp [Connection.handleWrite, SecuredConnection.handleWrite]
  | false => cases transport <;> rfl

/-- **One step**: an operation that is under way completes and its handler runs. -/
def Connection.complete (transport : Transport) (c : Connection) (e : Completion) :
    Option Connection :=
  if c.pending = some e.operation then some (c.handle services transport e) else none

/-! ## 5. What a verdict leads to -/

/-- What `respond` makes of a request. -/
structure Answer where
  request : Request
  accepted : Bool
  calls : List ServiceCall
  reply : Reply
  buffer : Option Bytes

/-- The answer to a request: the URI parser's result, the web services' calls, the reply. -/
def answer (request : Request) : Answer :=
  let (request, accepted) := RequestURIParserService.parse request
  let (calls, reply) := processRequest services.webServices request
  let reply := addCORSHeaders services.env services.cors request reply
  ⟨request, accepted, calls, reply, buildBuffer reply⟩

/-- What is done behind a verdict. -/
def Answer.actions (a : Answer) : List Action :=
  .uriParsed a.accepted :: a.calls.map .process ++
    [.serialised a.reply, a.buffer.elim .threw .asyncWrite]

/-- **A verdict, whatever its value, leads to the answer**: the URI is parsed and the web services
    are called. -/
theorem Connection.respond_eq (c : Connection) (hc : c.pending = none) (verdict : Bool) :
    c.respond services (some verdict) =
      let a := answer services c.request
      { c with
        request := a.request
        reply := some a.reply
        replyBuffer := a.buffer.getD c.replyBuffer
        pending := a.buffer.map fun _ => .write
        log := c.log ++ a.actions } := by
  unfold Connection.respond answer
  simp only [Option.isSome_some, if_true]
  split
  · rename_i buffer hbuffer
    simp only [hbuffer, Answer.actions, Option.elim_some, Option.getD_some, Option.map_some]
    simp
  · rename_i hbuffer
    simp only [hbuffer, Answer.actions, Option.elim_none, Option.getD_none, Option.map_none, hc]
    simp

end Handlers

end BoostAsioWebServer
