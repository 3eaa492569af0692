/-
  File:      BoostAsioWebServer/Connections/ReadParts.lean
  Subject:   `handleRead` IN PARTS (`Connections/Connection.cpp`): before its call of
             `processRequest`, the calls of web services inside of it, and behind its reply.

  What a thread does with its connection between two accesses to what it shares with the others.
  Put together the parts are the handler (`beforeProcess_none`, `beforeProcess_some`,
  `midRead_process`, `midRead_afterProcess`), and the registry has a part only in a read that brings
  the verdict (`handle_congr`).
-/
import BoostAsioWebServer.Connections.Serving

namespace BoostAsioWebServer

open ByteText Feed

section Handlers

/-! ## 1. The parts -/

variable (env : External) (cors : CORSConfiguration)

/-- `handleRead` up to its call of `processRequest`, and whether that call comes. The second test
    of the result holds, since the URI parser's answer has replaced it. -/
def Connection.beforeProcess (c : Connection) (bytesTransferred : Nat) : Connection × Bool :=
  let (p, result) := parseBuffer env.lexicalCast c.parse (c.requestBuffer.first bytesTransferred)
  let c := { c with
    agent := p.agent
    request := p.request
    log := c.log ++ [Action.parsed result] }
  if !result.isSome then (c.asyncReadSome, false)
  else
    let (request, accepted) := RequestURIParserService.parse c.request
    ({ c with request := request, log := c.log ++ [Action.uriParsed accepted] }, true)

/-- A call of `IWebService::process` for the connection. -/
def Connection.process (c : Connection) (index : UInt32) : Connection :=
  { c with log := c.log ++ [Action.process ⟨index.toNat, c.request⟩] }

/-- `handleRead` from the reply of `processRequest` on. -/
def Connection.afterProcess (c : Connection) (reply : Reply) : Connection :=
  let reply := addCORSHeaders env cors c.request reply
  let c := { c with reply := some reply, log := c.log ++ [Action.serialised reply] }
  match buildBuffer reply with
  | some buffer =>
    { c with
      replyBuffer := buffer
      pending := some .write
      log := c.log ++ [Action.asyncWrite buffer] }
  | none => { c with log := c.log ++ [Action.threw] }

/-! ## 2. The parts put together -/

variable {env cors}

/-- A connection inside `processRequest`, behind the calls it has made. -/
def Connection.midRead (c : Connection) (data : ReadData) (p : Parse) (verdict : Bool)
    (calls : List ServiceCall) : Connection :=
  { c with
    requestBuffer := c.requestBuffer.overwrite data
    agent := p.agent
    request := (RequestURIParserService.parse p.request).1
    pending := none
    log := c.log ++ .parsed (some verdict) ::
      .uriParsed (RequestURIParserService.parse p.request).2 :: calls.map .process }

/-- A read without a verdict runs to its end: it reads on, and no service has a part in it. -/
theorem beforeProcess_none {c : Connection} {data : ReadData} {p : Parse}
    (h : feed (consume env.lexicalCast) c.parse data.bytes = (p, none))
    (webServices : List WebService) :
    ({ c with pending := none, requestBuffer := c.requestBuffer.overwrite data } :
      Connection).beforeProcess env data.bytes.length =
        (c.afterRead ⟨env, webServices, cors⟩ data, false) := by
  unfold Connection.beforeProcess Connection.afterRead
  simp only [parseBuffer, ReadBuffer.first_overwrite]
  have hparse : ({ c with
    pending := none, requestBuffer := c.requestBuffer.overwrite data } : Connection).parse =
    c.parse := rfl
  rw [hparse, h]
  rfl

/-- A read with a verdict comes to `processRequest`. -/
theorem beforeProcess_some {c : Connection} {data : ReadData} {p : Parse} {verdict : Bool}
    (h : feed (consume env.lexicalCast) c.parse data.bytes = (p, some verdict)) :
    ({ c with pending := none, requestBuffer := c.requestBuffer.overwrite data } :
      Connection).beforeProcess env data.bytes.length = (c.midRead data p verdict [], true) := by
  unfold Connection.beforeProcess Connection.midRead
  simp only [parseBuffer, ReadBuffer.first_overwrite]
  have hparse : ({ c with
    pending := none, requestBuffer := c.requestBuffer.overwrite data } : Connection).parse =
    c.parse := rfl
  rw [hparse, h]
  simp

theorem midRead_process (c : Connection) (data : ReadData) (p : Parse) (verdict : Bool)
    (calls : List ServiceCall) (index : UInt32) :
    (c.midRead data p verdict calls).process index =
      c.midRead data p verdict
        (calls ++ [⟨index.toNat, (RequestURIParserService.parse p.request).1⟩]) := by
  unfold Connection.process Connection.midRead
  simp

/-- **The end of `handleRead`**: behind the calls and the reply of `processRequest` the connection
    is where the whole handler leads. -/
theorem midRead_afterProcess {c : Connection} {data : ReadData} {p : Parse} {verdict : Bool}
    {webServices : List WebService} {calls : List ServiceCall} {reply : Reply}
    (h : feed (consume env.lexicalCast) c.parse data.bytes = (p, some verdict))
    (hprocess : processRequest webServices (RequestURIParserService.parse p.request).1 =
      (calls, reply)) :
    (c.midRead data p verdict calls).afterProcess env cors reply =
      c.afterRead ⟨env, webServices, cors⟩ data := by
  rw [@afterRead_verdict ⟨env, webServices, cors⟩ c data p verdict h]
  simp only [answer, hprocess]
  unfold Connection.afterProcess Connection.midRead
  cases hbuffer : buildBuffer (addCORSHeaders env cors
      (RequestURIParserService.parse p.request).1 reply) with
  | none => simp [Answer.actions, hbuffer]
  | some buffer => simp [Answer.actions, hbuffer]

/-- The registry has a part only in a read that brings the verdict. -/
theorem handle_congr (transport : Transport) {c : Connection} {completion : Completion}
    (h : ∀ data, completion = .read data →
      (feed (consume env.lexicalCast) c.parse data.bytes).2 = none) (ws ws' : List WebService) :
    c.handle ⟨env, ws, cors⟩ transport completion =
      c.handle ⟨env, ws', cors⟩ transport completion := by
  cases completion with
  | handshake failed => rfl
  | read data =>
    rw [handle_read, handle_read]
    unfold Connection.afterRead
    have hnone := h data rfl
    rcases hp : feed (consume env.lexicalCast) c.parse data.bytes with ⟨p, o⟩
    rw [hp] at hnone
    obtain rfl : o = none := hnone
    rfl
  | readFailed =>
    cases transport with
    | plain => rfl
    | secured => rfl
  | write failed => rfl

end Handlers

end BoostAsioWebServer
