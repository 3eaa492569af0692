/-
  File:      BoostAsioWebServer/Agents/RequestParserAgent.lean
  Subject:   THE REQUEST PARSER (`Agents/RequestParserAgent.cpp`), byte by byte.

  `consume` is the switch of the source, one branch a state. It works on a `Parse`: the agent's
  own fields and the `Request` it fills in. `parseBuffer` hands a buffer to `consume` and stops
  at the first verdict; it is `Feed.feed` over `consume`, so a request may be cut into buffers
  anywhere (`parseBuffers_flatten`).

  `char` is signed: a byte from 128 on reaches the tests of the source as a negative `int`
  (`charToInt`). `m_contentLength` is an `unsigned int` that is assigned from an `int`.
-/
import BoostAsioWebServer.Interface
import BoostAsioWebServer.Lib.Feed

namespace BoostAsioWebServer

open ByteText Feed

/-! ## 1. The agent -/

/-- `RequestParserAgent::ParsingState`. -/
inductive ParsingState where
  | methodStart
  | method
  | uri
  | httpVersionH
  | httpVersionT1
  | httpVersionT2
  | httpVersionP
  | httpVersionSlash
  | httpVersionMajorStart
  | httpVersionMajor
  | httpVersionMinorStart
  | httpVersionMinor
  | expectingNewline1
  | headerLineStart
  | headerName
  | spaceBeforeHeaderValue
  | headerValue
  | expectingNewline2
  | expectingNewline3
  | expectingContentChar1
  | expectingContentChar2
  | expectingContentChar3
  | expectingContentChar4
  deriving DecidableEq, Repr

/-- The fields of `RequestParserAgent`. -/
structure RequestParserAgent where
  state : ParsingState
  header : Bytes × Bytes
  contentLength : UInt32
  contentCharSize : Nat
  deriving DecidableEq, Repr

/-- The constructor. -/
def RequestParserAgent.fresh : RequestParserAgent := ⟨.methodStart, ([], []), 0, 0⟩

/-- An agent and the request it fills in. -/
structure Parse where
  agent : RequestParserAgent
  request : Request
  deriving DecidableEq, Repr

/-- A fresh agent on an empty request. -/
def Parse.fresh : Parse := ⟨.fresh, {}⟩

/-! ## 2. Character classes -/

/-- The conversion of a (signed) `char` to `int`. -/
def charToInt (c : UInt8) : Int := if c.toNat < 128 then c.toNat else c.toNat - 256

def isChar (c : Int) : Bool := decide (0 ≤ c) && decide (c ≤ 127)

def isCtl (c : Int) : Bool := (decide (0 ≤ c) && decide (c ≤ 31)) || decide (c = 127)

/-- The cases of the switch in `isTspecial`. -/
def tspecials : Bytes := ascii "()<>@,;:\\\"/[]?=\x7b\x7d \t"

def isTspecial (c : Int) : Bool := tspecials.any fun t => decide (c = t.toNat)

def isDigit (c : Int) : Bool := decide ((chr '0').toNat ≤ c) && decide (c ≤ (chr '9').toNat)

def getUTF8Length (c : UInt8) : Nat :=
  if c &&& 0x80 = 0 then 1
  else if c &&& 0xE0 = 0xC0 then 2
  else if c &&& 0xF0 = 0xE0 then 3
  else if c &&& 0xF8 = 0xF0 then 4
  else 0

def isValidUTF8ContinuationByte (c : UInt8) : Bool := c &&& 0xC0 = 0x80

/-- `::tolower` in the "C" locale. -/
def tolower (c : UInt8) : UInt8 := if 65 ≤ c.toNat ∧ c.toNat ≤ 90 then c + 32 else c

/-- The header whose value is the declared length of the body. -/
def isContentLength (name : Bytes) : Bool := name.map tolower = ascii "content-length"

/-! ## 3. `consume` -/

section Consume

variable (lexicalCast : Bytes → Option Int32)

/-- What the end of a header line makes of the declared content length: the value of a
    `Content-Length` header, `0` where it is no number, and no change for another header. -/
def contentLengthAfter (header : Bytes × Bytes) (contentLength : UInt32) : UInt32 :=
  if isContentLength header.1 then
    match lexicalCast header.2 with
    | some n => n.toUInt32
    | none => 0
  else contentLength

/-- `RequestParserAgent::consume`: one byte, and a verdict where there is one. -/
def consume (p : Parse) (input : UInt8) : Parse × Option Bool :=
  let c := charToInt input
  match p.agent.state with
  | .methodStart =>
    if !isChar c || isCtl c || isTspecial c then (p, some false)
    else ({ p with agent.state := .method, request.method := p.request.method ++ [input] }, none)
  | .method =>
    if input = chr ' ' then ({ p with agent.state := .uri }, none)
    else if !isChar c || isCtl c || isTspecial c then (p, some false)
    else ({ p with request.method := p.request.method ++ [input] }, none)
  | .uri =>
    if input = chr ' ' then ({ p with agent.state := .httpVersionH }, none)
    else if isCtl c then (p, some false)
    else ({ p with request.uri := p.request.uri ++ [input] }, none)
  | .httpVersionH =>
    if input = chr 'H' then ({ p with agent.state := .httpVersionT1 }, none) else (p, some false)
  | .httpVersionT1 =>
    if input = chr 'T' then ({ p with agent.state := .httpVersionT2 }, none) else (p, some false)
  | .httpVersionT2 =>
    if input = chr 'T' then ({ p with agent.state := .httpVersionP }, none) else (p, some false)
  | .httpVersionP =>
    if input = chr 'P' then ({ p with agent.state := .httpVersionSlash }, none) else (p, some false)
  | .httpVersionSlash =>
    if input = chr '/' then
      ({ p with
          request.httpVersionMajor := 0
          request.httpVersionMinor := 0
          agent.state := .httpVersionMajorStart }, none)
    else (p, some false)
  | .httpVersionMajorStart =>
    if isDigit c then
      ({ p with
          request.httpVersionMajor :=
            p.request.httpVersionMajor * 10 + input.toUInt32 - (chr '0').toUInt32
          agent.state := .httpVersionMajor }, none)
    else (p, some false)
  | .httpVersionMajor =>
    if input = chr '.' then ({ p with agent.state := .httpVersionMinorStart }, none)
    else if isDigit c then
      ({ p with request.httpVersionMajor :=
          p.request.httpVersionMajor * 10 + input.toUInt32 - (chr '0').toUInt32 }, none)
    else (p, some false)
  | .httpVersionMinorStart =>
    if isDigit c then
      ({ p with
          request.httpVersionMinor :=
            p.request.httpVersionMinor * 10 + input.toUInt32 - (chr '0').toUInt32
          agent.state := .httpVersionMinor }, none)
    else (p, some false)
  | .httpVersionMinor =>
    if input = CR then ({ p with agent.state := .expectingNewline1 }, none)
    else if isDigit c then
      ({ p with request.httpVersionMinor :=
          p.request.httpVersionMinor * 10 + input.toUInt32 - (chr '0').toUInt32 }, none)
    else (p, some false)
  | .expectingNewline1 =>
    if input = LF then ({ p with agent.state := .headerLineStart }, none) else (p, some false)
  | .headerLineStart =>
    if input = CR then ({ p with agent.state := .expectingNewline3 }, none)
    else if !isChar c || isCtl c || isTspecial c then (p, some false)
    else ({ p with agent.header := ([input], []), agent.state := .headerName }, none)
  | .headerName =>
    if input = chr ':' then ({ p with agent.state := .spaceBeforeHeaderValue }, none)
    else if !isChar c || isCtl c || isTspecial c then (p, some false)
    else ({ p with agent.header := (p.agent.header.1 ++ [input], p.agent.header.2) }, none)
  | .spaceBeforeHeaderValue =>
    if input = chr ' ' then ({ p with agent.state := .headerValue }, none) else (p, some false)
  | .headerValue =>
    if input = CR then
      ({ p with
          agent.contentLength :=
            contentLengthAfter lexicalCast p.agent.header p.agent.contentLength
          request.headers := p.request.headers ++ [p.agent.header]
          agent.header := ([], [])
          agent.state := .expectingNewline2 }, none)
    else if isCtl c then (p, some false)
    else ({ p with agent.header := (p.agent.header.1, p.agent.header.2 ++ [input]) }, none)
  | .expectingNewline2 =>
    if input = LF then ({ p with agent.state := .headerLineStart }, none) else (p, some false)
  | .expectingNewline3 =>
    if input = LF then
      if p.agent.contentLength > 0 then
        ({ p with agent.state := .expectingContentChar1 }, none)
      else (p, some true)
    else (p, some false)
  | .expectingContentChar1 =>
    let size := getUTF8Length input
    let sized : Parse := { p with agent.contentCharSize := size }
    if size > 0 then
      let content := p.request.content ++ [input]
      let stored : Parse := { sized with request.content := content }
      if size = 1 then
        if content.length ≥ p.agent.contentLength.toNat then (stored, some true)
        else (stored, none)
      else ({ stored with agent.state := .expectingContentChar2 }, none)
    else (sized, some false)
  | .expectingContentChar2 =>
    if isValidUTF8ContinuationByte input then
      let content := p.request.content ++ [input]
      let stored : Parse := { p with request.content := content }
      if p.agent.contentCharSize = 2 then
        if content.length ≥ p.agent.contentLength.toNat then (stored, some true)
        else ({ stored with agent.state := .expectingContentChar1 }, none)
      else ({ stored with agent.state := .expectingContentChar3 }, none)
    else (p, some false)
  | .expectingContentChar3 =>
    if isValidUTF8ContinuationByte input then
      let content := p.request.content ++ [input]
      let stored : Parse := { p with request.content := content }
      if p.agent.contentCharSize = 3 then
        if content.length ≥ p.agent.contentLength.toNat then (stored, some true)
        else ({ stored with agent.state := .expectingContentChar1 }, none)
      else ({ stored with agent.state := .expectingContentChar4 }, none)
    else (p, some false)
  | .expectingContentChar4 =>
    if isValidUTF8ContinuationByte input then
      let content := p.request.content ++ [input]
      let stored : Parse := { p with request.content := content }
      if content.length ≥ p.agent.contentLength.toNat then
        ({ stored with agent.state := .methodStart }, some true)
      else ({ stored with agent.state := .expectingContentChar1 }, none)
    else (p, some false)

/-! ## 4. `parseBuffer` -/

/-- A buffer handed to `parseBuffer`. Its loop counts with an `unsigned int`, so a buffer is
    shorter than `2 ^ 32` bytes; a connection's holds 8192. -/
structure Buffer where
  data : Bytes
  size_lt : data.length < 2 ^ 32

/-- `RequestParserAgent::parseBuffer`: the bytes in order, up to the first verdict. -/
def parseBuffer (p : Parse) (buffer : Buffer) : Parse × Option Bool :=
  feed (consume lexicalCast) p buffer.data

/-- Successive calls of `parseBuffer` on one agent and one request, up to the first verdict. -/
def parseBuffers (p : Parse) (buffers : List Buffer) : Parse × Option Bool :=
  feed (parseBuffer lexicalCast) p buffers

/-- **The cut into buffers is invisible to the parser.** -/
theorem parseBuffers_flatten (p : Parse) (buffers : List Buffer) :
    parseBuffers lexicalCast p buffers =
      feed (consume lexicalCast) p (buffers.map Buffer.data).flatten := by
  rw [← feed_feed]
  induction buffers generalizing p with
  | nil => rfl
  | cons b bs ih =>
    rcases hb : feed (consume lexicalCast) p b.data with ⟨q, o⟩
    have hb' : parseBuffer lexicalCast p b = (q, o) := hb
    cases o with
    | none =>
      rw [List.map_cons, feed_cons_none hb, ← ih q]
      exact feed_cons_none hb' bs
    | some v =>
      rw [List.map_cons, feed_cons_some hb]
      exact feed_cons_some hb' bs

end Consume

end BoostAsioWebServer
