/-
  File:      BoostAsioWebServer/Connections/ResponseText.lean
  Subject:   NO CLIENT CAN SPLIT A RESPONSE.

  The one value that flows from the bytes of a client into the head of a response is the Origin
  header. The parser records no control character in a header value, in whatever state it stops
  (`cleanValues_feed`), so a reflected Origin has no line end, and every buffer written is read
  back as the status line, the headers of the reply and its content (`response_not_split`).
-/
import BoostAsioWebServer.Agents.RequestGrammar
import BoostAsioWebServer.Connections.Serving

namespace BoostAsioWebServer

open ByteText Feed Runs

/-! ## 1. The parser records no control character -/

/-- A text without control characters. -/
def ControlFree (text : Bytes) : Prop := ∀ b ∈ text, ¬ IsControl b

/-- The header values of a parse, recorded or under way, are free of control characters. -/
def CleanValues (p : Parse) : Prop :=
  ControlFree p.agent.header.2 ∧ ∀ h ∈ p.request.headers, ControlFree h.2

theorem controlFree_nil : ControlFree [] := fun _ hb => absurd hb List.not_mem_nil

theorem ControlFree.lineClean {text : Bytes} (h : ControlFree text) : LineClean text :=
  ⟨fun hcr => h _ hcr (by decide), fun hlf => h _ hlf (by decide)⟩

section CleanValues

variable (lexicalCast : Bytes → Option Int32)

/-- Outside the state that reads a header value, a byte changes no recorded value: the value under
    way stays or is emptied. -/
theorem consume_values {p : Parse} (hstate : p.agent.state ≠ .headerValue) (b : UInt8) :
    (consume lexicalCast p b).1.request.headers = p.request.headers ∧
      ((consume lexicalCast p b).1.agent.header.2 = p.agent.header.2 ∨
        (consume lexicalCast p b).1.agent.header.2 = []) := by
  obtain ⟨⟨state, header, len, size⟩, request⟩ := p
  cases state
  case headerValue => exact absurd rfl hstate
  all_goals
    simp only [consume]
    repeat' split
    all_goals first
      | exact ⟨rfl, Or.inl rfl⟩
      | exact ⟨rfl, Or.inr rfl⟩

/-- One byte keeps the values clean: what the value state adds is no control character. -/
theorem cleanValues_consume {p : Parse} (h : CleanValues p) (b : UInt8) :
    CleanValues (consume lexicalCast p b).1 := by
  by_cases hstate : p.agent.state = .headerValue
  · obtain ⟨⟨state, header, len, size⟩, request⟩ := p
    subst hstate
    obtain ⟨hvalue, hheaders⟩ := h
    by_cases hcr : b = CR
    · -- the value is recorded
      simp only [consume, hcr, if_true]
      refine ⟨controlFree_nil, fun e he => ?_⟩
      rcases List.mem_append.mp he with he | he
      · exact hheaders e he
      · rw [List.mem_singleton.mp he]
        exact hvalue
    by_cases hctl : IsControl b
    · have ht := (isCtl_test b).mpr hctl
      simp only [consume, hcr, ht, if_false, if_true]
      exact ⟨hvalue, hheaders⟩
    · have ht : isCtl (charToInt b) = false := by
        rw [← Bool.not_eq_true]
        exact fun e => hctl ((isCtl_test b).mp e)
      simp only [consume, hcr, ht, Bool.false_eq_true, if_false]
      refine ⟨fun x hx => ?_, hheaders⟩
      rcases List.mem_append.mp hx with hx | hx
      · exact hvalue x hx
      · rw [List.mem_singleton.mp hx]
        exact hctl
  · obtain ⟨hheaders, hvalue⟩ := consume_values lexicalCast hstate b
    refine ⟨?_, fun e he => h.2 e (hheaders ▸ he)⟩
    rcases hvalue with hvalue | hvalue
    · rw [hvalue]
      exact h.1
    · rw [hvalue]
      exact controlFree_nil

/-- **The parser records no control character**, wherever it stops. -/
theorem cleanValues_feed (bytes : Bytes) :
    CleanValues (feed (consume lexicalCast) .fresh bytes).1 := by
  have hfresh : CleanValues .fresh := ⟨controlFree_nil, fun _ he => absurd he List.not_mem_nil⟩
  exact feed_preserves CleanValues (fun _ b h => cleanValues_consume lexicalCast h b) hfresh bytes

end CleanValues

/-! ## 2. The response -/

/-- What is promised of the code around the connections: the interface package, the CORS
    configuration and the web services add no line end to a header. -/
structure CleanServices (services : Services) : Prop where
  getHeader : GetHeaderSpec services.env
  addHeader : AddHeaderSpec services.env
  cors : CleanCORS services.cors
  replies : ∀ webService ∈ services.webServices, ∀ request reply,
    webService request = some reply → CleanReply reply

/-- The URI parser changes no header. -/
theorem parse_headers (request : Request) :
    (RequestURIParserService.parse request).1.headers = request.headers := by
  rcases parse_cases request with ⟨out, -, h⟩ | ⟨-, h⟩
  · rw [h, parseQueryString]
    split
    · rfl
    · rfl
  · rw [h]

section Response

variable {services : Services}

/-- The answer to a request without control characters in its headers is clean. -/
theorem cleanReply_answer (hservices : CleanServices services) {request : Request}
    (hrequest : ∀ h ∈ request.headers, ControlFree h.2) :
    CleanReply (answer services request).reply := by
  have hheaders := parse_headers request
  have hbase : CleanReply
      (processRequest services.webServices (RequestURIParserService.parse request).1).2 := by
    rcases processFrom_reply (RequestURIParserService.parse request).1 0 services.webServices with
      h | ⟨webService, hmem, h⟩
    · rw [processRequest, h]
      exact cleanReply_ofStatus _
    · exact hservices.replies webService hmem _ _ h
  refine cleanReply_addCORSHeaders hservices.addHeader hservices.cors hbase fun hhas => ?_
  -- the Origin is a value the parser recorded
  obtain ⟨h, hmem, hvalue⟩ := List.mem_map.mp (hservices.getHeader _ _ hhas)
  rw [← hvalue]
  exact (hrequest h (hheaders ▸ hmem)).lineClean

/-- **No client can split the response**: whatever is received, a buffer that is written is one
    status line, one line for each header of the reply, a blank line, and then exactly the reply's
    content. The reply is the web service's and the CORS headers, and no line has a line end. -/
theorem response_not_split (hservices : CleanServices services) (transport : Transport)
    {es : List Completion} {c : Connection}
    (hrun : Run (Connection.complete services transport) (transport.start .built) es c) :
    ∀ buffer ∈ writesOf c.log, ∃ a status base,
      served services (received es) = some a ∧
      base = (processRequest services.webServices a.request).2 ∧
      a.reply = addCORSHeaders services.env services.cors a.request base ∧
      (∀ header ∈ a.reply.headers.entries,
        header ∈ base.headers.entries ∨ header.1 ∈ corsHeaderNames) ∧
      translateStatusToString a.reply.status = some status ∧ CleanReply a.reply ∧
      a.reply.content = base.content ∧
      readSection buffer = some (status :: a.reply.headers.entries.map headerLine, base.content) := by
  intro buffer hbuffer
  cases serving_run transport hrun with
  | waiting _ _ hlog =>
    rw [hlog.writes] at hbuffer
    cases hbuffer
  | @answered p _ _ hparse hlog =>
    rw [hlog.writes, Option.mem_toList] at hbuffer
    have hvalues := cleanValues_feed services.env.lexicalCast (received es)
    rw [hparse] at hvalues
    have hclean := cleanReply_answer hservices hvalues.2
    have hcontent : (answer services p.request).reply.content = (processRequest services.webServices
        (answer services p.request).request).2.content := addCORSHeaders_content _ _ _ _
    obtain ⟨status, hstatus, hread⟩ := readSection_buildBuffer hclean hbuffer
    refine ⟨answer services p.request, status, _, served_some hparse, rfl, rfl,
      fun header hmem => mem_addCORSHeaders hservices.addHeader hmem, hstatus, hclean, hcontent, ?_⟩
    rw [← hcontent]
    exact hread

end Response

/-! ## 3. A reflected Origin -/

/-- Every origin is allowed and reflected. -/
def CORSConfiguration.reflecting : CORSConfiguration :=
  { CORSConfiguration.off with enabled := true, isAllowedOrigin := fun _ => true }

/-- The echo service behind a reflecting configuration. -/
def Services.reflecting : Services := { Services.echo with cors := .reflecting }

theorem cleanServices_reflecting : CleanServices .reflecting where
  getHeader := getHeaderSpec_reference
  addHeader := addHeaderSpec_reference
  cors := ⟨fun _ h => absurd h List.not_mem_nil, fun _ h => absurd h List.not_mem_nil,
    fun _ h => absurd h List.not_mem_nil⟩
  replies := by
    intro webService hmem request reply hreply
    rw [List.mem_singleton.mp hmem] at hreply
    rw [← Option.some.inj hreply]
    exact fun _ h => absurd h List.not_mem_nil

/-- A request with an Origin header. -/
def originRequest : ReadData :=
  ⟨ascii "GET /a HTTP/1.0\r\nOrigin: http://x\r\n\r\n", by decide, by decide⟩

/-- The response to it is one section of lines and a content, and the Origin is reflected in a line
    of its own. -/
theorem response_not_split_origin :
    let c := Connection.handle .reflecting .plain (Transport.plain.start .built) (.read originRequest)
    ∃ buffer status headers content, writesOf c.log = [buffer] ∧
      readSection buffer = some (status :: headers, content) ∧
      ascii "Access-Control-Allow-Origin: http://x" ∈ headers := by
  intro c
  have hrun : Run (Connection.complete .reflecting .plain) (Transport.plain.start .built)
      [.read originRequest] c := rfl
  have hone : (writesOf c.log).length = 1 := by decide +kernel
  obtain ⟨buffer, hbuffer⟩ := List.length_eq_one_iff.mp hone
  obtain ⟨a, status, base, ha, -, -, -, -, -, -, hread⟩ := response_not_split
    cleanServices_reflecting .plain hrun buffer (by rw [hbuffer]; exact List.mem_cons_self)
  refine ⟨buffer, status, _, _, hbuffer, hread, ?_⟩
  have hlines : (served .reflecting (received [.read originRequest])).any (fun a =>
      decide (ascii "Access-Control-Allow-Origin: http://x" ∈
        a.reply.headers.entries.map headerLine)) = true := by decide +kernel
  rw [ha] at hlines
  exact of_decide_eq_true hlines

end BoostAsioWebServer
