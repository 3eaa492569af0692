/-
  File:      BoostAsioWebServer/Exchange.lean
  Subject:   AN EXCHANGE: from the text a client sends to the reply it reads, through the parser, the
             URI, the web services, the CORS headers and the reply's text, over every interleaving of
             the server's threads.

  `ClientRequest` is what a client has to say, with the text it says it in: a path and query pairs
  behind their escapes, header lines, and a body of whole characters whose length is declared. The
  web services see `ClientRequest.request`; `firstReply` is what they say to it. The target is split
  behind its escapes, so a `?` of the path and a `&` of a value split it too: what the services see
  is the client's own path and pairs where there are none (`ClientRequest.request_own`).

  * `ClientRequest.sentence`, `ClientRequest.parse`: the text is one of the grammar, and its target
    is read as `ClientRequest.request`;
  * `feed_clientRequest`: the parser waits on every front part of the text and accepts the whole;
  * `exchange`: nothing is written before the text is complete, and then one reply, which reads back
    as the first reply of the services registered by then.
-/
import BoostAsioWebServer.ServerInterleaving
import BoostAsioWebServer.Agents.BodyUtf8
import BoostAsioWebServer.Connections.ResponseText
import BoostAsioWebServer.Services.QueryString
import BoostAsioWebServer.Services.ReplyDecoder
import BoostAsioWebServer.Services.RequestURIDecoding

namespace BoostAsioWebServer

open ByteText Feed Runs

/-! ## 1. Client requests -/

/-- What a client has to say, and how it writes the target and the length. -/
structure ClientRequest where
  line : RequestLine
  path : Bytes
  pairs : List (Bytes × Bytes)
  headers : List HeaderLine
  content : Bytes
  client : ClientTarget path pairs
  target : TargetText path pairs line.uri
  whole : ∃ chars : List Bytes, (∀ w ∈ chars, Utf8Shaped w) ∧ content = chars.flatten
  framed : match lastContentLength (headers.map HeaderLine.pair) with
    | some value => DecimalText value content.length
    | none => content = []

namespace ClientRequest

/-- The request line and the header lines. -/
def head (q : ClientRequest) : RequestHead := ⟨q.line, q.headers⟩

/-- The text that is sent. -/
def text (q : ClientRequest) : Bytes := q.head.text ++ q.content

/-- The request as the web services see it: the path up to its first `?`, and the items of what
    stands behind the first `?` of path and pairs without their escapes. -/
def request (q : ClientRequest) : Request :=
  { q.head.request q.content with
    uri := textBefore (chr '?') q.path
    queryStrings := scanItems (behindQuery (plainTarget q.path q.pairs)) }

end ClientRequest

/-- The first `?` of a target is the path's, or stands behind the path. -/
theorem textBefore_plainTarget (p : Bytes) (pairs : List (Bytes × Bytes)) :
    textBefore (chr '?') (plainTarget p pairs) = textBefore (chr '?') p := by
  cases pairs with
  | nil => rfl
  | cons pair pairs =>
    rw [plainTarget_cons]
    by_cases hquery : chr '?' ∈ p
    · obtain ⟨rest, hp⟩ := eq_textBefore_append hquery
      conv_lhs => rw [hp, List.append_assoc, List.cons_append]
      exact textBefore_append (not_mem_textBefore (chr '?') p) _
    · rw [textBefore_append hquery, textBefore_of_not_mem hquery]

/-- **What the services see is the client's own path and pairs** where the path has no `?`, no name
    is empty and no value has `&`. -/
theorem ClientRequest.request_own (q : ClientRequest) (hquery : chr '?' ∉ q.path)
    (hsplit : ∀ pair ∈ q.pairs, Splittable pair) :
    q.request.uri = q.path ∧ q.request.queryStrings = q.pairs := by
  have hpairs := parseQueryString_plainTarget q.client hquery hsplit {}
  rw [parseQueryString_eq] at hpairs
  exact ⟨textBefore_of_not_mem hquery, congrArg Request.queryStrings hpairs⟩

/-- The reply of the first web service that gives one; NOT_FOUND where none does. -/
def firstReply (webServices : List WebService) (request : Request) : Reply :=
  (webServices.findSome? fun webService => webService request).getD (Reply.ofStatus .notFound)

theorem processFrom_firstReply (request : Request) (i : Nat) (webServices : List WebService) :
    (processFrom request i webServices).2 = firstReply webServices request := by
  induction webServices generalizing i with
  | nil => rfl
  | cons webService webServices ih =>
    rw [processFrom, firstReply, List.findSome?_cons]
    cases webService request with
    | some reply => rfl
    | none => exact ih (i + 1)

/-- A reply of the web services is one of theirs, or has no header. -/
theorem firstReply_cases (webServices : List WebService) (request : Request) :
    firstReply webServices request = Reply.ofStatus .notFound ∨
      ∃ webService ∈ webServices, webService request = some (firstReply webServices request) := by
  have h := processFrom_reply request 0 webServices
  rwa [processFrom_firstReply] at h

/-! ## 2. The parser on a client's text -/

section Parser

variable {lexicalCast : Bytes → Option Int32}

/-- The text is one of the grammar: the length that is compared with is that of the content. -/
theorem ClientRequest.sentence (hcast : LexicalCastSpec lexicalCast) (q : ClientRequest) :
    SentenceOf (lengthNat lexicalCast) q.head q.content q.text := by
  refine ⟨rfl, ?_⟩
  have hframed := q.framed
  have hlength : lengthNat lexicalCast (q.head.headers.map HeaderLine.pair) = q.content.length := by
    show lengthNat lexicalCast (q.headers.map HeaderLine.pair) = _
    cases hlast : lastContentLength (q.headers.map HeaderLine.pair) with
    | some value =>
      rw [hlast] at hframed
      exact lengthNat_decimal hcast hlast hframed
    | none =>
      rw [hlast] at hframed
      rw [lengthNat, lengthField, hlast, hframed]
      rfl
  rw [hlength]
  by_cases hnil : q.content = []
  · rw [hnil]
    exact rfl
  · exact (body_iff_shaped hnil).mpr q.whole

/-- **The parser waits on every front part of the text, and accepts the whole.** -/
theorem feed_clientRequest (hcast : LexicalCastSpec lexicalCast) (q : ClientRequest) :
    (∀ front rest, rest ≠ [] → q.text = front ++ rest →
      (feed (consume lexicalCast) .fresh front).2 = none) ∧
    ∀ rest, ∃ p, feed (consume lexicalCast) .fresh (q.text ++ rest) = (p, some true) ∧
      p.request = q.head.request q.content := by
  obtain ⟨ys, c, t, p, htext, hys, hc, hrequest⟩ := feed_sentence lexicalCast (q.sentence hcast)
  refine ⟨fun front rest hne hfront => ?_, fun rest => ⟨p, ?_, hrequest⟩⟩
  · -- all but the last byte of the text has no verdict, and the front part is in it
    obtain ⟨rest', d, hrest⟩ := List.eq_nil_or_concat rest |>.resolve_left hne
    rw [hrest, List.concat_eq_append, ← List.append_assoc, htext] at hfront
    have hfront := (List.append_inj' hfront rfl).1
    rw [hfront] at hys
    obtain ⟨t', ht'⟩ := feed_prefix_none hys
    rw [ht']
  · rw [htext]
    refine feed_append_some ?_ rest
    rw [feed_append_none hys, feed_singleton, hc]

/-- A text is complete with the last bytes, and not before. -/
structure Completes (text before last : Bytes) : Prop where
  front : ∃ rest, rest ≠ [] ∧ text = before ++ rest
  whole : text <+: before ++ last

/-- The bytes that bring the verdict complete the text. -/
theorem completes_clientRequest (hcast : LexicalCastSpec lexicalCast) (q : ClientRequest)
    {before last : Bytes} {verdict : Bool}
    (hwaits : (feed (consume lexicalCast) .fresh before).2 = none)
    (hbrings : (feed (consume lexicalCast) .fresh (before ++ last)).2 = some verdict)
    {stream : Bytes} (htext : q.text <+: stream) (hlast : before ++ last <+: stream) :
    Completes q.text before last := by
  obtain ⟨hfront, haccepts⟩ := feed_clientRequest hcast q
  constructor
  · have hbefore : before <+: stream := (List.prefix_append before last).trans hlast
    rcases List.prefix_or_prefix_of_prefix hbefore htext with ⟨rest, hrest⟩ | ⟨rest, hrest⟩
    · refine ⟨rest, fun hnil => ?_, hrest.symm⟩
      obtain ⟨p, hp, -⟩ := haccepts []
      rw [← hrest, hnil, List.append_nil, List.append_nil] at hp
      rw [hp] at hwaits
      cases hwaits
    · obtain ⟨p, hp, -⟩ := haccepts rest
      rw [hrest] at hp
      rw [hp] at hwaits
      cases hwaits
  · rcases List.prefix_or_prefix_of_prefix htext hlast with h | ⟨rest, hrest⟩
    · exact h
    · by_cases hnil : rest = []
      · rw [hnil, List.append_nil] at hrest
        exact ⟨[], by rw [List.append_nil, hrest]⟩
      · have hnone := hfront _ rest hnil hrest.symm
        rw [hbrings] at hnone
        cases hnone

/-- The target is accepted: the path climbs in no part of it. -/
theorem ClientRequest.parse (q : ClientRequest) :
    RequestURIParserService.parse (q.head.request q.content) = (q.request, true) := by
  have hclimbs : climbs (plainTarget q.path q.pairs) = false := by
    rw [← Bool.not_eq_true, climbs_iff, textBefore_plainTarget]
    intro hdots
    exact q.client.noDotDot (hdots.trans (List.takeWhile_prefix _).isInfix)
  have hdecode : decode (q.head.request q.content).uri = some (plainTarget q.path q.pairs) :=
    decode_targetText q.target q.client.names
  have hhead : (plainTarget q.path q.pairs).head? = some (chr '/') := by
    obtain ⟨rest, hpath⟩ := List.head?_eq_some_iff.mp q.client.absolute
    cases q.pairs with
    | nil => exact q.client.absolute
    | cons pair pairs =>
      rw [plainTarget_cons, hpath]
      rfl
  have haccepted : AcceptedTarget (q.head.request q.content).uri (plainTarget q.path q.pairs) :=
    ⟨hdecode, hclimbs, hhead⟩
  rcases parse_cases (q.head.request q.content) with ⟨out, hout, hparse⟩ | ⟨hno, -⟩
  · have heq : out = plainTarget q.path q.pairs := Option.some.inj (hout.1.symm.trans hdecode)
    rw [hparse, heq, parseQueryString_eq, textBefore_plainTarget]
    rfl
  · exact absurd haccepted (hno _)

end Parser

/-! ## 3. The answer -/

section Answer

variable {env : External} {cors : CORSConfiguration}

/-- What is promised of the web services: the reply has a text, and no line end in a header. -/
def Replies (webServices : List WebService) : Prop :=
  ∀ webService ∈ webServices, ∀ request reply, webService request = some reply →
    CleanReply reply ∧ translateStatusToString reply.status ≠ none

/-- **The answer to a client's request**: the first reply with the CORS headers, in a text that
    reads back as it. -/
theorem answer_clientRequest {webServices : List WebService} (hget : GetHeaderSpec env)
    (hadd : AddHeaderSpec env) (hcors : CleanCORS cors) (hreplies : Replies webServices)
    (q : ClientRequest) :
    ∃ buffer, (answer ⟨env, webServices, cors⟩ (q.head.request q.content)).buffer = some buffer ∧
      decodeReply buffer =
        some (addCORSHeaders env cors q.request (firstReply webServices q.request)) := by
  have hservices : CleanServices ⟨env, webServices, cors⟩ :=
    ⟨hget, hadd, hcors, fun w hw request reply h => (hreplies w hw request reply h).1⟩
  have hvalues : ∀ h ∈ (q.head.request q.content).headers, ControlFree h.2 := by
    intro h hh
    obtain ⟨line, -, rfl⟩ := List.mem_map.mp hh
    exact line.value_byte
  have hclean := cleanReply_answer hservices hvalues
  have hreply : (answer ⟨env, webServices, cors⟩ (q.head.request q.content)).reply =
      addCORSHeaders env cors q.request (firstReply webServices q.request) := by
    unfold answer
    simp only [q.parse, processRequest, processFrom_firstReply]
  have hbuffer : (answer ⟨env, webServices, cors⟩ (q.head.request q.content)).buffer =
      buildBuffer (answer ⟨env, webServices, cors⟩ (q.head.request q.content)).reply := rfl
  rw [hbuffer]
  rw [hreply] at hclean ⊢
  have hstatus : translateStatusToString
      (addCORSHeaders env cors q.request (firstReply webServices q.request)).status ≠ none := by
    rw [addCORSHeaders_status]
    rcases firstReply_cases webServices q.request with h | ⟨w, hw, h⟩
    · rw [h]
      exact Option.some_ne_none _
    · exact (hreplies w hw _ _ h).2
  obtain ⟨line, hline⟩ := Option.ne_none_iff_exists'.mp hstatus
  have hbuild : ∃ buffer, buildBuffer
      (addCORSHeaders env cors q.request (firstReply webServices q.request)) = some buffer := by
    rw [buildBuffer_eq, hline]
    exact ⟨_, rfl⟩
  obtain ⟨buffer, hbuild⟩ := hbuild
  exact ⟨buffer, hbuild, decodeReply_buildBuffer hclean hbuild⟩

end Answer

/-! ## 4. The exchange -/

section Exchange

variable {configuration : Configuration} {env : External} {cors : CORSConfiguration}
  {transport : Transport}

/-- Behind the whole text: one reply was written when the read that completed it was handled, and it
    reads back as the first reply with the CORS headers. -/
theorem replied_clientRequest {es : List ThreadedEvent} {s : ThreadedServer}
    (hrun : Run (ThreadedServer.step configuration env cors transport) .new es s)
    (hcast : LexicalCastSpec env.lexicalCast) (hget : GetHeaderSpec env) (hadd : AddHeaderSpec env)
    (hcors : CleanCORS cors) (hreplies : Replies (registered es).webServices) (q : ClientRequest)
    {i : Nat} {c : Connection} (hc : s.base.connections[i]? = some c)
    (hi : i ∈ accepted (wholes es)) (hfree : Free s.inside i) {rest : Bytes}
    (hreceived : received (completionsOf i (wholes es)) = q.text ++ rest) :
    ∃ before k data after buffer, es = before ++ .complete k i (.read data) :: after ∧
      Completes q.text (received (completionsOf i (wholes before))) data.bytes ∧
      writesOf c.log = [buffer] ∧
      decodeReply buffer = some (addCORSHeaders env cors q.request
        (firstReply (registered before).consulted q.request)) := by
  obtain ⟨p', hp', hrequest⟩ := (feed_clientRequest hcast q).2 rest
  rw [← hreceived] at hp'
  rcases ((threaded_run hrun).alone i c hc).writes hi hfree with
    ⟨hnone, -⟩ | ⟨before, k, data, after, p, verdict, hverdict, hwritten⟩
  · rw [served_some hp'] at hnone
    cases hnone
  · have hp : p = p' := congrArg Prod.fst (hverdict.received.symm.trans hp')
    have hfront : (registered before).consulted <+: (registered es).webServices := by
      rw [hverdict.split]
      exact (consulted_front _).trans (registered_front _ _)
    obtain ⟨buffer, hbuffer, hdecode⟩ := answer_clientRequest hget hadd hcors
      (fun w hw => hreplies w (hfront.subset hw)) q
    rw [hp, hrequest, hbuffer] at hwritten
    refine ⟨before, k, data, after, buffer, hverdict.split, ?_, hwritten, hdecode⟩
    have hlast : received (completionsOf i (wholes before)) ++ data.bytes <+:
        received (completionsOf i (wholes es)) := by
      rw [hverdict.completions, received_append]
      exact (List.prefix_append_right_inj _).mpr (List.prefix_append _ _)
    exact completes_clientRequest hcast q hverdict.waits (congrArg Prod.snd hverdict.brings)
      ⟨rest, hreceived.symm⟩ hlast

/-- **An exchange**, over every interleaving, every cut of the text into reads, either transport. On
    an accepted connection that no thread is inside of: while what was received is a front part of
    the client's text, nothing is written. Once the text is complete, whatever follows it, one reply
    was written, when the read that completed it was handled; and the client reads from it the first
    reply, with the CORS headers, of the web services registered by then. What these see is the
    client's own path and pairs where the path has no `?`, no name is empty and no value has `&`. -/
theorem exchange {es : List ThreadedEvent} {s : ThreadedServer}
    (hrun : Run (ThreadedServer.step configuration env cors transport) .new es s)
    (hcast : LexicalCastSpec env.lexicalCast) (hget : GetHeaderSpec env) (hadd : AddHeaderSpec env)
    (hcors : CleanCORS cors) (hreplies : Replies (registered es).webServices) (q : ClientRequest)
    {i : Nat} {c : Connection} (hc : s.base.connections[i]? = some c)
    (hi : i ∈ accepted (wholes es)) (hfree : Free s.inside i) :
    (∀ rest, rest ≠ [] → q.text = received (completionsOf i (wholes es)) ++ rest →
      writesOf c.log = []) ∧
    (∀ rest, received (completionsOf i (wholes es)) = q.text ++ rest →
      ∃ before k data after buffer, es = before ++ .complete k i (.read data) :: after ∧
        Completes q.text (received (completionsOf i (wholes before))) data.bytes ∧
        writesOf c.log = [buffer] ∧
        decodeReply buffer = some (addCORSHeaders env cors q.request
          (firstReply (registered before).consulted q.request))) ∧
    (chr '?' ∉ q.path → (∀ pair ∈ q.pairs, Splittable pair) →
      q.request.uri = q.path ∧ q.request.queryStrings = q.pairs) := by
  refine ⟨fun rest hne htext => ?_, fun rest => replied_clientRequest hrun hcast hget hadd hcors
    hreplies q hc hi hfree, q.request_own⟩
  rcases ((threaded_run hrun).alone i c hc).writes hi hfree with
    ⟨-, hnone⟩ | ⟨before, k, data, after, p, verdict, hverdict, -⟩
  · exact hnone
  · have hwait := (feed_clientRequest hcast q).1 _ rest hne htext
    rw [hverdict.received] at hwait
    cases hwait

end Exchange

/-! ## 5. A request in two reads -/

/-- A request with one query pair and a body of one character in two bytes. -/
def ClientRequest.oneCharacter : ClientRequest where
  line :=
    { twoByteHead.line with
      method := ascii "POST"
      uri := ascii "/a?q=" ++ ascii "x%3dy"
      method_ne := by decide
      method_token := by decide +kernel
      uri_byte := by decide +kernel }
  path := ascii "/a"
  pairs := [(ascii "q", ascii "x=y")]
  headers := twoByteHead.headers
  content := [0xC3, 0xB1]
  client := clientTarget_a
  target := targetText_a (.kept (by decide) (.escaped (by decide) rfl rfl (by decide)
    (.kept (by decide) .nil)))
  whole := ⟨[[0xC3, 0xB1]], utf8Shaped_two (by decide) ⟨by decide, by decide⟩, rfl⟩
  framed := by
    rw [twoByteHead_length.1]
    exact twoByteHead_length.2

/-- The web service that sends the path back. -/
def echoPath : WebService := fun request => some { Reply.ofStatus .ok with content := request.uri }

theorem replies_echoPath : Replies [echoPath] := by
  intro webService hmem request reply hreply
  rw [List.mem_singleton.mp hmem] at hreply
  cases hreply
  exact ⟨cleanReply_ofStatus .ok, Option.some_ne_none _⟩

theorem cleanCORS_off : CleanCORS .off :=
  ⟨fun _ h => absurd h List.not_mem_nil, fun _ h => absurd h List.not_mem_nil,
    fun _ h => absurd h List.not_mem_nil⟩

/-- It is answered behind its second read, which begins in the middle of the character. -/
theorem exchange_oneCharacter :
    let text := ClientRequest.oneCharacter.text
    let es : List ThreadedEvent :=
      [.registerWebService echoPath, .start .good, .createThread, .createThread,
        .accept 0 0 false, .proceed 0,
        .complete 0 0 (.read ⟨text.take 48, by decide +kernel, by decide +kernel⟩),
        .complete 0 0 (.read ⟨text.drop 48, by decide +kernel, by decide +kernel⟩),
        .proceed 0, .proceed 0, .proceed 0]
    ∃ s c before buffer, Run (ThreadedServer.step .oneThread .reference .off .plain) .new es s ∧
      s.base.connections[0]? = some c ∧ writesOf c.log = [buffer] ∧
      decodeReply buffer = some (addCORSHeaders .reference .off ClientRequest.oneCharacter.request
        (firstReply (registered before).consulted ClientRequest.oneCharacter.request)) := by
  intro text es
  have hend : (es.foldlM (ThreadedServer.step .oneThread .reference .off .plain) .new).any
      (·.allOutside) = true := by decide +kernel
  obtain ⟨s, hrun, hall⟩ := (Option.any_eq_true _ _).mp hend
  have h := threaded_run hrun
  have hi : 0 ∈ accepted (wholes es) := by
    simp [es, accepted, wholes, ThreadedEvent.whole, Event.accepted]
  cases hc : s.base.connections[0]? with
  | none => exact absurd hi (h.absent 0 hc).1
  | some c =>
    obtain ⟨-, hcomplete, -⟩ := exchange hrun (fun _ => rfl) getHeaderSpec_reference
      addHeaderSpec_reference cleanCORS_off replies_echoPath .oneCharacter hc hi
      (h.free_of_allOutside hall 0)
    obtain ⟨before, k, data, after, buffer, -, -, hwrites, hdecode⟩ :=
      hcomplete [] (by decide +kernel)
    exact ⟨s, c, before, buffer, hrun, hc, hwrites, hdecode⟩

end BoostAsioWebServer
