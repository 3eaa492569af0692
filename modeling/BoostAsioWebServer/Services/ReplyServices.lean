/-
  File:      BoostAsioWebServer/Services/ReplyServices.lean
  Subject:   FROM A REQUEST TO THE BYTES OF ITS REPLY (`Services/`, `Model/WebServicesMgr.cpp`).

  * `processRequest`: the web services in order of registration, up to the first that replies, and
    the calls made on the way;
  * `addCORSHeaders`: the CORS headers, the Origin of the request among them;
  * `buildBuffer`: the reply as text; `none` where the source throws on an unknown status;
  * `readSection_buildBuffer`: a clean reply is read back line by line;
  * `cleanReply_addCORSHeaders`: the CORS headers keep a reply clean where the Origin is.
-/
import BoostAsioWebServer.Interface

namespace BoostAsioWebServer

open ByteText

/-! ## 1. Request handling -/

/-- A call of `IWebService::process`: the position of the service and the request. -/
structure ServiceCall where
  index : Nat
  request : Request
  deriving DecidableEq, Repr

/-- The loop of `processRequest` from the service at position `i` on: the calls it makes, and the
    reply, a fresh one with status NOT_FOUND behind the last service. -/
def processFrom (request : Request) : Nat → List WebService → List ServiceCall × Reply
  | _, [] => ([], Reply.ofStatus .notFound)
  | i, webService :: webServices =>
    match webService request with
    | some reply => ([⟨i, request⟩], reply)
    | none =>
      let (calls, reply) := processFrom request (i + 1) webServices
      (⟨i, request⟩ :: calls, reply)

/-- `RequestHandlingService::processRequest` over the web services it counts: the count is an
    `unsigned int`, so these are all of them while they are fewer than 2^32. -/
def processRequest (webServices : List WebService) (request : Request) : List ServiceCall × Reply :=
  processFrom request 0 webServices

/-- A reply of `processRequest` is a web service's, or the fresh one. -/
theorem processFrom_reply (request : Request) (i : Nat) (webServices : List WebService) :
    (processFrom request i webServices).2 = Reply.ofStatus .notFound ∨
      ∃ webService ∈ webServices,
        webService request = some (processFrom request i webServices).2 := by
  induction webServices generalizing i with
  | nil => exact Or.inl rfl
  | cons webService webServices ih =>
    rw [processFrom]
    cases hw : webService request with
    | some reply => exact Or.inr ⟨webService, List.mem_cons_self, hw⟩
    | none =>
      rcases ih (i + 1) with h | ⟨w, hmem, h⟩
      · exact Or.inl h
      · exact Or.inr ⟨w, List.mem_cons_of_mem _ hmem, h⟩

/-- Where there are web services the first is called. -/
theorem processFrom_calls (request : Request) (i : Nat) {webServices : List WebService}
    (h : webServices ≠ []) : (processFrom request i webServices).1 ≠ [] := by
  cases webServices with
  | nil => exact absurd rfl h
  | cons webService webServices =>
    rw [processFrom]
    cases webService request with
    | some reply => exact List.cons_ne_nil _ _
    | none => exact List.cons_ne_nil _ _

/-! ## 2. CORS headers -/

/-- `ReplyCORSHeadersBuilderService::getCommaSeparatedList`. -/
def getCommaSeparatedList (items : StringSet) : Bytes :=
  items.1.foldl
    (fun itemsStr item => itemsStr ++ (if itemsStr ≠ [] then ascii "," else []) ++ item) []

/-- `Reply::addHeader`. -/
def Reply.addHeader (env : External) (reply : Reply) (name value : Bytes) : Reply :=
  { reply with headers := env.addHeader reply.headers name value }

/-- `ReplyCORSHeadersBuilderService::addCORSHeaders`. -/
def addCORSHeaders (env : External) (cors : CORSConfiguration) (request : Request) (reply : Reply) :
    Reply :=
  if cors.enabled && env.hasHeader request.headers (ascii "Origin") then
    let origin := env.getHeader request.headers (ascii "Origin")
    let reply :=
      if cors.isAllowedOrigin origin then
        reply.addHeader env (ascii "Access-Control-Allow-Origin") origin
      else reply
    let reply := reply.addHeader env (ascii "Access-Control-Expose-Headers")
      (getCommaSeparatedList cors.exposedHeaders)
    let reply := reply.addHeader env (ascii "Access-Control-Allow-Headers")
      (getCommaSeparatedList cors.allowedHeaders)
    let reply := reply.addHeader env (ascii "Access-Control-Allow-Methods")
      (getCommaSeparatedList cors.allowedMethods)
    let reply := reply.addHeader env (ascii "Access-Control-Allow-Credentials")
      (if cors.allowedCredentials then ascii "true" else ascii "false")
    reply.addHeader env (ascii "Access-Control-Max-Age") (intText cors.maxAge)
  else reply

/-- The CORS headers change no status. -/
theorem addCORSHeaders_status (env : External) (cors : CORSConfiguration) (request : Request)
    (reply : Reply) : (addCORSHeaders env cors request reply).status = reply.status := by
  unfold addCORSHeaders
  split
  · simp only [Reply.addHeader]
    split
    · rfl
    · rfl
  · rfl

/-- The CORS headers change no content. -/
theorem addCORSHeaders_content (env : External) (cors : CORSConfiguration) (request : Request)
    (reply : Reply) : (addCORSHeaders env cors request reply).content = reply.content := by
  unfold addCORSHeaders
  split
  · simp only [Reply.addHeader]
    split
    · rfl
    · rfl
  · rfl

/-! ## 3. The text of a reply -/

/-- `ReplyBufferBuilderService::translateStatusToString`; `none` where it throws. -/
def translateStatusToString : StatusType → Option Bytes
  | .ok => some (ascii "HTTP/1.0 200 OK")
  | .created => some (ascii "HTTP/1.0 201 Created")
  | .accepted => some (ascii "HTTP/1.0 202 Accepted")
  | .noContent => some (ascii "HTTP/1.0 204 No Content")
  | .multiStatus => some (ascii "HTTP/1.0 207 Multi-Status")
  | .multipleChoices => some (ascii "HTTP/1.0 300 Multiple Choices")
  | .movedPermanently => some (ascii "HTTP/1.0 301 Moved Permanently")
  | .movedTemporarily => some (ascii "HTTP/1.0 302 Moved Temporarily")
  | .notModified => some (ascii "HTTP/1.0 304 Not Modified")
  | .badRequest => some (ascii "HTTP/1.0 400 Bad Request")
  | .unauthorized => some (ascii "HTTP/1.0 401 Unauthorized")
  | .forbidden => some (ascii "HTTP/1.0 403 Forbidden")
  | .notFound => some (ascii "HTTP/1.0 404 Not Found")
  | .requestTimeout => some (ascii "HTTP/1.0 408 Request Timeout")
  | .internalServerError => some (ascii "HTTP/1.0 500 Internal Server Error")
  | .notImplemented => some (ascii "HTTP/1.0 501 Not Implemented")
  | .badGateway => some (ascii "HTTP/1.0 502 Bad Gateway")
  | .serviceUnavailable => some (ascii "HTTP/1.0 503 Service Unavailable")
  | .other _ => none

/-- The line of a header, without its line end. -/
def headerLine (header : Bytes × Bytes) : Bytes := header.1 ++ ascii ": " ++ header.2

/-- `ReplyBufferBuilderService::buildBuffer`; `none` where `translateStatusToString` throws. -/
def buildBuffer (reply : Reply) : Option Bytes :=
  (translateStatusToString reply.status).map fun status =>
    reply.headers.entries.foldl
      (fun buffer header => buffer ++ header.1 ++ ascii ": " ++ header.2 ++ crlf)
      (status ++ crlf) ++ crlf ++ reply.content

/-- The text of a reply is a section of lines and the content behind it. -/
theorem buildBuffer_eq (reply : Reply) :
    buildBuffer reply = (translateStatusToString reply.status).map fun status =>
      sectionText (status :: reply.headers.entries.map headerLine) ++ reply.content := by
  have hfold (es : List (Bytes × Bytes)) (buffer : Bytes) :
      es.foldl (fun buffer header => buffer ++ header.1 ++ ascii ": " ++ header.2 ++ crlf) buffer =
        buffer ++ (es.map headerLine).flatMap (· ++ crlf) := by
    induction es generalizing buffer with
    | nil => simp
    | cons e es ih =>
      rw [List.foldl_cons, ih, List.map_cons, List.flatMap_cons]
      simp only [headerLine, List.append_assoc]
  unfold buildBuffer
  congr 1
  funext status
  rw [hfold]
  simp [sectionText]

/-! ## 4. Clean replies -/

/-- A text without a carriage return and without a line feed. -/
def LineClean (text : Bytes) : Prop := CR ∉ text ∧ LF ∉ text

instance (text : Bytes) : Decidable (LineClean text) := inferInstanceAs (Decidable (_ ∧ _))

theorem LineClean.append {s t : Bytes} (hs : LineClean s) (ht : LineClean t) :
    LineClean (s ++ t) :=
  ⟨fun h => (List.mem_append.mp h).elim hs.1 ht.1, fun h => (List.mem_append.mp h).elim hs.2 ht.2⟩

theorem lineClean_nil : LineClean [] := ⟨List.not_mem_nil, List.not_mem_nil⟩

/-- A header whose name has no `:` and which has no line end. -/
def CleanHeader (header : Bytes × Bytes) : Prop :=
  chr ':' ∉ header.1 ∧ LineClean header.1 ∧ LineClean header.2

/-- A reply whose headers are clean. -/
def CleanReply (reply : Reply) : Prop := ∀ header ∈ reply.headers.entries, CleanHeader header

/-- The strings of a CORS configuration have no line end. -/
structure CleanCORS (cors : CORSConfiguration) : Prop where
  exposedHeaders : ∀ item ∈ cors.exposedHeaders.1, LineClean item
  allowedHeaders : ∀ item ∈ cors.allowedHeaders.1, LineClean item
  allowedMethods : ∀ item ∈ cors.allowedMethods.1, LineClean item

theorem cleanReply_ofStatus (status : StatusType) : CleanReply (Reply.ofStatus status) :=
  fun _ h => absurd h List.not_mem_nil

/-- A status line is clean. -/
theorem translateStatusToString_clean {status : StatusType} {line : Bytes}
    (h : translateStatusToString status = some line) : line ≠ [] ∧ LineClean line := by
  cases status
  case other => cases h
  all_goals
    rw [← Option.some.inj h]
    decide +kernel

theorem headerLine_clean {header : Bytes × Bytes} (h : CleanHeader header) :
    headerLine header ≠ [] ∧ LineClean (headerLine header) := by
  have hsep : LineClean (ascii ": ") := by decide
  exact ⟨by simp [headerLine, ascii], (h.2.1.append hsep).append h.2.2⟩

/-- **A clean reply is read back**: its status line, one line for each header, and behind the
    blank line exactly its content. -/
theorem readSection_buildBuffer {reply : Reply} {buffer : Bytes} (hclean : CleanReply reply)
    (h : buildBuffer reply = some buffer) :
    ∃ status, translateStatusToString reply.status = some status ∧
      readSection buffer =
        some (status :: reply.headers.entries.map headerLine, reply.content) := by
  rw [buildBuffer_eq] at h
  obtain ⟨status, hstatus, rfl⟩ := Option.map_eq_some_iff.mp h
  refine ⟨status, hstatus, readSection_lines ?_ reply.content⟩
  intro line hline
  rcases List.mem_cons.mp hline with rfl | hline
  · obtain ⟨hne, hline⟩ := translateStatusToString_clean hstatus
    exact ⟨hne, hline.1⟩
  · obtain ⟨header, hmem, rfl⟩ := List.mem_map.mp hline
    obtain ⟨hne, hline⟩ := headerLine_clean (hclean header hmem)
    exact ⟨hne, hline.1⟩

theorem getCommaSeparatedList_clean {items : StringSet} (h : ∀ item ∈ items.1, LineClean item) :
    LineClean (getCommaSeparatedList items) := by
  have hfold (xs : List Bytes) (hxs : ∀ item ∈ xs, LineClean item) (acc : Bytes)
      (hacc : LineClean acc) :
      LineClean (xs.foldl
        (fun itemsStr item => itemsStr ++ (if itemsStr ≠ [] then ascii "," else []) ++ item) acc) := by
    induction xs generalizing acc with
    | nil => exact hacc
    | cons x xs ih =>
      have hcomma : LineClean (if acc ≠ [] then ascii "," else []) := by
        split
        · decide
        · decide
      exact ih (fun item hi => hxs item (List.mem_cons_of_mem _ hi)) _
        ((hacc.append hcomma).append (hxs x List.mem_cons_self))
  exact hfold items.1 h [] lineClean_nil

/-- The text of a number has no line end. -/
theorem intText_clean (n : Int) : LineClean (intText n) := by
  have hdigits : ∀ b ∈ (Nat.toDigits 10 n.natAbs).map chr, b ≠ CR ∧ b ≠ LF := by
    intro b hb
    obtain ⟨c, hc, rfl⟩ := List.mem_map.mp hb
    have hdigit := Nat.isDigit_of_mem_toDigits (by decide) (by decide) hc
    have hrange : 48 ≤ c.toNat ∧ c.toNat ≤ 57 := by
      simpa [Char.isDigit, UInt32.le_iff_toNat_le] using hdigit
    have hbyte : (chr c).toNat = c.toNat := by
      show c.toNat % 256 = c.toNat
      omega
    constructor
    · intro e
      rw [e] at hbyte
      have : CR.toNat = 13 := rfl
      omega
    · intro e
      rw [e] at hbyte
      have : LF.toNat = 10 := rfl
      omega
  have htext : LineClean ((Nat.toDigits 10 n.natAbs).map chr) :=
    ⟨fun h => (hdigits _ h).1 rfl, fun h => (hdigits _ h).2 rfl⟩
  unfold intText
  split
  · exact LineClean.append (by decide) htext
  · exact htext

/-- `addHeader` brings no header but its own. -/
theorem mem_addHeader {env : External} (henv : AddHeaderSpec env) {reply : Reply}
    {name value : Bytes} {header : Bytes × Bytes}
    (h : header ∈ (reply.addHeader env name value).headers.entries) :
    header = (name, value) ∨ header ∈ reply.headers.entries := by
  unfold Reply.addHeader at h
  cases hc : reply.headers.contains name with
  | false =>
    simp only [henv.absent _ _ _ hc] at h
    exact SortedMap.mem_insert h
  | true =>
    rcases henv.present _ _ value hc with he | he
    · simp only [he] at h
      exact Or.inr h
    · simp only [he] at h
      exact SortedMap.mem_insert h

/-- A clean header keeps a reply clean. -/
theorem cleanReply_addHeader {env : External} (henv : AddHeaderSpec env) {reply : Reply}
    (hreply : CleanReply reply) {name value : Bytes} (hname : chr ':' ∉ name ∧ LineClean name)
    (hvalue : LineClean value) : CleanReply (reply.addHeader env name value) := by
  intro header hmem
  rcases mem_addHeader henv hmem with e | hmem
  · rw [e]
    exact ⟨hname.1, hname.2, hvalue⟩
  · exact hreply header hmem

/-- The names of the CORS headers. -/
def corsHeaderNames : List Bytes :=
  [ascii "Access-Control-Allow-Origin", ascii "Access-Control-Expose-Headers",
    ascii "Access-Control-Allow-Headers", ascii "Access-Control-Allow-Methods",
    ascii "Access-Control-Allow-Credentials", ascii "Access-Control-Max-Age"]

/-- **Every header of the answer is one of the web service's or a CORS header.** -/
theorem mem_addCORSHeaders {env : External} (henv : AddHeaderSpec env) {cors : CORSConfiguration}
    {request : Request} {reply : Reply} {header : Bytes × Bytes}
    (h : header ∈ (addCORSHeaders env cors request reply).headers.entries) :
    header ∈ reply.headers.entries ∨ header.1 ∈ corsHeaderNames := by
  have hadd {reply' : Reply} {name value : Bytes} (hname : name ∈ corsHeaderNames)
      (hreply : header ∈ reply'.headers.entries →
        header ∈ reply.headers.entries ∨ header.1 ∈ corsHeaderNames)
      (hmem : header ∈ (reply'.addHeader env name value).headers.entries) :
      header ∈ reply.headers.entries ∨ header.1 ∈ corsHeaderNames := by
    rcases mem_addHeader henv hmem with e | hmem
    · exact Or.inr (e ▸ hname)
    · exact hreply hmem
  unfold addCORSHeaders at h
  split at h
  · refine hadd (by simp [corsHeaderNames]) ?_ h
    refine hadd (by simp [corsHeaderNames]) ?_
    refine hadd (by simp [corsHeaderNames]) ?_
    refine hadd (by simp [corsHeaderNames]) ?_
    refine hadd (by simp [corsHeaderNames]) ?_
    split
    · exact hadd (by simp [corsHeaderNames]) Or.inl
    · exact Or.inl
  · exact Or.inl h

/-- **The CORS headers keep a reply clean** where the Origin of the request has no line end. -/
theorem cleanReply_addCORSHeaders {env : External} (henv : AddHeaderSpec env)
    {cors : CORSConfiguration} (hcors : CleanCORS cors) {request : Request} {reply : Reply}
    (hreply : CleanReply reply)
    (horigin : env.hasHeader request.headers (ascii "Origin") = true →
      LineClean (env.getHeader request.headers (ascii "Origin"))) :
    CleanReply (addCORSHeaders env cors request reply) := by
  unfold addCORSHeaders
  split
  · rename_i hon
    have hhas : env.hasHeader request.headers (ascii "Origin") = true :=
      (Bool.and_eq_true_iff.mp hon).2
    have hcredentials :
        LineClean (if cors.allowedCredentials then ascii "true" else ascii "false") := by
      split
      · decide
      · decide
    refine cleanReply_addHeader henv ?_ (by decide) (intText_clean _)
    refine cleanReply_addHeader henv ?_ (by decide) hcredentials
    refine cleanReply_addHeader henv ?_ (by decide)
      (getCommaSeparatedList_clean hcors.allowedMethods)
    refine cleanReply_addHeader henv ?_ (by decide)
      (getCommaSeparatedList_clean hcors.allowedHeaders)
    refine cleanReply_addHeader henv ?_ (by decide)
      (getCommaSeparatedList_clean hcors.exposedHeaders)
    split
    · exact cleanReply_addHeader henv hreply (by decide) (horigin hhas)
    · exact hreply
  · exact hreply

end BoostAsioWebServer
