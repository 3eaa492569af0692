/-
  File:      BoostAsioWebServer/Connections/Gate.lean
  Subject:   THE GATE IN FRONT OF THE WEB SERVICES.

  `Gate` is what the two tests `if (result)` of `handleRead` are there for: a web service is called
  only for a request the parser accepted and whose URI was accepted, and every other verdict is
  answered with BAD_REQUEST and no call. The tests ask the optional whether it holds a value, so
  they are passed by every verdict.

  * `Delivered.gate_iff`: the gate holds exactly where the verdict is `true` and the URI is accepted;
  * `CleanStart`: the same condition on the bytes received, in terms of the grammar;
  * `gate_iff_cleanStart`: the gate holds on a stream if and only if the stream is clean.
-/
import BoostAsioWebServer.Agents.RequestParserAccepts
import BoostAsioWebServer.Connections.Serving

namespace BoostAsioWebServer

open ByteText Feed Runs

/-! ## 1. The gate -/

/-- The parser accepted the request and then its URI was accepted. -/
def Passed (log : List Action) : Prop :=
  Action.parsed (some true) ∈ log ∧ Action.uriParsed true ∈ log

/-- **The gate**: a call of a web service is behind two acceptances; a verdict without them leads
    to no call and to a reply with status BAD_REQUEST. -/
structure Gate (log : List Action) : Prop where
  called : ∀ call, Action.process call ∈ log → Passed log
  refused : HasVerdict log → ¬ Passed log →
    (∀ call, Action.process call ∉ log) ∧
      ∃ reply, Action.serialised reply ∈ log ∧ reply.status = .badRequest

section Gate

variable {services : Services}

/-- An action that tells of a verdict or of its answer: no action of a log without a verdict, and
    not its end. -/
def Telling (x : Action) : Prop :=
  ¬ Silent [x] ∧ (∀ transport, x ≠ .shutdown transport) ∧ x ≠ .threw ∧ ∀ buffer, x ≠ .asyncWrite buffer

/-- What the log of an answer tells. -/
theorem AnsweredLog.mem_iff {verdict : Bool} {request : Request} {log : List Action}
    (h : AnsweredLog services verdict request log) {x : Action} (hx : Telling x) :
    x ∈ log ↔ x = .parsed (some verdict) ∨ x = .uriParsed (answer services request).accepted ∨
      (∃ call ∈ (answer services request).calls, .process call = x) ∨
      x = .serialised (answer services request).reply := by
  obtain ⟨before, after, rfl, hbefore, hafter⟩ := h
  obtain ⟨hloud, hshutdown, hthrew, hwrite⟩ := hx
  have hb : x ∉ before := fun hmem => hloud fun a ha => List.mem_singleton.mp ha ▸ hbefore x hmem
  have ha : x ∉ after := fun hmem => (hafter x hmem).elim hshutdown
  have hend : x ≠ (answer services request).buffer.elim .threw .asyncWrite := by
    cases (answer services request).buffer with
    | none => exact hthrew
    | some buffer => exact hwrite buffer
  simp [Answer.actions, hb, ha, hend]

/-- The verdict in the log. -/
theorem AnsweredLog.verdict_iff {verdict v : Bool} {request : Request} {log : List Action}
    (h : AnsweredLog services verdict request log) :
    Action.parsed (some v) ∈ log ↔ v = verdict := by
  rw [h.mem_iff (by simp [Telling])]
  simp

/-- The URI parser's result in the log. -/
theorem AnsweredLog.uriParsed_iff {verdict b : Bool} {request : Request} {log : List Action}
    (h : AnsweredLog services verdict request log) :
    Action.uriParsed b ∈ log ↔ b = (answer services request).accepted := by
  rw [h.mem_iff (by simp [Telling])]
  simp

/-- The calls in the log. -/
theorem AnsweredLog.process_iff {verdict : Bool} {request : Request} {log : List Action}
    (h : AnsweredLog services verdict request log) {call : ServiceCall} :
    Action.process call ∈ log ↔ call ∈ (answer services request).calls := by
  rw [h.mem_iff (by simp [Telling])]
  simp

/-- The reply that is serialised. -/
theorem AnsweredLog.serialised_iff {verdict : Bool} {request : Request} {log : List Action}
    (h : AnsweredLog services verdict request log) {reply : Reply} :
    Action.serialised reply ∈ log ↔ reply = (answer services request).reply := by
  rw [h.mem_iff (by simp [Telling])]
  simp

/-! ## 2. The gate and the verdict -/

/-- **No answer is a refusal**: it calls a web service, or its status is NOT_FOUND. -/
theorem answer_calls_or_notFound (services : Services) (request : Request) :
    (answer services request).calls ≠ [] ∨ (answer services request).reply.status = .notFound := by
  have hcalls : (answer services request).calls = (processFrom
      (RequestURIParserService.parse request).1 0 services.webServices).1 := rfl
  by_cases hnone : services.webServices = []
  · have hreply : (answer services request).reply =
        addCORSHeaders services.env services.cors (RequestURIParserService.parse request).1
          (processFrom (RequestURIParserService.parse request).1 0 services.webServices).2 := rfl
    refine Or.inr ?_
    rw [hreply, addCORSHeaders_status, hnone]
    rfl
  · rw [hcalls]
    exact Or.inl (processFrom_calls _ 0 hnone)

/-- An answered connection meets the gate exactly where both verdicts are `true`. -/
theorem AnsweredLog.gate_iff {verdict : Bool} {request : Request} {log : List Action}
    (h : AnsweredLog services verdict request log) :
    Gate log ↔ verdict = true ∧ (RequestURIParserService.parse request).2 = true := by
  have hpassed : Passed log ↔
      verdict = true ∧ (RequestURIParserService.parse request).2 = true := by
    rw [Passed, h.verdict_iff, h.uriParsed_iff]
    exact and_congr eq_comm eq_comm
  rw [← hpassed]
  constructor
  · intro hgate
    by_contra hno
    obtain ⟨hnocall, reply, hreply, hstatus⟩ :=
      hgate.refused ⟨verdict, h.verdict_iff.mpr rfl⟩ hno
    rcases answer_calls_or_notFound services request with hcalls | hnotFound
    · obtain ⟨call, hcall⟩ := List.exists_mem_of_ne_nil _ hcalls
      exact hnocall call (h.process_iff.mpr hcall)
    · rw [h.serialised_iff.mp hreply, hnotFound] at hstatus
      cases hstatus
  · intro hyes
    exact ⟨fun _ _ => hyes, fun _ hno => absurd hyes hno⟩

/-- A silent log meets the gate. -/
theorem Silent.gate {log : List Action} (h : Silent log) : Gate log where
  called call hmem := by
    rcases h _ hmem with e | e | e | e
    all_goals cases e
  refused hverdict := absurd hverdict h.not_hasVerdict

/-- The gate in terms of the verdicts on the bytes received. -/
theorem Delivered.gate_iff {bytes : Bytes} {c : Connection} (h : Delivered services bytes c) :
    Gate c.log ↔ ∀ p verdict,
      feed (consume services.env.lexicalCast) .fresh bytes = (p, some verdict) →
      verdict = true ∧ (RequestURIParserService.parse p.request).2 = true := by
  cases h with
  | waiting _ hparse hlog =>
    refine ⟨fun _ p verdict hp => ?_, fun _ => hlog.gate⟩
    rw [hparse] at hp
    cases hp
  | answered _ hparse hlog =>
    rw [hlog.gate_iff]
    constructor
    · intro hyes p verdict hp
      rw [hparse] at hp
      cases hp
      exact hyes
    · intro hall
      exact hall _ _ hparse

/-! ## 3. Clean streams -/

/-- The bytes are the beginning of a request, or start with a request whose target decodes to an
    absolute path that does not climb. -/
def CleanStart (lexicalCast : Bytes → Option Int32) (bytes : Bytes) : Prop :=
  (∃ rest head body, rest ≠ [] ∧ SentenceOf (lengthNat lexicalCast) head body (bytes ++ rest)) ∨
    ∃ head body rest out, bytes = head.text ++ body ++ rest ∧
      SentenceOf (lengthNat lexicalCast) head body (head.text ++ body) ∧
      AcceptedTarget head.line.uri out

/-- **The gate holds on a stream if and only if the stream is clean**, however it is cut into
    reads, on either transport and with any web services. -/
theorem gate_iff_cleanStart (services : Services) (transport : Transport) (cut : List ReadData) :
    Gate (transport.ready.deliver services transport cut).log ↔
      CleanStart services.env.lexicalCast (bytesOf cut) := by
  rw [(delivered_ready services transport cut).gate_iff, CleanStart, ← feed_none_iff]
  constructor
  · intro hall
    rcases hp : feed (consume services.env.lexicalCast) .fresh (bytesOf cut) with ⟨p, o⟩
    cases o with
    | none => exact Or.inl ⟨p, rfl⟩
    | some verdict =>
      obtain ⟨rfl, haccepted⟩ := hall p verdict hp
      obtain ⟨head, body, rest, hbytes, hsentence, hrequest⟩ := sentence_of_feed hp
      obtain ⟨out, hout⟩ := (parse_true_iff p.request).mp haccepted
      rw [hrequest] at hout
      exact Or.inr ⟨head, body, rest, out, hbytes, hsentence, hout⟩
  · intro hclean p verdict hp
    rcases hclean with ⟨q, hq⟩ | ⟨head, body, rest, out, hbytes, hsentence, hout⟩
    · rw [hq] at hp
      cases hp
    · obtain ⟨ys, b, t, q, hs, hys, hb, hrequest⟩ := feed_sentence services.env.lexicalCast hsentence
      have hall : feed (consume services.env.lexicalCast) .fresh (bytesOf cut) = (q, some true) := by
        rw [hbytes, hs]
        refine feed_append_some ?_ rest
        rw [feed_append_none hys, feed_singleton, hb]
      rw [hall] at hp
      cases hp
      have huri : p.request.uri = head.line.uri := by
        rw [hrequest]
        rfl
      rw [← huri] at hout
      exact ⟨rfl, (parse_true_iff p.request).mpr ⟨out, hout⟩⟩

end Gate

/-! ## 4. A byte that is no request -/

/-- A byte that starts no request is refused by the parser, and the web service is called. -/
theorem gate_fails_on_parenthesis :
    ¬ Gate (Transport.plain.ready.deliver .echo .plain [⟨ascii "(", by decide, by decide⟩]).log := by
  have h := delivered_ready .echo .plain [⟨ascii "(", by decide, by decide⟩]
  intro hgate
  have hrefused := h.gate_iff.mp hgate .fresh false rfl
  exact Bool.false_ne_true hrefused.1

end BoostAsioWebServer
