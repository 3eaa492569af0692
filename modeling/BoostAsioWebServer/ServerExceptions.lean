/-
  File:      BoostAsioWebServer/ServerExceptions.lean
  Subject:   WEB SERVICES THAT THROW, and when the process ends by a handler's exception.

  `IWebService::process` is the application's, and nothing between it and `runThread` catches
  (`Services/RequestHandlingService.cpp`, `Connections/Connection.cpp`, `BaseServer.cpp`): an
  exception out of it leaves the handler, the thread's function, and ends the process, as the one
  `translateStatusToString` throws does. Here `process` may throw; the handler is the one of
  Connection.lean in the parts of ReadParts.lean, cut where a service throws. As long as none does
  the server runs as one whose services decline instead, so that the rest of this project speaks of
  it; where one does the process has ended (`quietOrThrown_run`).

  * `crashed_iff`: over every run the process has ended by a handler's exception exactly where the
    first service that does not decline a request throws, or replies with a status without a text.

  Not here: an allocation that fails.
-/
import BoostAsioWebServer.Connections.ReadParts
import BoostAsioWebServer.ServerLifetime

namespace BoostAsioWebServer

open ByteText Feed Runs

/-! ## 1. The services -/

/-- What a call of `IWebService::process` comes to. -/
inductive ProcessOutcome where
  | returned (reply : Option Reply)
  | threw

/-- `IWebService::process`. -/
abbrev ThrowingWebService := Request → ProcessOutcome

/-- What the connections of a server share. -/
structure ThrowingServices where
  env : External
  webServices : List ThrowingWebService
  cors : CORSConfiguration

/-- The loop of `processRequest` from the service at position `i` on: the calls it makes, and the
    reply unless one of them throws. -/
def processUnlessThrown (request : Request) :
    Nat → List ThrowingWebService → List ServiceCall × Option Reply
  | _, [] => ([], some (Reply.ofStatus .notFound))
  | i, webService :: webServices =>
    match webService request with
    | .threw => ([⟨i, request⟩], none)
    | .returned (some reply) => ([⟨i, request⟩], some reply)
    | .returned none =>
      let (calls, reply) := processUnlessThrown request (i + 1) webServices
      (⟨i, request⟩ :: calls, reply)

/-- The services that decline where these throw. -/
def ThrowingWebService.quiet (webService : ThrowingWebService) : WebService := fun request =>
  match webService request with
  | .returned reply => reply
  | .threw => none

def ThrowingServices.quiet (services : ThrowingServices) : Services :=
  ⟨services.env, services.webServices.map ThrowingWebService.quiet, services.cors⟩

/-- The service declines. -/
def ProcessOutcome.declines : ProcessOutcome → Bool
  | .returned none => true
  | _ => false

/-- The first service that does not decline the request. -/
def firstToAnswer (webServices : List ThrowingWebService) (request : Request) :
    Option ThrowingWebService :=
  webServices.find? fun webService => !(webService request).declines

/-- The first service that does not decline the request throws. -/
def Throws (webServices : List ThrowingWebService) (request : Request) : Prop :=
  ∃ webService, firstToAnswer webServices request = some webService ∧ webService request = .threw

/-- What `processRequest` returns where nothing throws: the reply of the first service that does not
    decline, or the fresh one. -/
def Returns (webServices : List ThrowingWebService) (request : Request) (reply : Reply) : Prop :=
  (∃ webService, firstToAnswer webServices request = some webService ∧
    webService request = .returned (some reply)) ∨
  firstToAnswer webServices request = none ∧ reply = Reply.ofStatus .notFound

/-- **What the loop comes to**: a service throws; or the calls and the reply are those of the
    services that decline instead. -/
theorem processUnlessThrown_cases (request : Request) (i : Nat)
    (webServices : List ThrowingWebService) :
    (Throws webServices request ∧ (processUnlessThrown request i webServices).2 = none) ∨
    ∃ reply, Returns webServices request reply ∧
      (processUnlessThrown request i webServices).2 = some reply ∧
      processFrom request i (webServices.map ThrowingWebService.quiet) =
        ((processUnlessThrown request i webServices).1, reply) := by
  induction webServices generalizing i with
  | nil => exact Or.inr ⟨_, Or.inr ⟨rfl, rfl⟩, rfl, rfl⟩
  | cons first webServices ih =>
    cases hfirst : first request with
    | threw =>
      have hfound : firstToAnswer (first :: webServices) request = some first :=
        List.find?_cons_of_pos (by rw [hfirst]; rfl)
      refine Or.inl ⟨⟨first, hfound, hfirst⟩, ?_⟩
      rw [processUnlessThrown, hfirst]
    | returned reply =>
      have hquiet : first.quiet request = reply := by rw [ThrowingWebService.quiet, hfirst]
      rw [processUnlessThrown, hfirst, List.map_cons, processFrom, hquiet]
      cases reply with
      | some reply =>
        have hfound : firstToAnswer (first :: webServices) request = some first :=
          List.find?_cons_of_pos (by rw [hfirst]; rfl)
        exact Or.inr ⟨reply, Or.inl ⟨first, hfound, hfirst⟩, rfl, rfl⟩
      | none =>
        have hfound : firstToAnswer (first :: webServices) request =
            firstToAnswer webServices request :=
          List.find?_cons_of_neg (by rw [hfirst]; decide)
        unfold Throws Returns
        rw [hfound]
        rcases ih (i + 1) with hthrows | ⟨reply, hreturns, hreply, hprocess⟩
        · exact Or.inl hthrows
        · exact Or.inr ⟨reply, hreturns, hreply, by rw [hprocess]⟩

/-- A loop that returns does not throw. -/
theorem Returns.not_throws {webServices : List ThrowingWebService} {request : Request}
    {reply : Reply} (h : Returns webServices request reply) : ¬ Throws webServices request := by
  rintro ⟨w, hw, hthrew⟩
  rcases h with ⟨v, hv, hreturned⟩ | ⟨hnone, -⟩
  · obtain rfl : v = w := Option.some.inj (hv.symm.trans hw)
    rw [hreturned] at hthrew
    cases hthrew
  · rw [hw] at hnone
    cases hnone

/-! ## 2. The handlers -/

section Handlers

variable (services : ThrowingServices) (transport : Transport)

/-- `handleRead` from its call of `processRequest` on: the reply is sent, or the exception leaves
    the handler. -/
def Connection.processOrThrow (c : Connection) : Connection :=
  match processUnlessThrown c.request 0 services.webServices with
  | (calls, some reply) =>
    { c with log := c.log ++ calls.map Action.process }.afterProcess services.env services.cors reply
  | (calls, none) => { c with log := c.log ++ (calls.map Action.process ++ [Action.threw]) }

/-- The handler of a completion; only that of a read comes to the web services. -/
def Connection.handleOrThrow (c : Connection) : Completion → Connection
  | .read data =>
    let c := { c with pending := none, requestBuffer := c.requestBuffer.overwrite data }
    match c.beforeProcess services.env data.bytes.length with
    | (c, true) => c.processOrThrow services
    | (c, false) => c
  | completion => c.handle services.quiet transport completion

/-- **One event** of a server whose services may throw. -/
def BaseServer.stepOrThrow (configuration : Configuration) (s : BaseServer) :
    Event → Option BaseServer
  | .complete index completion =>
    if s.crashed = false ∧ s.handlersRun = true then
      match s.connections[index]? with
      | some c =>
        if c.pending = some completion.operation then
          let c := c.handleOrThrow services transport completion
          some { s with connections := s.connections.set index c, crashed := hasThrown c.log }
        else none
      | none => none
    else none
  | event => s.step configuration services.quiet transport event

variable {services transport}

/-- The completion brings the verdict on a request that the services throw at. -/
def ThrownAt (services : ThrowingServices) (c : Connection) (completion : Completion) : Prop :=
  ∃ data p verdict, completion = .read data ∧
    feed (consume services.env.lexicalCast) c.parse data.bytes = (p, some verdict) ∧
    Throws services.webServices (RequestURIParserService.parse p.request).1

theorem not_thrownAt {c : Connection} {completion : Completion}
    (h : ∀ data, completion ≠ .read data) : ¬ ThrownAt services c completion := by
  rintro ⟨data, -, -, hdata, -⟩
  exact h data hdata

/-- **A handler whose services do not throw** is the one of the services that decline instead; and
    one whose services throw has let the exception through. -/
theorem handleOrThrow_cases (c : Connection) (completion : Completion) :
    (ThrownAt services c completion ∧
      .threw ∈ (c.handleOrThrow services transport completion).log) ∨
    (¬ ThrownAt services c completion ∧ c.handleOrThrow services transport completion =
      c.handle services.quiet transport completion) := by
  cases completion with
  | read data =>
    rw [handle_read]
    rcases hp : feed (consume services.env.lexicalCast) c.parse data.bytes with ⟨p, o⟩
    cases o with
    | none =>
      refine Or.inr ⟨?_, ?_⟩
      · rintro ⟨data', p', verdict, hdata, hp', -⟩
        cases hdata
        rw [hp] at hp'
        cases hp'
      · have hbefore : ({ c with
            pending := none, requestBuffer := c.requestBuffer.overwrite data } :
            Connection).beforeProcess services.env data.bytes.length =
              (c.afterRead services.quiet data, false) :=
          beforeProcess_none hp services.quiet.webServices
        rw [Connection.handleOrThrow]
        simp only [hbefore]
    | some verdict =>
      have hmid (calls : List ServiceCall) : { c.midRead data p verdict [] with
          log := (c.midRead data p verdict []).log ++ calls.map .process } =
            c.midRead data p verdict calls := by
        simp [Connection.midRead]
      have hrequest : (c.midRead data p verdict []).request =
          (RequestURIParserService.parse p.request).1 := rfl
      rw [Connection.handleOrThrow]
      simp only [beforeProcess_some hp, Connection.processOrThrow, hrequest]
      rcases processUnlessThrown_cases (RequestURIParserService.parse p.request).1 0
          services.webServices with ⟨hthrows, hnone⟩ | ⟨reply, hreturns, hsome, hprocess⟩
      · refine Or.inl ⟨⟨data, p, verdict, rfl, hp, hthrows⟩, ?_⟩
        split
        · rename_i calls reply heq
          rw [heq] at hnone
          cases hnone
        · exact List.mem_append_right _ (List.mem_append_right _ List.mem_cons_self)
      · refine Or.inr ⟨?_, ?_⟩
        · rintro ⟨data', p', verdict', hdata, hp', hthrows⟩
          cases hdata
          rw [hp] at hp'
          obtain rfl := (Prod.mk.inj hp').1
          exact hreturns.not_throws hthrows
        · split
          · rename_i calls reply' heq
            rw [heq] at hsome hprocess
            rw [Option.some.inj hsome]
            exact (congrArg (Connection.afterProcess services.env services.cors · reply)
              (hmid calls)).trans (midRead_afterProcess hp hprocess)
          · rename_i calls heq
            rw [heq] at hsome
            cases hsome
  | handshake failed => exact Or.inr ⟨not_thrownAt fun _ h => (by cases h), rfl⟩
  | readFailed => exact Or.inr ⟨not_thrownAt fun _ h => (by cases h), rfl⟩
  | write failed => exact Or.inr ⟨not_thrownAt fun _ h => (by cases h), rfl⟩

end Handlers

/-! ## 3. Runs -/

section Runs

variable {configuration : Configuration} {services : ThrowingServices} {transport : Transport}

/-- A process that has ended has no more events. -/
theorem step_crashed {services : Services} {s : BaseServer} {e : Event} (h : s.crashed = true) :
    s.step configuration services transport e = none := by
  cases e with
  | start os => simp [BaseServer.step, h]
  | stop => simp [BaseServer.step, h]
  | accept index failed => simp [BaseServer.step, h]
  | complete index completion => simp [BaseServer.step, h]

/-- No event but a completion comes to the web services. -/
theorem stepOrThrow_other {s : BaseServer} {e : Event}
    (he : ∀ i completion, e ≠ .complete i completion) :
    s.stepOrThrow services transport configuration e =
      s.step configuration services.quiet transport e := by
  cases e with
  | complete i completion => exact absurd rfl (he i completion)
  | _ => rfl

/-- A completion is handled as by the services that decline instead, or a service throws and the
    process has ended. -/
theorem stepOrThrow_complete {s s' : BaseServer} {i : Nat} {completion : Completion}
    (h : s.stepOrThrow services transport configuration (.complete i completion) = some s') :
    s.crashed = false ∧ ∃ c, s.connections[i]? = some c ∧
      c.pending = some completion.operation ∧
      ((¬ ThrownAt services c completion ∧
        s.step configuration services.quiet transport (.complete i completion) = some s') ∨
      (ThrownAt services c completion ∧ s'.crashed = true)) := by
  simp only [BaseServer.stepOrThrow] at h
  split at h
  · rename_i hguard
    split at h
    · rename_i c hc
      split at h
      · rename_i hop
        refine ⟨hguard.1, c, hc, hop, ?_⟩
        rw [← Option.some.inj h]
        have hhandled : (ThrownAt services c completion ∧
              .threw ∈ (c.handleOrThrow services transport completion).log) ∨
            (¬ ThrownAt services c completion ∧ c.handleOrThrow services transport completion =
              c.handle services.quiet transport completion) := handleOrThrow_cases c completion
        rcases hhandled with ⟨hthrown, hlog⟩ | ⟨hnot, heq⟩
        · exact Or.inr ⟨hthrown, (hasThrown_iff _).mpr hlog⟩
        · refine Or.inl ⟨hnot, ?_⟩
          rw [heq]
          simp only [BaseServer.step, hguard, hc, Connection.complete, hop, and_self, if_true,
            Option.map_some]
      · cases h
    · cases h
  · cases h

/-- The bytes have a verdict, and the services throw at the request. -/
def ThrowsAt (services : ThrowingServices) (bytes : Bytes) : Prop :=
  ∃ p verdict, feed (consume services.env.lexicalCast) .fresh bytes = (p, some verdict) ∧
    Throws services.webServices (RequestURIParserService.parse p.request).1

/-- A connection that reads has been accepted, and its parser is where its bytes lead. -/
theorem reading_parse {es : List Event} {s : BaseServer} {i : Nat} {c : Connection}
    (h : Isolated services.quiet transport es s) (hc : s.connections[i]? = some c)
    (hpending : c.pending = some .read) :
    i ∈ accepted es ∧ feed (consume services.env.lexicalCast) .fresh
      (received (completionsOf i es)) = (c.parse, none) := by
  cases h.alone i c hc with
  | built _ _ hbuilt =>
    rw [hbuilt] at hpending
    cases hpending
  | started hin hown =>
    refine ⟨hin, ?_⟩
    cases serving_run transport hown with
    | waiting _ hparse => exact hparse
    | answered hquiet =>
      rw [hpending] at hquiet
      rcases hquiet with hnone | hwrite
      · cases hnone
      · cases hwrite

/-- A read at which a service throws is one whose bytes complete such a request. -/
theorem throwsAt_read_iff {c : Connection} {bytes : Bytes} {data : ReadData}
    (hparse : feed (consume services.env.lexicalCast) .fresh bytes = (c.parse, none)) :
    ThrowsAt services (bytes ++ data.bytes) ↔ ThrownAt services c (.read data) := by
  unfold ThrowsAt
  rw [feed_append_none hparse]
  constructor
  · rintro ⟨p, verdict, hp, hthrows⟩
    exact ⟨data, p, verdict, rfl, hp, hthrows⟩
  · rintro ⟨data', p, verdict, hdata, hp, hthrows⟩
    cases hdata
    exact ⟨p, verdict, hp, hthrows⟩

/-- Where the services may have thrown: nowhere, and the run is one of the services that decline
    instead; or at the last event, and the process has ended. -/
def QuietOrThrown (configuration : Configuration) (services : ThrowingServices)
    (transport : Transport) (es : List Event) (s : BaseServer) : Prop :=
  (Run (BaseServer.step configuration services.quiet transport) .new es s ∧
    ∀ i ∈ accepted es, ¬ ThrowsAt services (received (completionsOf i es))) ∨
  (s.crashed = true ∧ ∃ i ∈ accepted es, ThrowsAt services (received (completionsOf i es)))

/-- An event that is no completion brings no bytes, and a connection it accepts has none. -/
theorem quiet_other {es : List Event} {s : BaseServer} {e : Event}
    (h : Isolated services.quiet transport es s) (he : ∀ i completion, e ≠ .complete i completion)
    (hquiet : ∀ i ∈ accepted es, ¬ ThrowsAt services (received (completionsOf i es))) :
    ∀ i ∈ accepted (es ++ [e]), ¬ ThrowsAt services (received (completionsOf i (es ++ [e]))) := by
  intro i hi
  have hnone : e.completionOf i = none := by
    cases e with
    | complete j completion => exact absurd rfl (he j completion)
    | _ => rfl
  rw [completionsOf_snoc, hnone, Option.toList_none, List.append_nil]
  by_cases hbefore : i ∈ accepted es
  · exact hquiet i hbefore
  · have hempty : completionsOf i es = [] := by
      cases hc : s.connections[i]? with
      | none => exact (h.absent i hc).2
      | some c =>
        cases h.alone i c hc with
        | built _ hown => exact hown
        | started hin => exact absurd hin hbefore
    rw [hempty]
    rintro ⟨p, verdict, hp, -⟩
    cases hp

/-- Every event keeps it. -/
theorem quietOrThrown_step {es : List Event} {s s' : BaseServer} {e : Event}
    (h : QuietOrThrown configuration services transport es s)
    (hstep : s.stepOrThrow services transport configuration e = some s') :
    QuietOrThrown configuration services transport (es ++ [e]) s' := by
  by_cases he : ∀ i completion, e ≠ .complete i completion
  · rw [stepOrThrow_other he] at hstep
    rcases h with ⟨hrun, hquiet⟩ | ⟨hcrashed, -⟩
    · exact Or.inl ⟨Run.snoc_iff.mpr ⟨s, hrun, hstep⟩, quiet_other (isolated_run hrun) he hquiet⟩
    · rw [step_crashed hcrashed] at hstep
      cases hstep
  · push Not at he
    obtain ⟨i, completion, rfl⟩ := he
    obtain ⟨hgoes, c, hc, hop, hcase⟩ := stepOrThrow_complete hstep
    rcases h with ⟨hrun, hquiet⟩ | ⟨hcrashed, -⟩
    swap
    · rw [hgoes] at hcrashed
      cases hcrashed
    have haccepted : accepted (es ++ [.complete i completion]) = accepted es := by
      simp [Event.accepted]
    have hreceived : received (completionsOf i (es ++ [.complete i completion])) =
        received (completionsOf i es) ++ completion.received := by
      simp [Event.completionOf, received]
    have hread {data : ReadData} (hdata : completion = .read data) :
        i ∈ accepted es ∧ (ThrowsAt services (received (completionsOf i es) ++ data.bytes) ↔
          ThrownAt services c completion) := by
      rw [hdata] at hop
      obtain ⟨hin, hparse⟩ := reading_parse (isolated_run hrun) hc hop
      rw [hdata]
      exact ⟨hin, throwsAt_read_iff hparse⟩
    unfold QuietOrThrown
    rw [haccepted]
    rcases hcase with ⟨hnot, hquietStep⟩ | ⟨hthrown, hcrashed⟩
    · refine Or.inl ⟨Run.snoc_iff.mpr ⟨s, hrun, hquietStep⟩, fun j hj => ?_⟩
      by_cases hij : i = j
      · subst hij
        rw [hreceived]
        cases completion with
        | read data => exact fun hthrows => hnot ((hread rfl).2.mp hthrows)
        | handshake failed => exact (List.append_nil _).symm ▸ hquiet i hj
        | readFailed => exact (List.append_nil _).symm ▸ hquiet i hj
        | write failed => exact (List.append_nil _).symm ▸ hquiet i hj
      · have hother : completionsOf j (es ++ [.complete i completion]) = completionsOf j es := by
          simp [Event.completionOf, hij]
        rw [hother]
        exact hquiet j hj
    · obtain ⟨data, -, -, hdata, -⟩ := id hthrown
      refine Or.inr ⟨hcrashed, i, (hread hdata).1, ?_⟩
      rw [hreceived, hdata]
      exact (hread hdata).2.mpr hthrown

theorem quietOrThrown_run {es : List Event} {s : BaseServer}
    (hrun : Run (BaseServer.stepOrThrow services transport configuration) .new es s) :
    QuietOrThrown configuration services transport es s :=
  Run.history (fun _ _ _ _ h hstep => quietOrThrown_step h hstep)
    (Or.inl ⟨Run.nil_iff.mpr rfl, fun _ hi => absurd hi List.not_mem_nil⟩) hrun

/-! ## 4. When the process ends -/

/-- What ends the process: an exception, or a reply whose status has no text. -/
def ProcessOutcome.Fatal : ProcessOutcome → Prop
  | .threw => True
  | .returned (some reply) => translateStatusToString reply.status = none
  | .returned none => False

/-- Where no service throws, the answer has no text exactly where the first service that does not
    decline gives a status that has none. -/
theorem answer_fatal_iff {request : Request}
    (hquiet : ¬ Throws services.webServices (RequestURIParserService.parse request).1) :
    (answer services.quiet request).buffer = none ↔
      ∃ webService, firstToAnswer services.webServices
          (RequestURIParserService.parse request).1 = some webService ∧
        (webService (RequestURIParserService.parse request).1).Fatal := by
  have hbuffer : (answer services.quiet request).buffer = none ↔
      translateStatusToString (processRequest services.quiet.webServices
        (RequestURIParserService.parse request).1).2.status = none := by
    have hstatus := addCORSHeaders_status services.env services.cors
      (RequestURIParserService.parse request).1 (processRequest services.quiet.webServices
        (RequestURIParserService.parse request).1).2
    rw [← hstatus]
    exact Option.map_eq_none_iff
  rw [hbuffer]
  rcases processUnlessThrown_cases (RequestURIParserService.parse request).1 0
      services.webServices with ⟨hthrows, -⟩ | ⟨reply, hreturns, -, hprocess⟩
  · exact absurd hthrows hquiet
  have hreply : (processRequest services.quiet.webServices
      (RequestURIParserService.parse request).1).2 = reply := congrArg Prod.snd hprocess
  rw [hreply]
  rcases hreturns with ⟨webService, hfirst, hreturned⟩ | ⟨hnone, hfresh⟩
  · constructor
    · intro hstatus
      refine ⟨webService, hfirst, ?_⟩
      rw [hreturned]
      exact hstatus
    · rintro ⟨w, hw, hfatal⟩
      obtain rfl : webService = w := Option.some.inj (hfirst.symm.trans hw)
      rw [hreturned] at hfatal
      exact hfatal
  · constructor
    · intro hstatus
      rw [hfresh] at hstatus
      cases hstatus
    · rintro ⟨w, hw, -⟩
      rw [hnone] at hw
      cases hw

variable (configuration services transport) in
/-- **When the process ends by a handler's exception**, over every run: exactly where the bytes
    received on some accepted connection have a verdict, whatever its value, and the first web
    service that does not decline the request throws, or replies with a status that has no text. -/
theorem crashed_iff {es : List Event} {s : BaseServer}
    (hrun : Run (BaseServer.stepOrThrow services transport configuration) .new es s) :
    s.crashed = true ↔ ∃ i ∈ accepted es, ∃ p verdict webService,
      feed (consume services.env.lexicalCast) .fresh (received (completionsOf i es)) =
        (p, some verdict) ∧
      firstToAnswer services.webServices (RequestURIParserService.parse p.request).1 =
        some webService ∧
      (webService (RequestURIParserService.parse p.request).1).Fatal := by
  rcases quietOrThrown_run hrun with ⟨hquietRun, hquiet⟩ | ⟨hcrashed, i, hi, hthrows⟩
  · rw [crashed_run hquietRun]
    refine exists_congr fun i => and_congr_right fun hi => ?_
    rcases hp : feed (consume services.env.lexicalCast) .fresh (received (completionsOf i es)) with
      ⟨p, o⟩
    cases o with
    | none =>
      have hnone : served services.quiet (received (completionsOf i es)) = none := served_none hp
      rw [hnone]
      constructor
      · rintro ⟨a, ha, -⟩
        cases ha
      · rintro ⟨p', verdict, w, hp', -⟩
        cases (Prod.mk.inj hp').2
    | some verdict =>
      have hsome : served services.quiet (received (completionsOf i es)) =
          some (answer services.quiet p.request) := served_some hp
      have hnot : ¬ Throws services.webServices (RequestURIParserService.parse p.request).1 :=
        fun hthrows => hquiet i hi ⟨p, verdict, hp, hthrows⟩
      rw [hsome]
      constructor
      · rintro ⟨a, ha, hbuffer⟩
        rw [← Option.some.inj ha] at hbuffer
        obtain ⟨w, hw⟩ := (answer_fatal_iff hnot).mp hbuffer
        exact ⟨p, verdict, w, rfl, hw⟩
      · rintro ⟨p', verdict', w, hp', hw⟩
        rw [← (Prod.mk.inj hp').1] at hw
        exact ⟨_, rfl, (answer_fatal_iff hnot).mpr ⟨w, hw⟩⟩
  · obtain ⟨p, verdict, hp, w, hfirst, hthrew⟩ := hthrows
    refine ⟨fun _ => ⟨i, hi, p, verdict, w, hp, hfirst, ?_⟩, fun _ => hcrashed⟩
    rw [hthrew]
    trivial

end Runs

/-! ## 5. A service that throws -/

/-- The second of two web services throws at a request that the first declines. -/
theorem crashed_throwing :
    let data : ReadData := ⟨ascii "GET /a HTTP/1.0\r\n\r\n", by decide, by decide⟩
    let services : ThrowingServices := ⟨.reference, [fun _ => .returned none, fun _ => .threw], .off⟩
    ∃ s, Run (BaseServer.stepOrThrow services .plain .oneThread) .new
        [.start .good, .accept 0 false, .complete 0 (.read data)] s ∧ s.crashed = true := by
  intro data services
  have hrun : Run (BaseServer.stepOrThrow services .plain .oneThread) .new
      [.start .good, .accept 0 false, .complete 0 (.read data)] _ := rfl
  refine ⟨_, hrun, (crashed_iff .oneThread services .plain hrun).mpr ?_⟩
  exact ⟨0, List.mem_singleton.mpr rfl, _, _, _, rfl, rfl, trivial⟩

end BoostAsioWebServer
