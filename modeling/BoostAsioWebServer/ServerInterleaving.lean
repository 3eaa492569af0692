/-
  File:      BoostAsioWebServer/ServerInterleaving.lean
  Subject:   EVERY INTERLEAVING of the threads of a server, with the services registered meanwhile.

  * `threaded_complete`: a handler begins, and runs to its end or to `processRequest`;
  * `threaded_proceedRead`: one more access inside `processRequest`, and the end of the handler;
  * `threaded_step`, `threaded_run`: every event keeps the invariant, so it holds after every run;
  * `threads_invisible`: what follows for every reachable state.
-/
import BoostAsioWebServer.ServerConcurrency

namespace BoostAsioWebServer

open ByteText Feed Runs

section Concurrency

variable {env : External} {cors : CORSConfiguration} {transport : Transport}

/-! ## 1. The handler of a completion -/

theorem received_append (xs ys : List Completion) : received (xs ++ ys) = received xs ++ received ys :=
  List.flatMap_append

/-- A connection that waits has its parser where the bytes lead, and is not writing. -/
theorem waiting_parse {es : List ThreadedEvent} {i : Nat} {c : Connection}
    (hverdict : (feed (consume env.lexicalCast) .fresh
      (received (completionsOf i (wholes es)))).2 = none)
    (hrun : ∀ webServices, OwnRun env cors transport webServices es i c) :
    feed (consume env.lexicalCast) .fresh (received (completionsOf i (wholes es))) =
      (c.parse, none) ∧ c.pending ≠ some .write := by
  cases serving_run transport (hrun []) with
  | waiting hpending hparse _ => exact ⟨hparse, hpending⟩
  | answered _ hparse _ =>
    rw [hparse] at hverdict
    cases hverdict

theorem VerdictAt.completions {es before after : List ThreadedEvent} {i k : Nat} {data : ReadData}
    {p : Parse} {verdict : Bool} (h : VerdictAt env es i before k data after p verdict) :
    completionsOf i (wholes es) =
      completionsOf i (wholes before) ++ .read data :: completionsOf i (wholes after) := by
  have hown : completionsOf i (wholes [.complete k i (.read data)]) = [.read data] := by
    simp [completionsOf, wholes, ThreadedEvent.whole, Event.completionOf]
  rw [h.split, ← List.singleton_append, wholes_append, wholes_append, completionsOf_append,
    completionsOf_append, hown]
  rfl

/-- The bytes received: before the read that brought the verdict, with it, and behind it. -/
theorem VerdictAt.stream {es before after : List ThreadedEvent} {i k : Nat} {data : ReadData}
    {p : Parse} {verdict : Bool} (h : VerdictAt env es i before k data after p verdict) :
    received (completionsOf i (wholes es)) =
      received (completionsOf i (wholes before)) ++ data.bytes ++
        received (completionsOf i (wholes after)) := by
  rw [h.completions, received_append, List.append_assoc]
  rfl

/-- The bytes received have the verdict. -/
theorem VerdictAt.received {es before after : List ThreadedEvent} {i k : Nat} {data : ReadData}
    {p : Parse} {verdict : Bool} (h : VerdictAt env es i before k data after p verdict) :
    feed (consume env.lexicalCast) .fresh (received (completionsOf i (wholes es))) =
      (p, some verdict) := by
  rw [h.stream]
  exact feed_append_some h.brings _

/-- An answered connection is not reading and not in a handshake. -/
theorem answered_pending {es before after : List ThreadedEvent} {i k : Nat} {data : ReadData}
    {p : Parse} {verdict : Bool} {c : Connection} {webServices : List WebService}
    (h : VerdictAt env es i before k data after p verdict)
    (hrun : OwnRun env cors transport webServices es i c) :
    c.pending = none ∨ c.pending = some .write := by
  cases serving_run transport hrun with
  | waiting _ hparse _ =>
    have hsame : (c.parse, none) = (p, some verdict) := hparse.symm.trans h.received
    cases congrArg Prod.snd hsame
  | answered hpending _ _ => exact hpending

/-- One more completion of the connection itself. -/
theorem OwnRun.snoc {webServices : List WebService} {es : List ThreadedEvent} {i k : Nat}
    {c : Connection} {completion : Completion}
    (h : OwnRun env cors transport webServices es i c)
    (hop : c.pending = some completion.operation) :
    OwnRun env cors transport webServices (es ++ [.complete k i completion]) i
      (c.handle ⟨env, webServices, cors⟩ transport completion) := by
  have hown : completionsOf i (wholes (es ++ [.complete k i completion])) =
      completionsOf i (wholes es) ++ [completion] := by
    rw [wholes_append, completionsOf_append]
    simp [completionsOf, wholes, ThreadedEvent.whole, Event.completionOf]
  rw [OwnRun, hown]
  exact Run.snoc_iff.mpr ⟨c, h, if_pos hop⟩

/-- **A thread moves the connection it is inside of**, and is then inside `job`. -/
theorem Threaded.moved {es : List ThreadedEvent} {e : ThreadedEvent} {s : ThreadedServer}
    {i k : Nat} {c c' : Connection} (job : Option Job)
    (h : Threaded env cors transport es s) (hc : s.base.connections[i]? = some c)
    (hnot : c ≠ .built) (haccepted : accepted (wholes [e]) = []) (hregisters : e.registers = none)
    (hcompletions : ∀ j, i ≠ j → completionsOf j (wholes [e]) = [])
    (hproceeds : ∀ k', e.proceedsIn k' = true → k' = k)
    (hbefore : s.inside k = none ∨ ∃ loop, s.inside k = some (.processing i loop))
    (hjob : job = none ∨ ∃ loop, job = some (.processing i loop))
    (hk : k < s.base.threads.length)
    (halone : ThreadedAlone env cors transport (es ++ [e]) (Function.update s.inside k job) i c')
    (crashed : Bool) :
    Threaded env cors transport (es ++ [e])
      { s with
        base := { s.base with connections := s.base.connections.set i c', crashed := crashed }
        inside := Function.update s.inside k job } := by
  have hlt : i < s.base.connections.length := (List.getElem?_eq_some_iff.mp hc).1
  have hself : s.inside k ≠ some .accepting := by
    rcases hbefore with hnone | ⟨loop, hloop⟩
    · rw [hnone]
      exact fun e => by cases e
    · rw [hloop]
      exact fun e => by cases e
  have haccepting (k' : Nat) : Function.update s.inside k job k' = some .accepting ↔
      s.inside k' = some .accepting := by
    by_cases hkk : k' = k
    · subst hkk
      rw [Function.update_self]
      refine ⟨fun e => ?_, fun e => absurd e hself⟩
      rcases hjob with rfl | ⟨loop, rfl⟩
      · cases e
      · cases e
    · rw [Function.update_of_ne hkk]
  have hunrelated (j : Nat) (hij : i ≠ j) :
      Unrelated e s.inside (Function.update s.inside k job) j := by
    have hb (loop : RequestLoop WebService) : s.inside k ≠ some (.processing j loop) := by
      rcases hbefore with hnone | ⟨loop', hloop⟩
      · rw [hnone]
        exact fun e => by cases e
      · rw [hloop]
        exact fun e => hij (by cases e; rfl)
    have ha (loop : RequestLoop WebService) : job ≠ some (.processing j loop) := by
      rcases hjob with rfl | ⟨loop', rfl⟩
      · exact fun e => by cases e
      · exact fun e => hij (by cases e; rfl)
    refine ⟨by rw [haccepted]; exact List.not_mem_nil, hcompletions j hij,
      update_processing hb ha, fun k' loop hin => ?_⟩
    by_contra hproceed
    obtain rfl := hproceeds k' (by simpa using hproceed)
    exact hb loop hin
  obtain ⟨hall, habsent⟩ := h.replace (List.getElem?_set_self hlt)
    (fun j hij => List.getElem?_set_ne hij) halone hunrelated
  have hes := accepted_outside haccepted es
  refine ⟨?_, ?_, fun hclosed => ?_, hall, ?_, habsent, h.known_update hk job⟩
  · rw [registered_other hregisters]
    exact h.mgr
  · cases h.accept with
    | none hnone hinside => exact .none hnone fun k' e => hinside k' ((haccepting k').mp e)
    | @pending j hwaiting hinside =>
      refine .pending (hwaiting.congr rfl rfl (List.getElem?_set_ne fun hij => ?_) ?_)
        fun k' e => hinside k' ((haccepting k').mp e)
      · subst hij
        exact hnot (Option.some.inj (hc.symm.trans hwaiting.built))
      · rw [hes]
        exact id
    | inside hnone hinside => exact .inside hnone fun k' => (haccepting k').trans (hinside k')
  · obtain ⟨hpending, hinside⟩ := h.closed hclosed
    exact ⟨hpending, fun k' e => hinside k' ((haccepting k').mp e)⟩
  · rw [hes]
    exact h.once

/-- A handler without a verdict runs to its end. -/
theorem beginHandler_whole {s : ThreadedServer} {k i : Nat} {c : Connection}
    {completion : Completion}
    (h : ∀ data, completion = .read data →
      (feed (consume env.lexicalCast) c.parse data.bytes).2 = none) :
    s.beginHandler env cors transport k i c completion =
      s.setConnection i (c.handle ⟨env, s.mgr.webServices, cors⟩ transport completion) := by
  cases completion with
  | handshake failed => rfl
  | read data =>
    have hnone := h data rfl
    rcases hp : feed (consume env.lexicalCast) c.parse data.bytes with ⟨p, o⟩
    rw [hp] at hnone
    obtain rfl : o = none := hnone
    unfold ThreadedServer.beginHandler
    simp only [@beforeProcess_none env cors c data p hp s.mgr.webServices]
    rw [handle_read]
  | readFailed => rfl
  | write failed => rfl

/-- A read with a verdict comes to `processRequest`, which counts the services. -/
theorem beginHandler_verdict {s : ThreadedServer} {k i : Nat} {c : Connection} {data : ReadData}
    {p : Parse} {verdict : Bool}
    (h : feed (consume env.lexicalCast) c.parse data.bytes = (p, some verdict)) :
    s.beginHandler env cors transport k i c (.read data) =
      (s.setConnection i (c.midRead data p verdict [])).setInside k (some (.processing i
        (RequestLoop.start s.mgr (RequestURIParserService.parse p.request).1))) := by
  unfold ThreadedServer.beginHandler
  simp only [beforeProcess_some h]
  rfl

/-- **The handler of a completion** begins, and runs to its end or to `processRequest`. -/
theorem threaded_complete {es : List ThreadedEvent} {s : ThreadedServer} {k i : Nat}
    {c : Connection} {completion : Completion} (h : Threaded env cors transport es s)
    (hidle : s.idle k = true) (hc : s.base.connections[i]? = some c)
    (hop : c.pending = some completion.operation) :
    Threaded env cors transport (es ++ [.complete k i completion])
      (s.beginHandler env cors transport k i c completion) := by
  obtain ⟨hinside, hk⟩ := ThreadedServer.idle_iff hidle
  have hnot : c ≠ .built := by
    intro e
    subst e
    cases hop
  have hcompletions (j : Nat) (hij : i ≠ j) :
      completionsOf j (wholes [.complete k i completion]) = [] := by
    simp [completionsOf, wholes, ThreadedEvent.whole, Event.completionOf, hij]
  have hsame : Function.update s.inside k none = s.inside := by
    rw [← hinside]
    exact Function.update_eq_self k s.inside
  have hin (h : i ∈ accepted (wholes es)) :
      i ∈ accepted (wholes (es ++ [.complete k i completion])) := by
    rw [accepted_outside rfl]
    exact h
  -- a handler that runs to its end leaves the threads as they are
  have hwhole (hnone : ∀ data, completion = .read data →
        (feed (consume env.lexicalCast) c.parse data.bytes).2 = none)
      (halone : ThreadedAlone env cors transport (es ++ [.complete k i completion]) s.inside i
        (c.handle ⟨env, s.mgr.webServices, cors⟩ transport completion)) :
      Threaded env cors transport (es ++ [.complete k i completion])
        (s.beginHandler env cors transport k i c completion) := by
    rw [beginHandler_whole hnone]
    have hmoved := Threaded.moved none h hc hnot rfl rfl hcompletions (fun k' e => by cases e)
      (Or.inl hinside) (Or.inl rfl) hk (by rw [hsame]; exact halone) s.base.crashed
    rw [hsame] at hmoved
    exact hmoved
  cases h.alone i c hc with
  | built _ _ _ hbuilt => exact absurd hbuilt hnot
  | processing _ _ _ _ _ _ _ hstate =>
    rw [hstate] at hop
    cases hop
  | @answered before k₀ data after p verdict haccepted hfree hverdict hrun =>
    obtain ⟨failed, rfl⟩ := eq_write_of_not_reading (answered_pending hverdict hrun) hop
    refine hwhole (fun data e => by cases e) (.answered (hin haccepted) hfree (hverdict.snoc _) ?_)
    exact hrun.snoc hop
  | waiting haccepted hfree hverdict hrun =>
    obtain ⟨hparse, -⟩ := waiting_parse hverdict hrun
    have hreceived : received (completionsOf i (wholes (es ++ [.complete k i completion]))) =
        received (completionsOf i (wholes es)) ++ completion.received := by
      rw [wholes_append, completionsOf_append, received_append]
      simp [completionsOf, wholes, ThreadedEvent.whole, Event.completionOf, received]
    by_cases hnone : ∀ data, completion = .read data →
        (feed (consume env.lexicalCast) c.parse data.bytes).2 = none
    · refine hwhole hnone (.waiting (hin haccepted) hfree ?_ fun ws => ?_)
      · rw [hreceived, feed_append_none hparse]
        cases completion with
        | handshake failed => rfl
        | read data => exact hnone data rfl
        | readFailed => rfl
        | write failed => rfl
      · rw [handle_congr transport hnone s.mgr.webServices ws]
        exact (hrun ws).snoc hop
    · push Not at hnone
      obtain ⟨data, rfl, hsome⟩ := hnone
      rcases hp : feed (consume env.lexicalCast) c.parse data.bytes with ⟨p, o⟩
      rw [hp] at hsome
      obtain ⟨verdict, rfl⟩ := Option.ne_none_iff_exists'.mp hsome
      rw [beginHandler_verdict hp]
      obtain ⟨hstands, hremaining⟩ :=
        stands_start s.mgr (RequestURIParserService.parse p.request).1
      rw [h.mgr] at hstands hremaining ⊢
      refine Threaded.moved _ h hc hnot rfl rfl hcompletions (fun k' e => by cases e) (Or.inl hinside)
        (Or.inr ⟨_, rfl⟩) hk ?_ s.base.crashed
      refine .processing (hin haccepted)
        ⟨rfl, hverdict, (feed_append_none hparse data.bytes).trans hp⟩ hrun hop rfl ?_
        ⟨hstands, fun call hcall => absurd hcall List.not_mem_nil, ?_⟩ rfl
      · intro k' loop'
        by_cases hkk : k' = k
        · subst hkk
          rw [Function.update_self]
          refine ⟨fun e => ⟨rfl, by cases e; rfl⟩, fun e => by rw [e.2]⟩
        · rw [Function.update_of_ne hkk]
          exact ⟨fun e => absurd e (hfree k' loop'), fun e => absurd e.1 hkk⟩
      · rw [show proceeds k ([] : List ThreadedEvent) = 0 from rfl, Nat.zero_add]
        exact hremaining

/-! ## 2. Inside `processRequest` -/

/-- A call of `getWebService` is no call of a web service. -/
theorem RequestLoop.getWebService_calls {σ : Type*} {mgr : WebServicesMgr σ} {l l' : RequestLoop σ}
    (h : l.getWebService mgr = some l') : l'.calls = l.calls := by
  unfold RequestLoop.getWebService at h
  split at h
  · split at h
    · rw [← Option.some.inj h]
    · rw [← Option.some.inj h]
  · cases h

/-- A call of a web service is added to the calls. -/
theorem RequestLoop.process_calls {σ : Type*} {outcome : Option Reply} {l l' : RequestLoop σ}
    {index : UInt32} {webService : σ} (hphase : l.phase = .calling index webService)
    (h : l.process outcome = some l') :
    l'.calls = l.calls ++ [⟨webService, l.request, outcome⟩] := by
  unfold RequestLoop.process at h
  rw [hphase] at h
  cases outcome with
  | some reply =>
    simp only [Option.some.injEq] at h
    rw [← h]
  | none =>
    simp only [Option.some.injEq] at h
    rw [← h]
    rfl

/-- The index of the service a loop calls is the number of calls it has made. -/
theorem RequestLoop.Stands.calling {σ : Type*} {consulted : List σ} {request : Request}
    {l : RequestLoop σ} {index : UInt32} {webService : σ} (h : l.Stands consulted request)
    (hphase : l.phase = .calling index webService) : index.toNat = l.calls.length := by
  have hstage := h.stage
  rw [hphase] at hstage
  cases hstage with
  | calling _ before behind _ hconsulted hi hcalls => rw [hcalls, refused, List.length_map, hi]

/-- What a loop has returned is a reply. -/
theorem LoopResult.exists_reply {σ : Type*} {consulted : List σ} {request : Request}
    {calls : List (Consultation σ)} {reply : Option Reply}
    (h : LoopResult consulted request calls reply) : ∃ r, reply = some r := by
  cases h with
  | replied before behind webService r => exact ⟨r, rfl⟩
  | notFound => exact ⟨_, rfl⟩

/-- **One more access inside `processRequest`**, and behind its reply the end of the handler. -/
theorem threaded_proceedRead {es : List ThreadedEvent} {s s' : ThreadedServer} {k i : Nat}
    {c : Connection} {loop : RequestLoop WebService} (h : Threaded env cors transport es s)
    (hk : s.inside k = some (.processing i loop)) (hc : s.base.connections[i]? = some c)
    (hstep : s.proceedRead env cors k i c loop = some s') :
    Threaded env cors transport (es ++ [.proceed k]) s' := by
  cases h.alone i c hc with
  | built _ _ hfree => exact absurd hk (hfree k loop)
  | waiting _ hfree => exact absurd hk (hfree k loop)
  | answered _ hfree => exact absurd hk (hfree k loop)
  | @processing before k₀ data after p verdict c₀ loop₀ haccepted hverdict hrun hreads hafter
      hinside hloop hstate =>
    obtain ⟨rfl, rfl⟩ := (hinside k loop).mp hk
    obtain ⟨hparse, -⟩ := waiting_parse hverdict.waits hrun
    have hfeed : feed (consume env.lexicalCast) c₀.parse data.bytes = (p, some verdict) :=
      (feed_append_none hparse data.bytes).symm.trans hverdict.brings
    have hnot : c ≠ .built := by
      intro e
      have hlog := congrArg Connection.log e
      rw [hstate] at hlog
      exact absurd hlog (by simp [Connection.midRead, Connection.built])
    have hk' : k < s.base.threads.length := h.known k (by rw [hk]; exact fun e => by cases e)
    have hin : i ∈ accepted (wholes (es ++ [.proceed k])) := by
      rw [accepted_outside rfl]
      exact haccepted
    have hproceeds (k' : Nat) (e : ThreadedEvent.proceedsIn k' (.proceed k) = true) : k' = k :=
      (beq_iff_eq.mp e).symm
    have hmoves (job : Option Job) (c' : Connection) (crashed : Bool)
        (hjob : job = none ∨ ∃ loop, job = some (.processing i loop))
        (halone : ThreadedAlone env cors transport (es ++ [.proceed k])
          (Function.update s.inside k job) i c') :=
      Threaded.moved job h hc hnot rfl rfl (fun _ _ => rfl) hproceeds (Or.inr ⟨loop, hk⟩) hjob hk'
        halone crashed
    have hcount : proceeds k (after ++ [.proceed k]) = proceeds k after + 1 := by
      have hown : ThreadedEvent.proceedsIn k (.proceed k) = true := beq_iff_eq.mpr rfl
      rw [proceeds_snoc, if_pos hown]
    -- the loop goes on, with the calls it has made then
    have hgoesOn (loop' : RequestLoop WebService) (c' : Connection)
        (hstands : loop'.Stands (registered before).consulted
          (RequestURIParserService.parse p.request).1)
        (hless : loop'.remaining < loop.remaining)
        (hfunctions : ∀ call ∈ loop'.calls, call.reply =
          call.webService (RequestURIParserService.parse p.request).1)
        (hc' : c' = c₀.midRead data p verdict ((List.range loop'.calls.length).map
          (⟨·, (RequestURIParserService.parse p.request).1⟩))) :
        ThreadedAlone env cors transport (es ++ [.proceed k])
          (Function.update s.inside k (some (.processing i loop'))) i c' := by
      refine .processing hin (hverdict.snoc _) hrun hreads ?_ ?_ ⟨hstands, hfunctions, ?_⟩ hc'
      · exact (completionsOf_unrelated rfl after).trans hafter
      · intro k' loop''
        by_cases hkk : k' = k
        · subst hkk
          rw [Function.update_self]
          exact ⟨fun e => ⟨rfl, by cases e; rfl⟩, fun e => by rw [e.2]⟩
        · rw [Function.update_of_ne hkk]
          exact ⟨fun e => absurd ((hinside k' loop'').mp e).1 hkk, fun e => absurd e.1 hkk⟩
      · have hbounded := hloop.bounded
        rw [hcount]
        omega
    unfold ThreadedServer.proceedRead at hstep
    cases hphase : loop.phase with
    | asking index =>
      rw [hphase] at hstep
      obtain ⟨loop', hloop', rfl⟩ := Option.map_eq_some_iff.mp hstep
      have hcalls := RequestLoop.getWebService_calls hloop'
      obtain ⟨hstands, hless⟩ := hloop.stands.getWebService
        (by rw [h.mgr, hverdict.split]; exact (consulted_front _).trans (registered_front _ _))
        hloop'
      have hmoved := hmoves _ c s.base.crashed (Or.inr ⟨loop', rfl⟩)
        (hgoesOn loop' c hstands hless (by rw [hcalls]; exact hloop.functions)
          (by rw [hcalls]; exact hstate))
      have hset : s.base.connections.set i c = s.base.connections := by
        obtain ⟨hlt, hget⟩ := List.getElem?_eq_some_iff.mp hc
        rw [← hget]
        exact List.set_getElem_self hlt
      rw [hset] at hmoved
      exact hmoved
    | calling index webService =>
      rw [hphase] at hstep
      obtain ⟨loop', hloop', rfl⟩ := Option.map_eq_some_iff.mp hstep
      have hcalls := RequestLoop.process_calls hphase hloop'
      have hindex := hloop.stands.calling hphase
      have hrequest : loop.request = (RequestURIParserService.parse p.request).1 := hloop.stands.own
      obtain ⟨hstands, hless⟩ := hloop.stands.process hloop'
      refine hmoves _ (c.process index) s.base.crashed (Or.inr ⟨loop', rfl⟩)
        (hgoesOn loop' _ hstands hless (fun call hcall => ?_) ?_)
      · rw [hcalls] at hcall
        rcases List.mem_append.mp hcall with hcall | hcall
        · exact hloop.functions call hcall
        · rw [List.mem_singleton.mp hcall, ← hrequest]
      · rw [hstate, midRead_process, hcalls, List.length_append, List.length_singleton,
          List.range_succ, List.map_append, hindex]
        rfl
    | returned reply =>
      have hresult : LoopResult (registered before).consulted
          (RequestURIParserService.parse p.request).1 loop.calls reply := by
        have hstage := hloop.stands.stage
        rw [hphase] at hstage
        cases hstage with
        | returned _ hresult => exact hresult
      obtain ⟨reply, rfl⟩ := hresult.exists_reply
      rw [hphase] at hstep
      obtain ⟨hreply, hcalls⟩ := hresult.processRequest hloop.functions
      have hprocess : processRequest (registered before).consulted
          (RequestURIParserService.parse p.request).1 = ((List.range loop.calls.length).map
            (⟨·, (RequestURIParserService.parse p.request).1⟩), reply) := by
        rw [← hcalls, Option.some.inj hreply]
      have hend : c.afterProcess env cors reply =
          c₀.handle ⟨env, (registered before).consulted, cors⟩ transport (.read data) := by
        rw [handle_read, hstate]
        exact midRead_afterProcess hfeed hprocess
      rw [← Option.some.inj hstep]
      refine hmoves none (c.afterProcess env cors reply) _ (Or.inl rfl) ?_
      refine .answered hin (fun k' loop' e => ?_) (hverdict.snoc _) ?_
      · by_cases hkk : k' = k
        · rw [hkk, Function.update_self] at e
          cases e
        · rw [Function.update_of_ne hkk] at e
          exact hkk ((hinside k' loop').mp e).1
      · have hown : completionsOf i (wholes (es ++ [.proceed k])) =
            completionsOf i (wholes (before ++ [.complete k i (.read data)])) := by
          rw [completionsOf_unrelated rfl, hverdict.completions, hafter, wholes_append,
            completionsOf_append]
          simp [completionsOf, wholes, ThreadedEvent.whole, Event.completionOf]
        rw [OwnRun, hown, hend]
        exact (hrun _).snoc hreads
    | undefined =>
      rw [hphase] at hstep
      cases hstep

/-! ## 3. Every event, every run -/

/-- **Every event keeps the invariant.** -/
theorem threaded_step {configuration : Configuration} {es : List ThreadedEvent}
    {s s' : ThreadedServer} {e : ThreadedEvent} (h : Threaded env cors transport es s)
    (hstep : s.step configuration env cors transport e = some s') :
    Threaded env cors transport (es ++ [e]) s' := by
  cases (threadedStep_cases hstep).2 with
  | registerWebService webService => exact threaded_register webService h
  | start os => exact threaded_start os h
  | createThread os i => exact threaded_createThread os i h
  | stop =>
    have he : ThreadedEvent.Outside .stop := ⟨rfl, fun _ => rfl, fun _ => rfl⟩
    refine h.frame he ?_ rfl rfl rfl rfl id le_rfl
    rw [registered_other rfl]
    exact h.mgr
  | join => exact threaded_join h
  | accept k i failed hidle hi => exact threaded_accept failed h hidle hi
  | complete k i completion c hidle hc hop => exact threaded_complete h hidle hc hop
  | proceedAccept k hk => exact threaded_proceedAccept h hk
  | proceedRead k i loop c _ hk hc hproceed => exact threaded_proceedRead h hk hc hproceed

/-- **The invariant holds after every run.** -/
theorem threaded_run {configuration : Configuration} {es : List ThreadedEvent} {s : ThreadedServer}
    (hrun : Run (ThreadedServer.step configuration env cors transport) .new es s) :
    Threaded env cors transport es s :=
  Run.history (fun _ _ _ _ h hstep => threaded_step h hstep) (threaded_new env cors transport) hrun

/-- No connection is in two threads. -/
theorem ThreadedAlone.oneThread {es : List ThreadedEvent} {inside : Nat → Option Job} {i : Nat}
    {c : Connection} (h : ThreadedAlone env cors transport es inside i c) {k k' : Nat}
    {loop loop' : RequestLoop WebService} (hk : inside k = some (.processing i loop))
    (hk' : inside k' = some (.processing i loop')) : k' = k := by
  cases h with
  | built _ _ hfree => exact absurd hk (hfree k loop)
  | waiting _ hfree => exact absurd hk (hfree k loop)
  | answered _ hfree => exact absurd hk (hfree k loop)
  | processing _ _ _ _ _ hinside =>
    rw [((hinside k' loop').mp hk').1, ((hinside k loop).mp hk).1]

theorem OwnRun.startedOnce {webServices : List WebService} {es : List ThreadedEvent} {i : Nat}
    {c : Connection} (h : OwnRun env cors transport webServices es i c) : StartedOnce c.log :=
  Run.invariant (fun _ _ _ hs hstep => startedOnce_complete hs hstep)
    (startedOnce_start transport) h

/-- An accepted connection was started once. -/
theorem ThreadedAlone.startedOnce {es : List ThreadedEvent} {inside : Nat → Option Job} {i : Nat}
    {c : Connection} (h : ThreadedAlone env cors transport es inside i c)
    (haccepted : i ∈ accepted (wholes es)) : StartedOnce c.log := by
  cases h with
  | built hnot => exact absurd haccepted hnot
  | waiting _ _ _ hrun => exact (hrun []).startedOnce
  | answered _ _ _ hrun => exact hrun.startedOnce
  | processing _ _ hrun _ _ _ _ hstate =>
    rw [hstate]
    exact (hrun []).startedOnce.append (by simp)

/-- What an accepted connection that no thread is inside of has written: the answer of the services
    counted at its verdict to the bytes received, or nothing yet. -/
def AnsweredByCounted (env : External) (cors : CORSConfiguration) (es : List ThreadedEvent)
    (i : Nat) (writes : List Bytes) : Prop :=
  (served ⟨env, [], cors⟩ (received (completionsOf i (wholes es))) = none ∧ writes = []) ∨
    ∃ before k data after p verdict, VerdictAt env es i before k data after p verdict ∧
      writes = (answer ⟨env, (registered before).consulted, cors⟩ p.request).buffer.toList

theorem ThreadedAlone.writes {es : List ThreadedEvent} {inside : Nat → Option Job} {i : Nat}
    {c : Connection} (h : ThreadedAlone env cors transport es inside i c)
    (haccepted : i ∈ accepted (wholes es)) (hfree : Free inside i) :
    AnsweredByCounted env cors es i (writesOf c.log) := by
  cases h with
  | built hnot => exact absurd haccepted hnot
  | waiting _ _ hverdict hrun =>
    obtain ⟨hparse, -⟩ := waiting_parse hverdict hrun
    have hnone : served ⟨env, [], cors⟩ (received (completionsOf i (wholes es))) = none :=
      served_none hparse
    have hwrites := (serving_run transport (hrun [])).observed.2
    rw [hnone] at hwrites
    exact Or.inl ⟨hnone, hwrites⟩
  | @processing before k data after p verdict c₀ loop _ _ _ _ _ hinside =>
    exact absurd ((hinside k loop).mpr ⟨rfl, rfl⟩) (hfree k loop)
  | @answered before k data after p verdict _ _ hverdict hrun =>
    refine Or.inr ⟨before, k, data, after, p, verdict, hverdict, ?_⟩
    have hwrites := (serving_run transport hrun).observed.2
    rw [served_some hverdict.received] at hwrites
    exact hwrites

variable (configuration : Configuration) (env cors transport) in
/-- **Threads are invisible**, over every interleaving of handlers, registrations and calls. No
    connection is in two threads, at most one accept is under way or in a thread, and none is
    accepted twice. Each connection stands as it does alone; an accepted one was started once, and
    while no thread is inside of it, what it has written is the answer of the web services that
    were counted when its verdict came, or nothing yet. -/
theorem threads_invisible {es : List ThreadedEvent} {s : ThreadedServer}
    (hrun : Run (ThreadedServer.step configuration env cors transport) .new es s) :
    (∀ i k k' loop loop', s.inside k = some (.processing i loop) →
      s.inside k' = some (.processing i loop') → k' = k) ∧
    AcceptStage es s ∧ (accepted (wholes es)).Nodup ∧
    (∀ i c, s.base.connections[i]? = some c → ThreadedAlone env cors transport es s.inside i c) ∧
    ∀ i ∈ accepted (wholes es), ∃ c, s.base.connections[i]? = some c ∧ StartedOnce c.log ∧
      (Free s.inside i → AnsweredByCounted env cors es i (writesOf c.log)) := by
  have h := threaded_run hrun
  refine ⟨fun i k k' loop loop' hk hk' => ?_, h.accept, h.once, h.alone, fun i hi => ?_⟩
  · cases hc : s.base.connections[i]? with
    | none => exact absurd hk ((h.absent i hc).2.2 k loop)
    | some c => exact (h.alone i c hc).oneThread hk hk'
  · cases hc : s.base.connections[i]? with
    | none => exact absurd hi (h.absent i hc).1
    | some c =>
      have halone := h.alone i c hc
      exact ⟨c, rfl, halone.startedOnce hi, halone.writes hi⟩

/-- Where all threads have come back no connection is in one. -/
theorem Threaded.free_of_allOutside {es : List ThreadedEvent} {s : ThreadedServer}
    (h : Threaded env cors transport es s) (hall : s.allOutside = true) (i : Nat) :
    Free s.inside i := by
  intro k loop hk
  have hlt := h.known k (by rw [hk]; exact fun e => by cases e)
  have hnone := List.all_eq_true.mp hall k (List.mem_range.mpr hlt)
  rw [hk] at hnone
  cases hnone

end Concurrency

/-! ## 4. Two handlers at once -/

/-- The second connection is answered, with the service that was registered while the handler of the
    first was inside `processRequest`. -/
theorem threads_invisible_two :
    let data : ReadData := ⟨ascii "GET /a HTTP/1.0\r\n\r\n", by decide, by decide⟩
    let es : List ThreadedEvent :=
      [.start .good, .createThread, .createThread, .createThread, .accept 0 0 false, .proceed 0,
        .accept 1 1 false, .complete 0 0 (.read data), .proceed 1,
        .registerWebService fun request => some { Reply.ofStatus .ok with content := request.uri },
        .complete 1 1 (.read data), .proceed 1, .proceed 1, .proceed 1, .proceed 0]
    ∃ s c c', Run (ThreadedServer.step { Configuration.oneThread with threadPoolSize := 2 }
        .reference .off .plain) .new es s ∧
      s.base.connections[0]? = some c ∧ AnsweredByCounted .reference .off es 0 (writesOf c.log) ∧
      s.base.connections[1]? = some c' ∧ AnsweredByCounted .reference .off es 1 (writesOf c'.log) := by
  intro data es
  have hend : (es.foldlM (ThreadedServer.step { Configuration.oneThread with threadPoolSize := 2 }
      .reference .off .plain) .new).any (·.allOutside) = true := by decide +kernel
  obtain ⟨s, hrun, hall⟩ := (Option.any_eq_true _ _).mp hend
  have hfree := (threaded_run hrun).free_of_allOutside hall
  obtain ⟨-, -, -, -, hserved⟩ := threads_invisible .reference .off .plain _ hrun
  obtain ⟨c, hc, -, hanswered⟩ := hserved 0 (by simp [es, accepted, wholes, ThreadedEvent.whole,
    Event.accepted])
  obtain ⟨c', hc', -, hanswered'⟩ := hserved 1 (by simp [es, accepted, wholes, ThreadedEvent.whole,
    Event.accepted])
  exact ⟨s, c, c', hrun, hc, hanswered (hfree 0), hc', hanswered' (hfree 1)⟩

end BoostAsioWebServer
