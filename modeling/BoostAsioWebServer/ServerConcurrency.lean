/-
  File:      BoostAsioWebServer/ServerConcurrency.lean
  Subject:   THE INVARIANT OF A SERVER WITH MANY THREADS: it answers as one that runs its handlers
             one at a time.

  * `ThreadedAlone`: where a connection stands by its own completions: as built; waiting, in a state
    that no registry has a part in; inside `processRequest` in one thread; or answered, as a
    connection whose handlers run whole and whose web services are those counted at the completion
    that brought the verdict;
  * `Threaded`: the invariant of the whole server. No connection is in two threads, at most one
    accept is under way or in a thread, and each connection stands as `ThreadedAlone` says;
  * `threaded_start`, `threaded_join`, `threaded_accept`, `threaded_proceedAccept`, ...: the calls
    and the handler of an accept keep it. The handlers of a connection are in
    ServerInterleaving.lean.
-/
import BoostAsioWebServer.ServerThreads
import BoostAsioWebServer.ServerIsolation

namespace BoostAsioWebServer

open ByteText Feed Runs

/-! ## 1. What the events say -/

/-- The event as one of a server whose handlers run whole, at the place where the handler begins. -/
def ThreadedEvent.whole : ThreadedEvent → Option Event
  | .start os => some (.start os)
  | .stop => some .stop
  | .accept _ index failed => some (.accept index failed)
  | .complete _ index completion => some (.complete index completion)
  | _ => none

/-- The events as those of a server whose handlers run whole. -/
def wholes (es : List ThreadedEvent) : List Event := es.filterMap ThreadedEvent.whole

/-- The web service an event registers. -/
def ThreadedEvent.registers : ThreadedEvent → Option WebService
  | .registerWebService webService => some webService
  | _ => none

/-- The registry after the events. -/
def registered (es : List ThreadedEvent) : WebServicesMgr WebService :=
  ⟨es.filterMap ThreadedEvent.registers⟩

/-- The event is the next access of the thread at `k`. -/
def ThreadedEvent.proceedsIn (k : Nat) : ThreadedEvent → Bool
  | .proceed k' => k' == k
  | _ => false

/-- How many accesses the thread at `k` makes. -/
def proceeds (k : Nat) (es : List ThreadedEvent) : Nat := es.countP (ThreadedEvent.proceedsIn k)

@[simp] theorem wholes_append (es fs : List ThreadedEvent) :
    wholes (es ++ fs) = wholes es ++ wholes fs :=
  List.filterMap_append

theorem completionsOf_append (i : Nat) (es fs : List Event) :
    completionsOf i (es ++ fs) = completionsOf i es ++ completionsOf i fs :=
  List.filterMap_append

theorem accepted_append (es fs : List Event) : accepted (es ++ fs) = accepted es ++ accepted fs :=
  List.filterMap_append

theorem registered_append_mgr (es : List ThreadedEvent) (e : ThreadedEvent) :
    (registered (es ++ [e])).webServices =
      (registered es).webServices ++ e.registers.toList := by
  show List.filterMap _ (es ++ [e]) = List.filterMap _ es ++ _
  rw [List.filterMap_append]
  cases h : e.registers with
  | none => simp [h]
  | some webService => simp [h]

theorem proceeds_snoc (k : Nat) (es : List ThreadedEvent) (e : ThreadedEvent) :
    proceeds k (es ++ [e]) = proceeds k es + if e.proceedsIn k then 1 else 0 := by
  unfold proceeds
  rw [List.countP_append, List.countP_singleton]

/-- The registry of some events is a front part of the one after more of them. -/
theorem registered_front (es fs : List ThreadedEvent) :
    (registered es).webServices <+: (registered (es ++ fs)).webServices := by
  show _ <+: List.filterMap _ (es ++ fs)
  rw [List.filterMap_append]
  exact List.prefix_append _ _

/-! ## 2. The invariant -/

section Concurrency

variable (env : External) (cors : CORSConfiguration) (transport : Transport)

/-- No thread is inside `handleRead` of the connection at `i`. -/
def Free (inside : Nat → Option Job) (i : Nat) : Prop :=
  ∀ k loop, inside k ≠ some (.processing i loop)

/-- No thread is inside `handleAccept`. -/
def NoneAccepting (inside : Nat → Option Job) : Prop := ∀ k, inside k ≠ some .accepting

/-- **The completion that brought the verdict** on the connection at `i`, in the thread at `k`: the
    bytes before it have none, and with its bytes the parser says `verdict`. -/
structure VerdictAt (es : List ThreadedEvent) (i : Nat) (before : List ThreadedEvent) (k : Nat)
    (data : ReadData) (after : List ThreadedEvent) (p : Parse) (verdict : Bool) : Prop where
  split : es = before ++ .complete k i (.read data) :: after
  waits : (feed (consume env.lexicalCast) .fresh (received (completionsOf i (wholes before)))).2 =
    none
  brings : feed (consume env.lexicalCast) .fresh
    (received (completionsOf i (wholes before)) ++ data.bytes) = (p, some verdict)

/-- The connection at `i` moved by its own completions, with some web services. -/
def OwnRun (webServices : List WebService) (es : List ThreadedEvent) (i : Nat) (c : Connection) :
    Prop :=
  Run (Connection.complete ⟨env, webServices, cors⟩ transport) (transport.start .built)
    (completionsOf i (wholes es)) c

/-- A thread inside `processRequest` for the request `p` holds: where the loop stands, the calls
    made, and how many accesses are left. -/
structure InsideLoop (before : List ThreadedEvent) (k : Nat) (after : List ThreadedEvent)
    (request : Request) (loop : RequestLoop WebService) : Prop where
  stands : loop.Stands (registered before).consulted request
  functions : ∀ call ∈ loop.calls, call.reply = call.webService request
  bounded : proceeds k after + loop.remaining ≤ 2 * (registered before).consulted.length

/-- **A connection on its own**, by its completions. The web services that answered it are those
    counted at the completion that brought the verdict. -/
inductive ThreadedAlone (es : List ThreadedEvent) (inside : Nat → Option Job) (i : Nat)
    (c : Connection) : Prop where
  | built (haccepted : i ∉ accepted (wholes es)) (hown : completionsOf i (wholes es) = [])
      (hfree : Free inside i) (hbuilt : c = .built)
  | waiting (haccepted : i ∈ accepted (wholes es)) (hfree : Free inside i)
      (hverdict : (feed (consume env.lexicalCast) .fresh
        (received (completionsOf i (wholes es)))).2 = none)
      (hrun : ∀ webServices, OwnRun env cors transport webServices es i c)
  | processing {before : List ThreadedEvent} {k : Nat} {data : ReadData}
      {after : List ThreadedEvent} {p : Parse} {verdict : Bool} {c₀ : Connection}
      {loop : RequestLoop WebService} (haccepted : i ∈ accepted (wholes es))
      (hverdict : VerdictAt env es i before k data after p verdict)
      (hrun : ∀ webServices, OwnRun env cors transport webServices before i c₀)
      (hreads : c₀.pending = some .read) (hafter : completionsOf i (wholes after) = [])
      (hinside : ∀ k' loop', inside k' = some (.processing i loop') ↔ k' = k ∧ loop' = loop)
      (hloop : InsideLoop before k after (RequestURIParserService.parse p.request).1 loop)
      (hstate : c = c₀.midRead data p verdict ((List.range loop.calls.length).map
        (⟨·, (RequestURIParserService.parse p.request).1⟩)))
  | answered {before : List ThreadedEvent} {k : Nat} {data : ReadData}
      {after : List ThreadedEvent} {p : Parse} {verdict : Bool}
      (haccepted : i ∈ accepted (wholes es)) (hfree : Free inside i)
      (hverdict : VerdictAt env es i before k data after p verdict)
      (hrun : OwnRun env cors transport (registered before).consulted es i c)

/-- Where the one accept is: nowhere, under way with its connection in the slot, or in a thread. -/
inductive AcceptStage (es : List ThreadedEvent) (s : ThreadedServer) : Prop where
  | none (hpending : s.base.pendingAccepts = []) (hinside : NoneAccepting s.inside)
  | pending {i : Nat} (hwaiting : Waiting (wholes es) s.base i) (hinside : NoneAccepting s.inside)
  | inside {k : Nat} (hpending : s.base.pendingAccepts = [])
      (hinside : ∀ k', s.inside k' = some .accepting ↔ k' = k)

/-- **The invariant**: at most one accept, and none before the acceptor is open; each connection is
    what it is on its own; none is accepted twice; no event and no thread is about a connection that
    does not exist; what is inside a handler is a thread of the pool. -/
structure Threaded (es : List ThreadedEvent) (s : ThreadedServer) : Prop where
  mgr : s.mgr = registered es
  accept : AcceptStage es s
  closed : s.base.acceptor = .closed → s.base.pendingAccepts = [] ∧ NoneAccepting s.inside
  alone : ∀ i c, s.base.connections[i]? = some c →
    ThreadedAlone env cors transport es s.inside i c
  once : (accepted (wholes es)).Nodup
  absent : ∀ i, s.base.connections[i]? = none →
    i ∉ accepted (wholes es) ∧ completionsOf i (wholes es) = [] ∧ Free s.inside i
  known : ∀ k, s.inside k ≠ none → k < s.base.threads.length

theorem threaded_new : Threaded env cors transport [] .new where
  mgr := rfl
  accept := .none rfl fun _ h => by cases h
  closed _ := ⟨rfl, fun _ h => by cases h⟩
  alone i c h := by cases h
  once := List.nodup_nil
  absent i _ := ⟨List.not_mem_nil, rfl, fun _ _ h => by cases h⟩
  known k h := absurd rfl h

variable {env cors transport}

/-! ## 3. The parts of a step -/

theorem VerdictAt.snoc {es before after : List ThreadedEvent} {i k : Nat} {data : ReadData}
    {p : Parse} {verdict : Bool} (h : VerdictAt env es i before k data after p verdict)
    (e : ThreadedEvent) :
    VerdictAt env (es ++ [e]) i before k data (after ++ [e]) p verdict where
  split := by rw [h.split, List.append_assoc, List.cons_append]
  waits := h.waits
  brings := h.brings

/-- An event that is not about the connection at `i` and not of the thread inside it. -/
structure Unrelated (e : ThreadedEvent) (inside inside' : Nat → Option Job) (i : Nat) : Prop where
  accepted : i ∉ accepted (wholes [e])
  completions : completionsOf i (wholes [e]) = []
  threads : ∀ k loop, inside' k = some (.processing i loop) ↔ inside k = some (.processing i loop)
  other : ∀ k loop, inside k = some (.processing i loop) → e.proceedsIn k = false

theorem completionsOf_unrelated {e : ThreadedEvent} {i : Nat}
    (h : completionsOf i (wholes [e]) = []) (es : List ThreadedEvent) :
    completionsOf i (wholes (es ++ [e])) = completionsOf i (wholes es) := by
  rw [wholes_append, completionsOf_append, h, List.append_nil]

/-- **An unrelated event leaves a connection as it stands.** -/
theorem ThreadedAlone.frame {es : List ThreadedEvent} {e : ThreadedEvent}
    {inside inside' : Nat → Option Job} {i : Nat} {c : Connection}
    (h : ThreadedAlone env cors transport es inside i c) (he : Unrelated e inside inside' i) :
    ThreadedAlone env cors transport (es ++ [e]) inside' i c := by
  have haccepted : i ∈ accepted (wholes (es ++ [e])) ↔ i ∈ accepted (wholes es) := by
    rw [wholes_append, accepted_append, List.mem_append]
    exact or_iff_left he.accepted
  have hown := completionsOf_unrelated he.completions es
  have hfree (hfree : Free inside i) : Free inside' i := fun k loop hk =>
    hfree k loop ((he.threads k loop).mp hk)
  have hmoved {ws : List WebService} (hrun : OwnRun env cors transport ws es i c) :
      OwnRun env cors transport ws (es ++ [e]) i c := by
    unfold OwnRun
    rw [hown]
    exact hrun
  cases h with
  | built hnot hnone hf hbuilt =>
    exact .built (fun hin => hnot (haccepted.mp hin)) (hown.trans hnone) (hfree hf) hbuilt
  | waiting hin hf hverdict hrun =>
    exact .waiting (haccepted.mpr hin) (hfree hf) (by rw [hown]; exact hverdict)
      fun ws => hmoved (hrun ws)
  | @processing before k data after p verdict c₀ loop hin hverdict hrun hreads hafter hinside hloop
      hstate =>
    have hk : inside k = some (.processing i loop) := (hinside k loop).mpr ⟨rfl, rfl⟩
    refine .processing (haccepted.mpr hin) (hverdict.snoc e) hrun hreads ?_ ?_ ?_ hstate
    · exact (completionsOf_unrelated he.completions after).trans hafter
    · exact fun k' loop' => (he.threads k' loop').trans (hinside k' loop')
    · refine ⟨hloop.stands, hloop.functions, ?_⟩
      rw [proceeds_snoc, if_neg (by rw [he.other k loop hk]; exact Bool.false_ne_true)]
      exact hloop.bounded
  | answered hin hf hverdict hrun =>
    exact .answered (haccepted.mpr hin) (hfree hf) (hverdict.snoc e) (hmoved hrun)

/-- An event that accepts nothing, completes nothing and is no access of a thread. -/
structure ThreadedEvent.Outside (e : ThreadedEvent) : Prop where
  accepted : accepted (wholes [e]) = []
  completions : ∀ i, completionsOf i (wholes [e]) = []
  proceeds : ∀ k, e.proceedsIn k = false

theorem accepted_outside {e : ThreadedEvent} (h : accepted (wholes [e]) = [])
    (es : List ThreadedEvent) : accepted (wholes (es ++ [e])) = accepted (wholes es) := by
  rw [wholes_append, accepted_append, h, List.append_nil]

/-- The registry is the one of the events, whatever else an event does. -/
theorem registered_other {e : ThreadedEvent} (h : e.registers = none) (es : List ThreadedEvent) :
    registered (es ++ [e]) = registered es := by
  have hsame := registered_append_mgr es e
  rw [h, Option.toList_none, List.append_nil] at hsame
  exact congrArg WebServicesMgr.mk hsame

/-- An accept that is under way stays so, as long as the slot and its connection do. -/
theorem Waiting.congr {es es' : List Event} {s s' : BaseServer} {i : Nat} (h : Waiting es s i)
    (hpending : s'.pendingAccepts = s.pendingAccepts) (hslot : s'.newConnection = s.newConnection)
    (hconnection : s'.connections[i]? = s.connections[i]?)
    (haccepted : i ∈ accepted es' → i ∈ accepted es) : Waiting es' s' i :=
  ⟨hpending ▸ h.pending, hslot ▸ h.slot, hconnection.trans h.built, fun hin =>
    h.fresh (haccepted hin)⟩

/-- What an outside event leaves alone. -/
theorem Threaded.frame {es : List ThreadedEvent} {e : ThreadedEvent} {s s' : ThreadedServer}
    (h : Threaded env cors transport es s) (he : e.Outside) (hmgr : s'.mgr = registered (es ++ [e]))
    (hinside : s'.inside = s.inside) (hconnections : s'.base.connections = s.base.connections)
    (hpending : s'.base.pendingAccepts = s.base.pendingAccepts)
    (hslot : s'.base.newConnection = s.base.newConnection)
    (hacceptor : s'.base.acceptor = .closed → s.base.acceptor = .closed)
    (hthreads : s.base.threads.length ≤ s'.base.threads.length) :
    Threaded env cors transport (es ++ [e]) s' := by
  have hes := accepted_outside he.accepted es
  refine ⟨hmgr, ?_, fun hclosed => ?_, fun i c hc => ?_, ?_, fun i hi => ?_, fun k hk => ?_⟩
  · cases h.accept with
    | none hnone hin => exact .none (hpending.trans hnone) (hinside ▸ hin)
    | pending hwaiting hin =>
      refine .pending (hwaiting.congr hpending hslot (by rw [hconnections]) ?_) (hinside ▸ hin)
      rw [hes]
      exact id
    | inside hnone hin => exact .inside (hpending.trans hnone) (hinside ▸ hin)
  · rw [hpending, hinside]
    exact h.closed (hacceptor hclosed)
  · rw [hconnections] at hc
    refine (h.alone i c hc).frame ⟨?_, he.completions i, fun k loop => by rw [hinside],
      fun k _ _ => he.proceeds k⟩
    rw [he.accepted]
    exact List.not_mem_nil
  · rw [hes]
    exact h.once
  · rw [hconnections] at hi
    rw [hes, completionsOf_unrelated (he.completions i), hinside]
    exact h.absent i hi
  · rw [hinside] at hk
    exact (h.known k hk).trans_le hthreads

/-- A new accept, with a new connection in the slot, where none is under way or in a thread. -/
theorem Threaded.startAcceptor {es : List ThreadedEvent} {s : ThreadedServer}
    (h : Threaded env cors transport es s) (hpending : s.base.pendingAccepts = [])
    (hinside : NoneAccepting s.inside) (hacceptor : s.base.acceptor ≠ .closed) :
    Threaded env cors transport es { s with base := s.base.startAcceptor } := by
  have hend : s.base.connections[s.base.connections.length]? = none :=
    List.getElem?_eq_none le_rfl
  obtain ⟨hfresh, hnone, hfree⟩ := h.absent _ hend
  have hnew : s.base.startAcceptor.connections[s.base.connections.length]? = some .built :=
    List.getElem?_concat_length
  have hone : s.base.startAcceptor.pendingAccepts = [s.base.connections.length] := by
    show s.base.pendingAccepts ++ [s.base.connections.length] = _
    rw [hpending]
    rfl
  refine ⟨h.mgr, .pending ⟨hone, rfl, hnew, hfresh⟩ hinside, fun hclosed => ?_, fun i c hc => ?_,
    h.once, fun i hi => ?_, h.known⟩
  · exact absurd hclosed hacceptor
  · by_cases hi : i = s.base.connections.length
    · rw [hi, hnew] at hc
      rw [hi, ← Option.some.inj hc]
      exact .built hfresh hnone hfree rfl
    · refine h.alone i c ?_
      have hlt : i < s.base.connections.length := by
        have hlen : i < (s.base.connections ++ [Connection.built]).length :=
          (List.getElem?_eq_some_iff.mp hc).1
        rw [List.length_append, List.length_singleton] at hlen
        omega
      rw [← hc]
      exact (List.getElem?_append_left hlt).symm
  · refine h.absent i (List.getElem?_eq_none ?_)
    have hlen : (s.base.connections ++ [Connection.built]).length ≤ i :=
      List.getElem?_eq_none_iff.mp hi
    rw [List.length_append] at hlen
    omega

/-- **One connection changes**: it stands as it does alone, and the event is unrelated to the
    others. -/
theorem Threaded.replace {es : List ThreadedEvent} {e : ThreadedEvent} {s : ThreadedServer}
    {i : Nat} {c' : Connection} {connections : List Connection} {inside : Nat → Option Job}
    (h : Threaded env cors transport es s) (hself : connections[i]? = some c')
    (hothers : ∀ j, i ≠ j → connections[j]? = s.base.connections[j]?)
    (halone : ThreadedAlone env cors transport (es ++ [e]) inside i c')
    (he : ∀ j, i ≠ j → Unrelated e s.inside inside j) :
    (∀ j c, connections[j]? = some c → ThreadedAlone env cors transport (es ++ [e]) inside j c) ∧
      ∀ j, connections[j]? = none →
        j ∉ accepted (wholes (es ++ [e])) ∧ completionsOf j (wholes (es ++ [e])) = [] ∧
          Free inside j := by
  refine ⟨fun j c hc => ?_, fun j hj => ?_⟩
  · by_cases hij : i = j
    · subst hij
      rw [hself] at hc
      exact Option.some.inj hc ▸ halone
    · rw [hothers j hij] at hc
      exact (h.alone j c hc).frame (he j hij)
  · have hij : i ≠ j := by
      intro e
      subst e
      rw [hself] at hj
      cases hj
    rw [hothers j hij] at hj
    obtain ⟨hnot, hnone, hfree⟩ := h.absent j hj
    have hje := he j hij
    refine ⟨fun hin => ?_, (completionsOf_unrelated hje.completions es).trans hnone, ?_⟩
    · rw [wholes_append, accepted_append] at hin
      exact (List.mem_append.mp hin).elim hnot hje.accepted
    · exact fun k loop hk => hfree k loop ((hje.threads k loop).mp hk)

/-! ## 4. The calls -/

theorem joinAll_length (ts : List Thread) : (joinAll ts).1.length = ts.length := by
  induction ts with
  | nil => rfl
  | cons t ts ih =>
    unfold joinAll
    split
    · rw [List.length_cons, List.length_cons, ih]
    · rfl

/-- `stop` keeps the number of threads. -/
theorem stop_length (s : BaseServer) : s.stop.1.threads.length = s.threads.length := by
  have hlength : (joinAll (s.threads.map Thread.leave)).1.length = s.threads.length := by
    rw [joinAll_length, List.length_map]
  unfold BaseServer.stop
  simp only
  split
  · exact hlength
  · exact hlength

/-- `stop` behind `io_service::stop`: the connections, the accepts and the acceptor are left alone,
    and no thread is added or taken away. -/
theorem threaded_join {es : List ThreadedEvent} {s : ThreadedServer}
    (h : Threaded env cors transport es s) :
    Threaded env cors transport (es ++ [.join]) { s with base := s.base.stop.1, call := .none } := by
  have he : ThreadedEvent.Outside .join := ⟨rfl, fun _ => rfl, fun _ => rfl⟩
  have hmgr : s.mgr = registered (es ++ [.join]) := by
    rw [registered_other rfl]
    exact h.mgr
  have hsame : s.base.stop.1.connections = s.base.connections ∧
      s.base.stop.1.pendingAccepts = s.base.pendingAccepts ∧
      s.base.stop.1.newConnection = s.base.newConnection := by
    unfold BaseServer.stop
    simp only
    split
    · exact ⟨rfl, rfl, rfl⟩
    · exact ⟨rfl, rfl, rfl⟩
  exact h.frame he hmgr rfl hsame.1 hsame.2.1 hsame.2.2 (fun hclosed => stop_acceptor s.base ▸ hclosed)
    (stop_length s.base).ge

theorem threaded_start {configuration : Configuration} {es : List ThreadedEvent}
    {s : ThreadedServer} (os : StartOutcomes) (h : Threaded env cors transport es s) :
    Threaded env cors transport (es ++ [.start os]) (s.start configuration os) := by
  have he : ThreadedEvent.Outside (.start os) := ⟨rfl, fun _ => rfl, fun _ => rfl⟩
  have hmgr : s.mgr = registered (es ++ [.start os]) := by
    rw [registered_other rfl]
    exact h.mgr
  unfold ThreadedServer.start
  rcases openAcceptor_cases configuration os s.base with
    ⟨endpoint, hopens, heq⟩ | ⟨-, heq⟩ | ⟨htouches, acceptor, hne, heq⟩
  · rw [heq]
    obtain ⟨hpending, hinside⟩ := h.closed hopens.closed
    have hopened : Threaded env cors transport (es ++ [.start os])
        { s with
          base := { s.base with acceptor := .listening endpoint, running := true }
          call := .starting os 0 } :=
      h.frame he hmgr rfl rfl rfl rfl (fun hclosed => by cases hclosed) le_rfl
    exact hopened.startAcceptor hpending hinside (by simp)
  · rw [heq]
    exact h.frame he hmgr rfl rfl rfl rfl id le_rfl
  · rw [heq]
    exact h.frame he hmgr rfl rfl rfl rfl (fun hclosed => absurd hclosed hne) le_rfl

theorem threaded_createThread {configuration : Configuration} {es : List ThreadedEvent}
    {s : ThreadedServer} (os : StartOutcomes) (i : Nat) (h : Threaded env cors transport es s) :
    Threaded env cors transport (es ++ [.createThread]) (s.createThread configuration os i) := by
  have he : ThreadedEvent.Outside .createThread := ⟨rfl, fun _ => rfl, fun _ => rfl⟩
  have hmgr : s.mgr = registered (es ++ [.createThread]) := by
    rw [registered_other rfl]
    exact h.mgr
  unfold ThreadedServer.createThread
  split
  · split
    · refine h.frame he hmgr rfl rfl rfl rfl id ?_
      rw [List.length_append]
      exact Nat.le_add_right _ _
    · exact h.frame he hmgr rfl rfl rfl rfl id le_rfl
  · exact h.frame he hmgr rfl rfl rfl rfl id le_rfl

theorem threaded_register {es : List ThreadedEvent} {s : ThreadedServer} (webService : WebService)
    (h : Threaded env cors transport es s) :
    Threaded env cors transport (es ++ [.registerWebService webService])
      { s with mgr := s.mgr.addWebService webService } := by
  have he : ThreadedEvent.Outside (.registerWebService webService) :=
    ⟨rfl, fun _ => rfl, fun _ => rfl⟩
  refine h.frame he ?_ rfl rfl rfl rfl id le_rfl
  show s.mgr.addWebService webService = _
  rw [h.mgr]
  exact congrArg WebServicesMgr.mk (registered_append_mgr es (.registerWebService webService)).symm

/-! ## 5. The handler of an accept -/

/-- A thread that begins a handler is inside none, and one of the pool. -/
theorem ThreadedServer.idle_iff {s : ThreadedServer} {k : Nat} (h : s.idle k = true) :
    s.inside k = none ∧ k < s.base.threads.length := by
  unfold ThreadedServer.idle at h
  rw [Bool.and_eq_true, Bool.and_eq_true] at h
  refine ⟨Option.isNone_iff_eq_none.mp h.2, ?_⟩
  obtain ⟨t, ht, -⟩ := (Option.any_eq_true _ _).mp h.1.2
  exact (List.getElem?_eq_some_iff.mp ht).1

/-- A thread that goes from one handler to another, neither of them a `handleRead` of the connection
    at `i`. -/
theorem update_processing {inside : Nat → Option Job} {k i : Nat} {job : Option Job}
    (hbefore : ∀ loop, inside k ≠ some (.processing i loop))
    (hafter : ∀ loop, job ≠ some (.processing i loop)) (k' : Nat)
    (loop : RequestLoop WebService) :
    Function.update inside k job k' = some (.processing i loop) ↔
      inside k' = some (.processing i loop) := by
  by_cases hk : k' = k
  · subst hk
    rw [Function.update_self]
    exact ⟨fun h => absurd h (hafter loop), fun h => absurd h (hbefore loop)⟩
  · rw [Function.update_of_ne hk]

/-- The threads in a handler after one has entered or left it are threads of the pool. -/
theorem Threaded.known_update {es : List ThreadedEvent} {s : ThreadedServer}
    (h : Threaded env cors transport es s) {k : Nat} (hk : k < s.base.threads.length)
    (job : Option Job) (k' : Nat) (hinside : Function.update s.inside k job k' ≠ none) :
    k' < s.base.threads.length := by
  by_cases hkk : k' = k
  · rw [hkk]
    exact hk
  · rw [Function.update_of_ne hkk] at hinside
    exact h.known k' hinside

/-- A thread that was inside nothing is now the one in `handleAccept`. -/
theorem accepting_update {inside : Nat → Option Job} (h : NoneAccepting inside) (k k' : Nat) :
    Function.update inside k (some .accepting) k' = some .accepting ↔ k' = k := by
  by_cases hk : k' = k
  · rw [hk, Function.update_self]
    exact ⟨fun _ => rfl, fun _ => rfl⟩
  · rw [Function.update_of_ne hk]
    exact ⟨fun h' => absurd h' (h k'), fun h' => absurd h' hk⟩

/-- Where an accept is handed to a thread it is the only one, and its connection is in the slot. -/
theorem Threaded.waiting {es : List ThreadedEvent} {s : ThreadedServer} {i : Nat}
    (h : Threaded env cors transport es s) (hi : i ∈ s.base.pendingAccepts) :
    Waiting (wholes es) s.base i ∧ NoneAccepting s.inside := by
  cases h.accept with
  | none hpending =>
    rw [hpending] at hi
    cases hi
  | @pending j hwaiting hinside =>
    have hmem := hi
    rw [hwaiting.pending, List.mem_singleton] at hmem
    exact hmem ▸ ⟨hwaiting, hinside⟩
  | inside hpending =>
    rw [hpending] at hi
    cases hi

/-- **The first part of `handleAccept`**: a successful accept starts the connection it was for. -/
theorem threaded_accept {es : List ThreadedEvent} {s : ThreadedServer} {k i : Nat} (failed : Bool)
    (h : Threaded env cors transport es s) (hidle : s.idle k = true)
    (hi : i ∈ s.base.pendingAccepts) :
    Threaded env cors transport (es ++ [.accept k i failed])
      (s.beginAccept transport k i failed) := by
  obtain ⟨hwaiting, hnone⟩ := h.waiting hi
  obtain ⟨hinside, hk⟩ := ThreadedServer.idle_iff hidle
  have hopen : s.base.acceptor ≠ .closed := by
    intro hclosed
    rw [(h.closed hclosed).1] at hi
    cases hi
  have herase : s.base.pendingAccepts.erase i = [] := by
    rw [hwaiting.pending]
    exact List.erase_cons_head i []
  have hmgr : s.mgr = registered (es ++ [.accept k i failed]) := by
    rw [registered_other rfl]
    exact h.mgr
  have hthreads (k' j : Nat) (loop : RequestLoop WebService) :=
    @update_processing s.inside k j (some .accepting)
      (fun loop => by rw [hinside]; exact fun e => by cases e) (fun _ e => by cases e) k' loop
  have hunrelated (j : Nat) (hj : j ∉ accepted (wholes [.accept k i failed])) :
      Unrelated (.accept k i failed) s.inside (Function.update s.inside k (some .accepting)) j :=
    ⟨hj, rfl, fun k' loop => hthreads k' j loop, fun _ _ _ => rfl⟩
  show Threaded env cors transport _ ⟨if !failed then { s.base with
    pendingAccepts := s.base.pendingAccepts.erase i }.startNewConnection transport else { s.base with
    pendingAccepts := s.base.pendingAccepts.erase i }, s.mgr,
    Function.update s.inside k (some .accepting), s.call⟩
  rw [herase]
  cases failed with
  | true =>
    have hnot (j : Nat) : j ∉ accepted (wholes [.accept k i true]) := List.not_mem_nil
    refine ⟨hmgr, .inside rfl (accepting_update hnone k), fun hclosed => absurd hclosed hopen,
      fun j c hc => (h.alone j c hc).frame (hunrelated j (hnot j)), ?_, fun j hj => ?_,
      h.known_update hk _⟩
    · rw [accepted_outside rfl]
      exact h.once
    · obtain ⟨hfresh, hown, hfree⟩ := h.absent j hj
      rw [accepted_outside rfl, completionsOf_unrelated rfl]
      exact ⟨hfresh, hown, fun k' loop e => hfree k' loop ((hthreads k' j loop).mp e)⟩
  | false =>
    have hstate : ({ s.base with pendingAccepts := [] } : BaseServer).startNewConnection transport =
        { s.base with
          pendingAccepts := []
          connections := s.base.connections.modify i transport.start } := by
      unfold BaseServer.startNewConnection
      simp only [hwaiting.slot]
    simp only [Bool.not_false, if_true, hstate]
    have hes : accepted (wholes (es ++ [.accept k i false])) = accepted (wholes es) ++ [i] := by
      rw [wholes_append, accepted_append]
      rfl
    have hself : (s.base.connections.modify i transport.start)[i]? =
        some (transport.start .built) := by
      rw [List.getElem?_modify_eq, hwaiting.built]
      rfl
    have hfresh : completionsOf i (wholes es) = [] ∧ Free s.inside i := by
      cases h.alone i .built hwaiting.built with
      | built _ hown hfree _ => exact ⟨hown, hfree⟩
      | waiting hin => exact absurd hin hwaiting.fresh
      | processing hin => exact absurd hin hwaiting.fresh
      | answered hin => exact absurd hin hwaiting.fresh
    have hown : completionsOf i (wholes (es ++ [.accept k i false])) = [] :=
      (completionsOf_unrelated rfl es).trans hfresh.1
    have halone : ThreadedAlone env cors transport (es ++ [.accept k i false])
        (Function.update s.inside k (some .accepting)) i (transport.start .built) := by
      refine .waiting (by rw [hes]; exact List.mem_append_right _ (List.mem_singleton.mpr rfl))
        (fun k' loop e => hfresh.2 k' loop ((hthreads k' i loop).mp e)) ?_ fun ws => ?_
      · rw [hown]
        rfl
      · rw [OwnRun, hown]
        exact Run.nil_iff.mpr rfl
    obtain ⟨hall, habsent⟩ := h.replace hself (fun j hij => List.getElem?_modify_ne _ _ hij) halone
      fun j hij => hunrelated j fun hj => hij (List.mem_singleton.mp hj).symm
    refine ⟨hmgr, .inside rfl (accepting_update hnone k), fun hclosed => absurd hclosed hopen,
      hall, ?_, habsent, h.known_update hk _⟩
    rw [hes]
    refine List.nodup_append.mpr ⟨h.once, List.nodup_singleton i, fun a ha b hb e => ?_⟩
    rw [e, List.mem_singleton.mp hb] at ha
    exact hwaiting.fresh ha

/-- **The second part of `handleAccept`**: the next accept, while the server is running. -/
theorem threaded_proceedAccept {es : List ThreadedEvent} {s : ThreadedServer} {k : Nat}
    (h : Threaded env cors transport es s) (hk : s.inside k = some .accepting) :
    Threaded env cors transport (es ++ [.proceed k]) (s.proceedAccept k) := by
  have hmgr : s.mgr = registered (es ++ [.proceed k]) := by
    rw [registered_other rfl]
    exact h.mgr
  have hpending : s.base.pendingAccepts = [] ∧
      ∀ k', s.inside k' = some .accepting ↔ k' = k := by
    cases h.accept with
    | none _ hinside => exact absurd hk (hinside k)
    | pending _ hinside => exact absurd hk (hinside k)
    | @inside k₀ hpending hinside =>
      obtain rfl := (hinside k).mp hk
      exact ⟨hpending, hinside⟩
  have hopen : s.base.acceptor ≠ .closed := fun hclosed => (h.closed hclosed).2 k hk
  have hthreads (k' j : Nat) (loop : RequestLoop WebService) :=
    @update_processing s.inside k j none
      (fun loop => by rw [hk]; exact fun e => by cases e) (fun _ e => by cases e) k' loop
  have hnone : NoneAccepting (Function.update s.inside k none) := by
    intro k' e
    by_cases hkk : k' = k
    · rw [hkk, Function.update_self] at e
      cases e
    · rw [Function.update_of_ne hkk] at e
      exact hkk ((hpending.2 k').mp e)
  have hleft : Threaded env cors transport (es ++ [.proceed k]) (s.setInside k none) := by
    refine ⟨hmgr, .none hpending.1 hnone, fun hclosed => absurd hclosed hopen, fun j c hc => ?_, ?_,
      fun j hj => ?_, h.known_update (h.known k (by rw [hk]; exact fun e => by cases e)) _⟩
    · refine (h.alone j c hc).frame ⟨List.not_mem_nil, rfl, fun k' loop => hthreads k' j loop,
        fun k' loop hin => ?_⟩
      refine decide_eq_false fun e : k = k' => ?_
      rw [← e, hk] at hin
      cases hin
    · rw [accepted_outside rfl]
      exact h.once
    · obtain ⟨hfresh, hown, hfree⟩ := h.absent j hj
      rw [accepted_outside rfl, completionsOf_unrelated rfl]
      exact ⟨hfresh, hown, fun k' loop e => hfree k' loop ((hthreads k' j loop).mp e)⟩
  unfold ThreadedServer.proceedAccept
  split
  · exact hleft.startAcceptor hpending.1 hnone hopen
  · exact hleft

end Concurrency

end BoostAsioWebServer
