/-
  File:      BoostAsioWebServer/ServerRefinement.lean
  Subject:   THE THREADED SERVER REFINES THE ONE WHOSE HANDLERS RUN WHOLE.

  `BaseServer.step` (BaseServer.lean) runs a handler, a `start` and a `stop` in one event each;
  `ThreadedServer.step` (ServerThreads.lean) cuts them at every access to what the threads share.
  Every run of the second is matched by a run of the first, the whole handler where the threads'
  handler begins:

  * `ThreadedServer.called`: the server once the call under way is over;
  * `Refines`: the relation between the two. The lifecycle is the one behind the call under way, and
    where a thread is inside `handleAccept` the next accept is there already; about the connections
    it says no more than how many there are, the rest is in the invariants of the two machines;
  * `refines_step`: each event keeps it, matched by one event or none;
  * `threads_refine`: where no handler and no call is under way the two are in the same state.
-/
import BoostAsioWebServer.ServerLifetime
import BoostAsioWebServer.ServerProgress
import BoostAsioWebServer.ServerServing

namespace BoostAsioWebServer

open ByteText Feed Runs

/-! ## 1. Calls and the lifecycle -/

section Calls

variable {configuration : Configuration}

theorem SameLifecycle.symm {s t : BaseServer} (h : SameLifecycle s t) : SameLifecycle t s :=
  ⟨h.ioStopped.symm, h.acceptor.symm, h.threads.symm, h.running.symm⟩

theorem SameLifecycle.trans {s t u : BaseServer} (h : SameLifecycle s t) (h' : SameLifecycle t u) :
    SameLifecycle s u :=
  ⟨h'.ioStopped.trans h.ioStopped, h'.acceptor.trans h.acceptor, h'.threads.trans h.threads,
    h'.running.trans h.running⟩

/-- Where `openAcceptor` gets through. -/
theorem Opens.openAcceptor {os : StartOutcomes} {s : BaseServer} {endpoint : Endpoint}
    (h : Opens configuration os s endpoint) : s.openAcceptor configuration os =
      ({ s with acceptor := .listening endpoint, running := true }.startAcceptor, .returned) := by
  rcases openAcceptor_cases configuration os s with
    ⟨endpoint', hopens, heq⟩ | ⟨hnot, -⟩ | ⟨-, acceptor, -, heq⟩
  · rw [heq, Option.some.inj (h.endpoint_eq.symm.trans hopens.endpoint_eq)]
  · exact absurd ⟨by rw [h.endpoint_eq]; simp, h.closed, h.opens⟩ hnot
  · rw [BaseServer.openAcceptor] at heq
    simp [h.endpoint_eq, h.closed, h.opens, h.setsOption, h.binds, h.listens] at heq

/-- `openAcceptor` throws in the state it found where it does not touch the acceptor. -/
theorem openAcceptor_untouched {os : StartOutcomes} {s : BaseServer}
    (h : ¬ Touches configuration os s) : s.openAcceptor configuration os = (s, .threw) := by
  rcases openAcceptor_cases configuration os s with
    ⟨endpoint, hopens, -⟩ | ⟨-, heq⟩ | ⟨htouches, -⟩
  · exact absurd ⟨by rw [hopens.endpoint_eq]; simp, hopens.closed, hopens.opens⟩ h
  · exact heq
  · exact absurd htouches h

variable (configuration) in
/-- `openAcceptor` reads the acceptor only: two servers whose acceptors are in one state both get
    through, or both throw and leave them in one state. -/
theorem openAcceptor_congr (os : StartOutcomes) {s s' : BaseServer}
    (h : s'.acceptor = s.acceptor) :
    (∃ endpoint, Opens configuration os s endpoint ∧ Opens configuration os s' endpoint) ∨
    ∃ acceptor, s.openAcceptor configuration os = ({ s with acceptor := acceptor }, .threw) ∧
      s'.openAcceptor configuration os = ({ s' with acceptor := acceptor }, .threw) := by
  by_cases htouches : Touches configuration os s
  · obtain ⟨hendpoint, hclosed, hopens⟩ := htouches
    obtain ⟨endpoint, hendpoint⟩ := Option.ne_none_iff_exists'.mp hendpoint
    have hclosed' := h.trans hclosed
    cases hset : os.setsOption with
    | false =>
      refine Or.inr ⟨.opened, ?_, ?_⟩
      · simp [BaseServer.openAcceptor, hendpoint, hclosed, hopens, hset]
      · simp [BaseServer.openAcceptor, hendpoint, hclosed', hopens, hset]
    | true =>
      cases hbind : os.binds with
      | false =>
        refine Or.inr ⟨.opened, ?_, ?_⟩
        · simp [BaseServer.openAcceptor, hendpoint, hclosed, hopens, hset, hbind]
        · simp [BaseServer.openAcceptor, hendpoint, hclosed', hopens, hset, hbind]
      | true =>
        cases hlisten : os.listens with
        | false =>
          refine Or.inr ⟨.bound endpoint, ?_, ?_⟩
          · simp [BaseServer.openAcceptor, hendpoint, hclosed, hopens, hset, hbind, hlisten]
          · simp [BaseServer.openAcceptor, hendpoint, hclosed', hopens, hset, hbind, hlisten]
        | true =>
          exact Or.inl ⟨endpoint, ⟨hendpoint, hclosed, hopens, hset, hbind, hlisten⟩,
            ⟨hendpoint, hclosed', hopens, hset, hbind, hlisten⟩⟩
  · have htouches' : ¬ Touches configuration os s' := fun h' =>
      htouches ⟨h'.1, h.symm.trans h'.2.1, h'.2.2⟩
    refine Or.inr ⟨s.acceptor, openAcceptor_untouched htouches, ?_⟩
    rw [← h]
    exact openAcceptor_untouched htouches'

/-- The loop of `start` reads the lifecycle only. -/
theorem sameLifecycle_startThreads (os : StartOutcomes) (n i : Nat) {s s' : BaseServer}
    (h : SameLifecycle s s') :
    SameLifecycle (s.startThreads os n i).1 (s'.startThreads os n i).1 := by
  induction n generalizing i s s' with
  | zero => exact h
  | succ n ih =>
    rw [BaseServer.startThreads, BaseServer.startThreads]
    split
    · refine ih (i + 1) ⟨h.ioStopped, h.acceptor, ?_, h.running⟩
      rw [h.threads, h.ioStopped]
    · exact h

/-- `stop` reads the threads, whatever the `io_service` says. -/
theorem sameLifecycle_stop {s s' : BaseServer} (hacceptor : s'.acceptor = s.acceptor)
    (hthreads : s'.threads = s.threads) (hrunning : s'.running = s.running) :
    SameLifecycle s.stop.1 s'.stop.1 := by
  unfold BaseServer.stop
  simp only [hthreads]
  split
  · exact ⟨rfl, hacceptor, rfl, hrunning⟩
  · exact ⟨rfl, hacceptor, rfl, rfl⟩

/-- What `stop` leaves alone. -/
theorem stop_frame (s : BaseServer) :
    s.stop.1.connections = s.connections ∧ s.stop.1.pendingAccepts = s.pendingAccepts ∧
      s.stop.1.newConnection = s.newConnection := by
  unfold BaseServer.stop
  simp only
  split
  · exact ⟨rfl, rfl, rfl⟩
  · exact ⟨rfl, rfl, rfl⟩

variable (configuration) in
/-- The server once the call under way is over. -/
def ThreadedServer.called (s : ThreadedServer) : BaseServer :=
  match s.call with
  | .none => s.base
  | .starting os i => (s.base.startThreads os (configuration.threadPoolSize - i) i).1
  | .stopping => s.base.stop.1

theorem sameLifecycle_called {s s' : ThreadedServer} (hcall : s'.call = s.call)
    (h : SameLifecycle s.base s'.base) :
    SameLifecycle (s.called configuration) (s'.called configuration) := by
  unfold ThreadedServer.called
  rw [hcall]
  split
  · exact h
  · exact sameLifecycle_startThreads _ _ _ h
  · exact sameLifecycle_stop h.acceptor h.threads h.running

end Calls

/-! ## 2. The relation -/

section Refinement

variable {configuration : Configuration} {env : External} {cors : CORSConfiguration}
  {transport : Transport} {webServices : List WebService}

/-- At every read of a connection the services counted are these. -/
def Settled (webServices : List WebService) (es : List ThreadedEvent) : Prop :=
  ∀ before k i data after, es = before ++ .complete k i (.read data) :: after →
    (registered before).consulted = webServices

theorem Settled.front {es : List ThreadedEvent} {e : ThreadedEvent}
    (h : Settled webServices (es ++ [e])) : Settled webServices es := by
  intro before k i data after hsplit
  refine h before k i data (after ++ [e]) ?_
  rw [hsplit, List.append_assoc, List.cons_append]

/-- What is answered stays answered. -/
theorem served_append {services : Services} {bytes : Bytes} {a : Answer}
    (h : served services bytes = some a) (more : Bytes) :
    served services (bytes ++ more) = some a := by
  unfold served at h
  split at h
  · rename_i p verdict hfeed
    rw [← Option.some.inj h]
    exact served_some (feed_append_some hfeed more)
  · cases h

theorem Fatal.append {services : Services} {es : List Event} (h : Fatal services es)
    (fs : List Event) : Fatal services (es ++ fs) := by
  obtain ⟨i, hi, a, ha, hbuffer⟩ := h
  refine ⟨i, ?_, a, ?_, hbuffer⟩
  · rw [accepted_append]
    exact List.mem_append_left _ hi
  · rw [completionsOf_append, received_append]
    exact served_append ha _

/-- **A connection no thread is inside of** stands as in the server whose handlers run whole. -/
theorem ThreadedAlone.settled {es : List ThreadedEvent} {inside : Nat → Option Job} {i : Nat}
    {c : Connection} (h : ThreadedAlone env cors transport es inside i c)
    (hsettled : Settled webServices es) (hfree : Free inside i) :
    Alone ⟨env, webServices, cors⟩ transport (wholes es) i c := by
  cases h with
  | built hnot hown _ hbuilt => exact .built hnot hown hbuilt
  | waiting hin _ _ hrun => exact .started hin (hrun webServices)
  | @processing before k data after p verdict c₀ loop _ _ _ _ _ hinside =>
    exact absurd ((hinside k loop).mpr ⟨rfl, rfl⟩) (hfree k loop)
  | @answered before k data after p verdict hin _ hverdict hrun =>
    rw [hsettled before k i data after hverdict.split] at hrun
    exact .started hin hrun

/-- The events say where a connection stands. -/
theorem Alone.functional {services : Services} {es : List Event} {i : Nat} {c c' : Connection}
    (h : Alone services transport es i c) (h' : Alone services transport es i c') : c' = c := by
  cases h with
  | built hnot _ hbuilt =>
    cases h' with
    | built _ _ hbuilt' => rw [hbuilt, hbuilt']
    | started hin => exact absurd hin hnot
  | started hin hrun =>
    cases h' with
    | built hnot => exact absurd hin hnot
    | started _ hrun' => exact Run.functional hrun' hrun

/-- The accepts of the two: the same, or a thread is inside `handleAccept` and the other server has
    the next accept already, for a connection behind those of the first. -/
inductive SameAccepts (s : ThreadedServer) (b : BaseServer) : Prop where
  | outside (hinside : NoneAccepting s.inside) (hpending : b.pendingAccepts = s.base.pendingAccepts)
      (hslot : b.newConnection = s.base.newConnection)
      (hlength : b.connections.length = s.base.connections.length)
  | inside {k : Nat} (hk : s.inside k = some .accepting) (hrunning : s.base.running = true)
      (hpending : b.pendingAccepts = [s.base.connections.length])
      (hslot : b.newConnection = some s.base.connections.length)
      (hlength : b.connections.length = s.base.connections.length + 1)

variable (configuration) in
/-- **The relation**: the lifecycle behind the call under way, and the accepts. -/
structure Refines (s : ThreadedServer) (b : BaseServer) : Prop where
  lifecycle : SameLifecycle (s.called configuration) b
  accepts : SameAccepts s b

/-- The connections of the server whose handlers run whole are at least those of the other. -/
theorem SameAccepts.le {s : ThreadedServer} {b : BaseServer} (h : SameAccepts s b) :
    s.base.connections.length ≤ b.connections.length := by
  cases h with
  | outside _ _ _ hlength => exact hlength.ge
  | inside _ _ _ _ hlength => exact hlength ▸ Nat.le_succ _

/-- What leaves the accepts, and the threads inside `handleAccept`, alone. -/
theorem SameAccepts.frame {s s' : ThreadedServer} {b b' : BaseServer} (h : SameAccepts s b)
    (hinside : ∀ k, s'.inside k = some .accepting ↔ s.inside k = some .accepting)
    (hrunning : s.base.running = true → s'.base.running = true)
    (hpending : s'.base.pendingAccepts = s.base.pendingAccepts)
    (hslot : s'.base.newConnection = s.base.newConnection)
    (hlength : s'.base.connections.length = s.base.connections.length)
    (hpending' : b'.pendingAccepts = b.pendingAccepts) (hslot' : b'.newConnection = b.newConnection)
    (hlength' : b'.connections.length = b.connections.length) : SameAccepts s' b' := by
  cases h with
  | outside hnone hp hs hl =>
    refine .outside (fun k hk => hnone k ((hinside k).mp hk)) ?_ ?_ ?_
    · rw [hpending', hpending, hp]
    · rw [hslot', hslot, hs]
    · rw [hlength', hlength, hl]
  | inside hk hr hp hs hl =>
    refine .inside ((hinside _).mpr hk) (hrunning hr) ?_ ?_ ?_
    · rw [hpending', hlength, hp]
    · rw [hslot', hlength, hs]
    · rw [hlength', hlength, hl]

/-- A handler of a connection leaves the relation alone. -/
theorem HandlerFrame.refines {s s' : ThreadedServer} {b b' : BaseServer} {k : Nat}
    (hframe : HandlerFrame s s' k) (hk : s.inside k ≠ some .accepting)
    (h : Refines configuration s b) (hlifecycle : SameLifecycle b b')
    (hpending : b'.pendingAccepts = b.pendingAccepts) (hslot : b'.newConnection = b.newConnection)
    (hlength : b'.connections.length = b.connections.length) : Refines configuration s' b' := by
  obtain ⟨job, hinside, hjob⟩ := hframe.inside
  have hcalled : SameLifecycle (s.called configuration) (s'.called configuration) :=
    sameLifecycle_called hframe.call
      ⟨hframe.ioStopped, hframe.acceptor, hframe.threads, hframe.running⟩
  refine ⟨(hcalled.symm.trans h.lifecycle).trans hlifecycle,
    h.accepts.frame (fun k' => ?_) (fun hr => hframe.running.trans hr)
      hframe.pendingAccepts hframe.slot hframe.connections hpending hslot hlength⟩
  rw [hinside]
  by_cases hkk : k' = k
  · rw [hkk, Function.update_self]
    exact ⟨fun e => absurd e hjob, fun e => absurd e hk⟩
  · rw [Function.update_of_ne hkk]

/-! ## 3. The calls -/

theorem refines_start {es : List ThreadedEvent} {s : ThreadedServer} {b : BaseServer}
    (os : StartOutcomes) (ht : Threaded env cors transport es s) (hcall : s.call = .none)
    (h : Refines configuration s b) :
    Refines configuration (s.start configuration os) (b.start configuration os).1 := by
  have hbase : SameLifecycle s.base b := by
    have hlifecycle := h.lifecycle
    rwa [ThreadedServer.called, hcall] at hlifecycle
  rcases openAcceptor_congr configuration os hbase.acceptor with
    ⟨endpoint, hopens, hopens'⟩ | ⟨acceptor, heq, heq'⟩
  · obtain ⟨hnone, hinside⟩ := ht.closed hopens.closed
    have hstart : s.start configuration os =
        { s with
          base := { s.base with acceptor := .listening endpoint, running := true }.startAcceptor
          call := .starting os 0 } := by
      rw [ThreadedServer.start, hopens.openAcceptor]
    rw [hstart, hopens'.start_eq]
    obtain ⟨added, hadd, -⟩ := startThreads_adds os configuration.threadPoolSize 0
      { b with acceptor := .listening endpoint, running := true }.startAcceptor
    refine ⟨sameLifecycle_startThreads os _ 0 ⟨hbase.ioStopped, rfl, hbase.threads, rfl⟩, ?_⟩
    rw [hadd]
    cases h.accepts with
    | outside _ hpending hslot hlength =>
      refine .outside hinside ?_ ?_ ?_
      · show b.pendingAccepts ++ [b.connections.length] =
          s.base.pendingAccepts ++ [s.base.connections.length]
        rw [hpending, hlength]
      · exact congrArg some hlength
      · show (b.connections ++ [Connection.built]).length =
          (s.base.connections ++ [Connection.built]).length
        rw [List.length_append, List.length_append, hlength]
    | inside hk => exact absurd hk (hinside _)
  · have hstart : s.start configuration os =
        { s with base := { s.base with acceptor := acceptor } } := by
      rw [ThreadedServer.start, heq]
    rw [hstart, BaseServer.start, heq']
    refine ⟨?_, h.accepts.frame (fun _ => Iff.rfl) id rfl rfl rfl rfl rfl rfl⟩
    rw [ThreadedServer.called, hcall]
    exact ⟨hbase.ioStopped, rfl, hbase.threads, hbase.running⟩

/-- The loop of `start` is what the call under way has left to do. -/
theorem called_createThread {s : ThreadedServer} {os : StartOutcomes} {i : Nat}
    (hcall : s.call = .starting os i) :
    (s.createThread configuration os i).called configuration = s.called configuration := by
  have hcalled : s.called configuration =
      (s.base.startThreads os (configuration.threadPoolSize - i) i).1 := by
    rw [ThreadedServer.called, hcall]
  rw [hcalled]
  unfold ThreadedServer.createThread
  split
  · rename_i hlt
    obtain ⟨n, hn⟩ := Nat.exists_eq_add_of_lt hlt
    have hsub : configuration.threadPoolSize - i = n + 1 := by omega
    have hsub' : configuration.threadPoolSize - (i + 1) = n := by omega
    rw [hsub, BaseServer.startThreads]
    split
    · rw [ThreadedServer.called]
      simp only [hsub']
    · rfl
  · rename_i hge
    have hsub : configuration.threadPoolSize - i = 0 := by omega
    rw [hsub]
    rfl

theorem refines_createThread {s : ThreadedServer} {b : BaseServer} {os : StartOutcomes} {i : Nat}
    (hcall : s.call = .starting os i) (h : Refines configuration s b) :
    Refines configuration (s.createThread configuration os i) b := by
  refine ⟨by rw [called_createThread hcall]; exact h.lifecycle, ?_⟩
  unfold ThreadedServer.createThread
  split
  · split
    · exact h.accepts.frame (fun _ => Iff.rfl) id rfl rfl rfl rfl rfl rfl
    · exact h.accepts.frame (fun _ => Iff.rfl) id rfl rfl rfl rfl rfl rfl
  · exact h.accepts.frame (fun _ => Iff.rfl) id rfl rfl rfl rfl rfl rfl

theorem refines_stop {s : ThreadedServer} {b : BaseServer} (hcall : s.call = .none)
    (h : Refines configuration s b) :
    Refines configuration
      { s with base := { s.base with ioStopped := true }, call := .stopping } b.stop.1 := by
  have hbase : SameLifecycle s.base b := by
    have hlifecycle := h.lifecycle
    rwa [ThreadedServer.called, hcall] at hlifecycle
  obtain ⟨hconnections, hpending, hslot⟩ := stop_frame b
  refine ⟨sameLifecycle_stop hbase.acceptor hbase.threads hbase.running, ?_⟩
  exact h.accepts.frame (fun _ => Iff.rfl) id rfl rfl rfl hpending hslot (by rw [hconnections])

theorem refines_join {es : List ThreadedEvent} {s : ThreadedServer} {b : BaseServer}
    (ht : Threaded env cors transport es s) (hcall : s.call = .stopping)
    (hall : s.allOutside = true) (h : Refines configuration s b) :
    Refines configuration { s with base := s.base.stop.1, call := .none } b := by
  have hlifecycle := h.lifecycle
  rw [ThreadedServer.called, hcall] at hlifecycle
  obtain ⟨hconnections, hpending, hslot⟩ := stop_frame s.base
  refine ⟨hlifecycle, ?_⟩
  cases h.accepts with
  | outside hinside hp hs hl =>
    exact .outside hinside (hp.trans hpending.symm) (hs.trans hslot.symm)
      (by rw [hl, ← hconnections])
  | inside hk =>
    rw [ht.inside_none hall] at hk
    cases hk

/-! ## 4. The handlers -/

/-- Where a thread takes a handler, the other server has a thread for it and is running. -/
theorem Refines.serving {s : ThreadedServer} {b : BaseServer} {k : Nat}
    (h : Refines configuration s b) (hs : ServingSound s)
    (hstopping : s.call = .stopping → s.base.ioStopped = true) (hidle : s.idle k = true) :
    b.handlersRun = true ∧ b.running = true ∧ s.base.running = true := by
  have hio := ThreadedServer.idle_running hidle
  have hlifecycle : ∃ added, SameLifecycle { s.base with threads := s.base.threads ++ added } b := by
    have hcalled := h.lifecycle
    unfold ThreadedServer.called at hcalled
    split at hcalled
    · exact ⟨[], by rw [List.append_nil]; exact hcalled⟩
    · rename_i os i hcall
      obtain ⟨added, hadd, -⟩ := startThreads_adds os (configuration.threadPoolSize - i) i s.base
      rw [hadd] at hcalled
      exact ⟨added, hcalled⟩
    · rename_i hcall
      rw [hstopping hcall] at hio
      cases hio
  obtain ⟨added, hlifecycle⟩ := hlifecycle
  have hthread : ∃ t ∈ s.base.threads, t.serving = true := by
    unfold ThreadedServer.idle at hidle
    rw [Bool.and_eq_true, Bool.and_eq_true] at hidle
    obtain ⟨t, ht, hserving⟩ := (Option.any_eq_true _ _).mp hidle.1.2
    exact ⟨t, List.mem_of_getElem? ht, hserving⟩
  obtain ⟨t, ht, hserving⟩ := hthread
  have hrunning : s.base.running = true :=
    (hs.accepts hio (Or.inl (List.ne_nil_of_mem ht))).1
  refine ⟨?_, hlifecycle.running.trans hrunning, hrunning⟩
  unfold BaseServer.handlersRun
  rw [hlifecycle.ioStopped, hlifecycle.threads]
  show (!s.base.ioStopped && (s.base.threads ++ added).any (·.serving)) = true
  rw [hio]
  exact List.any_eq_true.mpr ⟨t, List.mem_append_left _ ht, hserving⟩

variable (transport) in
/-- What `handleAccept` leaves of a running server: the next accept. -/
theorem handleAccept_next (b : BaseServer) (failed : Bool) (hrunning : b.running = true) :
    (b.handleAccept transport failed).pendingAccepts = b.pendingAccepts ++ [b.connections.length] ∧
      (b.handleAccept transport failed).newConnection = some b.connections.length ∧
      (b.handleAccept transport failed).connections.length = b.connections.length + 1 := by
  have hnext (t : BaseServer) (hpending : t.pendingAccepts = b.pendingAccepts)
      (hlength : t.connections.length = b.connections.length) (hr : t.running = true) :
      (if t.running then t.startAcceptor else t).pendingAccepts =
          b.pendingAccepts ++ [b.connections.length] ∧
        (if t.running then t.startAcceptor else t).newConnection = some b.connections.length ∧
        (if t.running then t.startAcceptor else t).connections.length =
          b.connections.length + 1 := by
    rw [if_pos hr, ← hpending, ← hlength]
    exact ⟨rfl, rfl, List.length_append⟩
  unfold BaseServer.handleAccept
  cases failed with
  | true => exact hnext b rfl rfl hrunning
  | false =>
    have hstart := sameLifecycle_startNewConnection transport b
    refine hnext (b.startNewConnection transport) ?_ ?_ (hstart.running.trans hrunning)
    · unfold BaseServer.startNewConnection
      split
      · rfl
      · rfl
    · unfold BaseServer.startNewConnection
      split
      · exact List.length_modify ..
      · rfl

/-- **An accept**: the other server runs the whole of `handleAccept`. -/
theorem refines_accept {es : List ThreadedEvent} {s : ThreadedServer} {b : BaseServer} {k i : Nat}
    (services : Services) (failed : Bool) (ht : Threaded env cors transport es s)
    (hs : ServingSound s) (hstopping : s.call = .stopping → s.base.ioStopped = true)
    (hcrashed : b.crashed = false) (hidle : s.idle k = true) (hi : i ∈ s.base.pendingAccepts)
    (h : Refines configuration s b) :
    ∃ b', b.step configuration services transport (.accept i failed) = some b' ∧
      Refines configuration (s.beginAccept transport k i failed) b' := by
  obtain ⟨hwaiting, hnone⟩ := ht.waiting hi
  obtain ⟨hhandlers, hrunning, hrunning'⟩ := h.serving hs hstopping hidle
  cases h.accepts with
  | inside hk => exact absurd hk (hnone _)
  | outside _ hpending hslot hlength =>
    have herase : b.pendingAccepts.erase i = [] := by
      rw [hpending, hwaiting.pending]
      exact List.erase_cons_head i []
    have hstep : b.step configuration services transport (.accept i failed) =
        some (BaseServer.handleAccept transport { b with pendingAccepts := [] } failed) := by
      rw [← herase]
      exact if_pos ⟨hcrashed, hhandlers, by rw [hpending]; exact hi⟩
    obtain ⟨hsame, hlength'⟩ := beginAccept_frame transport s k i failed
    have hafter := sameLifecycle_handleAccept transport { b with pendingAccepts := [] } failed
    obtain ⟨hp, hn, hl⟩ :=
      handleAccept_next transport { b with pendingAccepts := [] } failed hrunning
    refine ⟨_, hstep, ?_, ?_⟩
    · have hcalled : SameLifecycle (s.called configuration)
          ((s.beginAccept transport k i failed).called configuration) :=
        sameLifecycle_called rfl hsame
      exact (hcalled.symm.trans h.lifecycle).trans
        ⟨hafter.ioStopped, hafter.acceptor, hafter.threads, hafter.running⟩
    · refine .inside (k := k) (Function.update_self k _ s.inside) (hsame.running.trans hrunning')
        ?_ ?_ ?_
      · rw [hp, hlength', ← hlength]
        rfl
      · rw [hn, hlength', ← hlength]
      · rw [hl, hlength', ← hlength]

/-- **The end of `handleAccept`**: the next accept is there in both servers. -/
theorem refines_proceedAccept {es : List ThreadedEvent} {s : ThreadedServer} {b : BaseServer}
    {k : Nat} (ht : Threaded env cors transport es s) (hk : s.inside k = some .accepting)
    (h : Refines configuration s b) : Refines configuration (s.proceedAccept k) b := by
  have hone : s.base.pendingAccepts = [] ∧ ∀ k', s.inside k' = some .accepting ↔ k' = k := by
    cases ht.accept with
    | none _ hinside => exact absurd hk (hinside k)
    | pending _ hinside => exact absurd hk (hinside k)
    | @inside k₀ hpending hinside =>
      obtain rfl := (hinside k).mp hk
      exact ⟨hpending, hinside⟩
  cases h.accepts with
  | outside hinside => exact absurd hk (hinside k)
  | inside _ hrunning hpending hslot hlength =>
    have hstate : s.proceedAccept k =
        { s with base := s.base.startAcceptor, inside := Function.update s.inside k none } := by
      rw [ThreadedServer.proceedAccept, if_pos hrunning]
      rfl
    rw [hstate]
    refine ⟨?_, .outside (fun k' hk' => ?_) ?_ hslot ?_⟩
    · have hcalled : SameLifecycle (s.called configuration)
          (ThreadedServer.called configuration
            { s with base := s.base.startAcceptor, inside := Function.update s.inside k none }) :=
        sameLifecycle_called rfl ⟨rfl, rfl, rfl, rfl⟩
      exact hcalled.symm.trans h.lifecycle
    · change Function.update s.inside k none k' = some .accepting at hk'
      by_cases hkk : k' = k
      · rw [hkk, Function.update_self] at hk'
        cases hk'
      · rw [Function.update_of_ne hkk] at hk'
        exact hkk ((hone.2 k').mp hk')
    · show b.pendingAccepts = s.base.pendingAccepts ++ [s.base.connections.length]
      rw [hone.1, hpending]
      rfl
    · show b.connections.length = (s.base.connections ++ [Connection.built]).length
      rw [hlength, List.length_append, List.length_singleton]

/-- A connection that no thread is inside of is the same in both servers. -/
theorem connection_eq {es : List ThreadedEvent} {s : ThreadedServer} {b : BaseServer} {i : Nat}
    {c : Connection} (ht : Threaded env cors transport es s)
    (hb : Isolated ⟨env, webServices, cors⟩ transport (wholes es) b)
    (hsettled : Settled webServices es) (haccepts : SameAccepts s b) (hfree : Free s.inside i)
    (hc : s.base.connections[i]? = some c) : b.connections[i]? = some c := by
  have hlt : i < b.connections.length :=
    (List.getElem?_eq_some_iff.mp hc).1.trans_le haccepts.le
  have hcb := List.getElem?_eq_getElem hlt
  have hsame := ((ht.alone i c hc).settled hsettled hfree).functional (hb.alone i _ hcb)
  rw [hcb, hsame]

/-- A thread inside `handleRead` of a connection leaves no operation of it under way. -/
theorem free_of_pending {es : List ThreadedEvent} {inside : Nat → Option Job} {i : Nat}
    {c : Connection} (h : ThreadedAlone env cors transport es inside i c)
    (hpending : c.pending ≠ none) : Free inside i := by
  cases h with
  | built _ _ hfree => exact hfree
  | waiting _ hfree => exact hfree
  | processing _ _ _ _ _ _ _ hstate =>
    rw [hstate] at hpending
    exact absurd rfl hpending
  | answered _ hfree => exact hfree

/-- **A completion**: the other server runs the whole of its handler. -/
theorem refines_complete {es : List ThreadedEvent} {s : ThreadedServer} {b : BaseServer}
    {k i : Nat} {c : Connection} {completion : Completion}
    (ht : Threaded env cors transport es s)
    (hb : Isolated ⟨env, webServices, cors⟩ transport (wholes es) b)
    (hsettled : Settled webServices es) (hs : ServingSound s)
    (hstopping : s.call = .stopping → s.base.ioStopped = true) (hcrashed : b.crashed = false)
    (hidle : s.idle k = true) (hc : s.base.connections[i]? = some c)
    (hop : c.pending = some completion.operation) (h : Refines configuration s b) :
    ∃ b', b.step configuration ⟨env, webServices, cors⟩ transport (.complete i completion) = some b' ∧
      Refines configuration (s.beginHandler env cors transport k i c completion) b' := by
  obtain ⟨hhandlers, -, -⟩ := h.serving hs hstopping hidle
  have hfree : Free s.inside i :=
    free_of_pending (ht.alone i c hc) (by rw [hop]; exact Option.some_ne_none _)
  have hcb := connection_eq ht hb hsettled h.accepts hfree hc
  have hk := (ThreadedServer.idle_iff hidle).1
  have hstep : b.step configuration ⟨env, webServices, cors⟩ transport (.complete i completion) =
      (c.complete ⟨env, webServices, cors⟩ transport completion).map fun c =>
        { b with connections := b.connections.set i c, crashed := hasThrown c.log } := by
    rw [BaseServer.step, if_pos ⟨hcrashed, hhandlers⟩, hcb]
  rw [Connection.complete, if_pos hop, Option.map_some] at hstep
  refine ⟨_, hstep, (handlerFrame_begin hk).refines (by rw [hk]; exact fun e => by cases e) h
    ⟨rfl, rfl, rfl, rfl⟩ rfl rfl ?_⟩
  exact List.length_set

/-! ## 5. The simulation -/

/-- **Every event keeps the relation**, matched by the event it is whole, or by none. -/
theorem refines_step {es : List ThreadedEvent} {s s' : ThreadedServer} {e : ThreadedEvent}
    {b : BaseServer} (hrun : Run (ThreadedServer.step configuration env cors transport) .new es s)
    (hb : Run (BaseServer.step configuration ⟨env, webServices, cors⟩ transport) .new
      (wholes es) b)
    (h : Refines configuration s b) (hsettled : Settled webServices es)
    (hfatal : ¬ Fatal ⟨env, webServices, cors⟩ (wholes es))
    (hstep : s.step configuration env cors transport e = some s') :
    ∃ b', Run (BaseServer.step configuration ⟨env, webServices, cors⟩ transport) b
      e.whole.toList b' ∧ Refines configuration s' b' := by
  have ht := threaded_run hrun
  have hs := servingSound_run hrun
  have hcrashed : b.crashed = false := by
    rw [← Bool.not_eq_true, crashed_run hb]
    exact hfatal
  have hone {e' : Event} {b' : BaseServer}
      (he : b.step configuration ⟨env, webServices, cors⟩ transport e' = some b') :
      Run (BaseServer.step configuration ⟨env, webServices, cors⟩ transport) b [e'] b' :=
    Run.cons_iff.mpr ⟨b', he, Run.nil_iff.mpr rfl⟩
  have hnone : Run (BaseServer.step configuration ⟨env, webServices, cors⟩ transport) b [] b :=
    Run.nil_iff.mpr rfl
  cases (threadedStep_cases hstep).2 with
  | registerWebService webService =>
    exact ⟨b, hnone, h.lifecycle,
      h.accepts.frame (fun _ => Iff.rfl) id rfl rfl rfl rfl rfl rfl⟩
  | start os hcall =>
    refine ⟨_, hone (if_neg (by rw [hcrashed]; exact Bool.false_ne_true)), ?_⟩
    exact refines_start os ht hcall h
  | createThread os i hcall => exact ⟨b, hnone, refines_createThread hcall h⟩
  | stop hcall =>
    refine ⟨_, hone (if_neg (by rw [hcrashed]; exact Bool.false_ne_true)), ?_⟩
    exact refines_stop hcall h
  | join hcall hall => exact ⟨b, hnone, refines_join ht hcall hall h⟩
  | accept k i failed hidle hi =>
    obtain ⟨b', hb', hrefines⟩ := refines_accept ⟨env, webServices, cors⟩ failed ht hs
      (stopping_ioStopped hrun) hcrashed hidle hi h
    exact ⟨b', hone hb', hrefines⟩
  | complete k i completion c hidle hc hop =>
    obtain ⟨b', hb', hrefines⟩ := refines_complete ht (isolated_run hb) hsettled hs
      (stopping_ioStopped hrun) hcrashed hidle hc hop h
    exact ⟨b', hone hb', hrefines⟩
  | proceedAccept k hk => exact ⟨b, hnone, refines_proceedAccept ht hk h⟩
  | proceedRead k i loop c _ hk _ hproceed =>
    refine ⟨b, hnone, (handlerFrame_proceed hproceed).refines
      (by rw [hk]; exact fun e => by cases e) h ⟨rfl, rfl, rfl, rfl⟩ rfl rfl rfl⟩

/-- Every run is matched by a run. -/
theorem refines_run {es : List ThreadedEvent} {s : ThreadedServer}
    (hrun : Run (ThreadedServer.step configuration env cors transport) .new es s)
    (hsettled : Settled webServices es) (hfatal : ¬ Fatal ⟨env, webServices, cors⟩ (wholes es)) :
    ∃ b, Run (BaseServer.step configuration ⟨env, webServices, cors⟩ transport) .new
      (wholes es) b ∧ Refines configuration s b := by
  have hnew : Refines configuration .new .new :=
    ⟨⟨rfl, rfl, rfl, rfl⟩, .outside (fun _ h => by cases h) rfl rfl rfl⟩
  have hnotFatal {es : List ThreadedEvent} {e : ThreadedEvent}
      (h : ¬ Fatal ⟨env, webServices, cors⟩ (wholes (es ++ [e]))) :
      ¬ Fatal ⟨env, webServices, cors⟩ (wholes es) := by
    intro hfatal
    rw [wholes_append] at h
    exact h (hfatal.append _)
  refine Run.simulation (P := fun es => Settled webServices es ∧
    ¬ Fatal ⟨env, webServices, cors⟩ (wholes es)) (fun es e h => ⟨h.1.front, hnotFatal h.2⟩) hnew
    (fun es s e s' b hs hb h hP hstep => ?_) hrun ⟨hsettled, hfatal⟩
  exact refines_step hs hb h hP.1.front (hnotFatal hP.2) hstep

/-! ## 6. The process -/

/-- A connection changes that has not thrown before and does not now. -/
theorem CrashSeen.setConnection {s : ThreadedServer} {i : Nat} {c c' : Connection}
    (h : CrashSeen s.base) (hcrashed : s.base.crashed = false)
    (hc : s.base.connections[i]? = some c) (hlog : .threw ∈ c'.log → .threw ∈ c.log) :
    CrashSeen (s.setConnection i c').base := by
  have hquiet : .threw ∉ c'.log := by
    intro hthrew
    have htrue := h.mpr ⟨c, List.mem_of_getElem? hc, hlog hthrew⟩
    rw [hcrashed] at htrue
    cases htrue
  have hfalse : hasThrown c'.log = s.base.crashed := by
    rw [hcrashed, ← Bool.not_eq_true, hasThrown_iff]
    exact hquiet
  have hreplaced := h.replace hcrashed (List.getElem?_eq_some_iff.mp hc).1 c'
  rw [hfalse] at hreplaced
  exact hreplaced

variable (env) in
/-- A handler does not throw before `processRequest`. -/
theorem threw_beforeProcess (c : Connection) (n : Nat) :
    .threw ∈ (c.beforeProcess env n).1.log → .threw ∈ c.log := by
  unfold Connection.beforeProcess
  simp only
  split
  · simp [Connection.asyncReadSome]
  · simp

theorem CrashSeen.beginHandler {s : ThreadedServer} {k i : Nat} {c : Connection}
    (h : CrashSeen s.base) (hcrashed : s.base.crashed = false)
    (hc : s.base.connections[i]? = some c) (completion : Completion) :
    CrashSeen (s.beginHandler env cors transport k i c completion).base := by
  cases completion with
  | read data =>
    unfold ThreadedServer.beginHandler
    simp only
    have hlog := threw_beforeProcess env
      { c with pending := none, requestBuffer := c.requestBuffer.overwrite data } data.bytes.length
    split
    · rename_i c' heq
      rw [heq] at hlog
      exact h.setConnection hcrashed hc hlog
    · rename_i c' heq
      rw [heq] at hlog
      exact h.setConnection hcrashed hc hlog
  | handshake failed =>
    refine h.setConnection hcrashed hc ?_
    cases failed with
    | true => exact id
    | false => simp [Connection.handle, SecuredConnection.handleHandshake, Connection.asyncReadSome]
  | readFailed =>
    refine h.setConnection hcrashed hc ?_
    cases transport with
    | plain => exact id
    | secured => exact id
  | write failed =>
    refine h.setConnection hcrashed hc ?_
    rw [Connection.handle_write]
    cases failed with
    | true => simp
    | false => simp

/-- Every event of the threads keeps it: the process has crashed where a connection has thrown. -/
theorem crashSeen_threaded {es : List ThreadedEvent} {s : ThreadedServer}
    (hrun : Run (ThreadedServer.step configuration env cors transport) .new es s) :
    CrashSeen s.base := by
  have hnew : CrashSeen ThreadedServer.new.base := by
    refine ⟨fun h => (by cases h), fun h => ?_⟩
    obtain ⟨c, hc, -⟩ := h
    exact absurd hc List.not_mem_nil
  refine Run.invariant (I := fun s => CrashSeen s.base) (fun s e s' h hstep => ?_) hnew hrun
  obtain ⟨hcrashed, hcase⟩ := threadedStep_cases hstep
  cases hcase with
  | registerWebService webService => exact h
  | start os =>
    unfold ThreadedServer.start
    rcases openAcceptor_cases configuration os s.base with
      ⟨endpoint, -, heq⟩ | ⟨-, heq⟩ | ⟨-, acceptor, -, heq⟩
    · rw [heq]
      exact h.append_built rfl rfl
    · rw [heq]
      exact h
    · rw [heq]
      exact h
  | createThread os i =>
    unfold ThreadedServer.createThread
    split
    · split
      · exact h
      · exact h
    · exact h
  | stop => exact h
  | join =>
    show CrashSeen s.base.stop.1
    unfold BaseServer.stop
    simp only
    split
    · exact h
    · exact h
  | accept k i failed =>
    have hpending : CrashSeen { s.base with pendingAccepts := s.base.pendingAccepts.erase i } := h
    unfold ThreadedServer.beginAccept
    cases failed with
    | true => exact hpending
    | false => exact hpending.startNewConnection
  | complete k i completion c _ hc => exact h.beginHandler hcrashed hc completion
  | proceedAccept k =>
    unfold ThreadedServer.proceedAccept
    split
    · exact h.startAcceptor
    · exact h
  | proceedRead k i loop c _ _ hc hproceed =>
    unfold ThreadedServer.proceedRead at hproceed
    split at hproceed
    · obtain ⟨loop', -, rfl⟩ := Option.map_eq_some_iff.mp hproceed
      exact h
    · obtain ⟨loop', -, rfl⟩ := Option.map_eq_some_iff.mp hproceed
      refine h.setConnection hcrashed hc ?_
      simp [Connection.process]
    · rw [← Option.some.inj hproceed]
      exact h.replace hcrashed (List.getElem?_eq_some_iff.mp hc).1 _
    · cases hproceed

/-! ## 7. The theorem -/

/-- Where no thread is inside a handler of an uncrashed process, nothing was fatal. -/
theorem not_fatal {es : List ThreadedEvent} {s : ThreadedServer}
    (hrun : Run (ThreadedServer.step configuration env cors transport) .new es s)
    (hsettled : Settled webServices es) (hall : s.allOutside = true)
    (hcrashed : s.base.crashed = false) : ¬ Fatal ⟨env, webServices, cors⟩ (wholes es) := by
  rintro ⟨i, hi, ha⟩
  have ht := threaded_run hrun
  cases hc : s.base.connections[i]? with
  | none => exact (ht.absent i hc).1 hi
  | some c =>
    cases (ht.alone i c hc).settled hsettled (ht.free_of_allOutside hall i) with
    | built hnot => exact hnot hi
    | started _ hown =>
      have hthrew := (serving_run transport hown).threw_iff.mpr ha
      have htrue := (crashSeen_threaded hrun).mpr ⟨c, List.mem_of_getElem? hc, hthrew⟩
      rw [hcrashed] at htrue
      cases htrue

/-- The lifecycle and the rest. -/
theorem eq_of_sameLifecycle {s b : BaseServer} (h : SameLifecycle s b)
    (hslot : b.newConnection = s.newConnection) (hconnections : b.connections = s.connections)
    (hpending : b.pendingAccepts = s.pendingAccepts) (hcrashed : b.crashed = s.crashed) : b = s := by
  cases b
  cases s
  rw [BaseServer.mk.injEq]
  exact ⟨h.ioStopped, h.acceptor, h.threads, h.running, hslot, hconnections, hpending, hcrashed⟩

/-- **The threads refine the whole handlers**, over every interleaving: where no handler and no call
    is under way in an uncrashed process, the server is in the state to which the same events lead
    when each handler, `start` and `stop` runs whole where it began. The web services counted are
    to be the same at every read. -/
theorem threads_refine {es : List ThreadedEvent} {s : ThreadedServer}
    (hrun : Run (ThreadedServer.step configuration env cors transport) .new es s)
    (hsettled : Settled webServices es) (hall : s.allOutside = true) (hcall : s.call = .none)
    (hcrashed : s.base.crashed = false) :
    Run (BaseServer.step configuration ⟨env, webServices, cors⟩ transport) .new (wholes es)
      s.base := by
  have hfatal := not_fatal hrun hsettled hall hcrashed
  obtain ⟨b, hb, hrefines⟩ := refines_run hrun hsettled hfatal
  have ht := threaded_run hrun
  have hlifecycle := hrefines.lifecycle
  rw [ThreadedServer.called, hcall] at hlifecycle
  have hcrashed' : b.crashed = false := by
    rw [← Bool.not_eq_true, crashed_run hb]
    exact hfatal
  cases hrefines.accepts with
  | inside hk =>
    rw [ht.inside_none hall] at hk
    cases hk
  | outside _ hpending hslot hlength =>
    have hconnections : b.connections = s.base.connections := by
      refine List.ext_getElem? fun i => ?_
      cases hc : s.base.connections[i]? with
      | none => exact List.getElem?_eq_none (hlength ▸ List.getElem?_eq_none_iff.mp hc)
      | some c =>
        exact connection_eq ht (isolated_run hb) hsettled hrefines.accepts
          (ht.free_of_allOutside hall i) hc
    have heq : b = s.base :=
      eq_of_sameLifecycle hlifecycle hslot hconnections hpending (hcrashed'.trans hcrashed.symm)
    rw [← heq]
    exact hb

/-- Services that are registered first are the ones counted. -/
theorem settled_of_first {fs : List ThreadedEvent} (hfs : ∀ e ∈ fs, e.registers = none)
    (hlength : webServices.length < 2 ^ 32) :
    Settled webServices (webServices.map .registerWebService ++ fs) := by
  intro before k i data after hsplit
  have hfront : ∃ mid, before = webServices.map .registerWebService ++ mid ∧ mid <+: fs := by
    rcases List.append_eq_append_iff.mp hsplit with ⟨mid, hbefore, hfs'⟩ | ⟨mid, hservices, hread⟩
    · exact ⟨mid, hbefore, _, hfs'.symm⟩
    · cases mid with
      | nil => exact ⟨[], by rw [hservices]; simp, List.nil_prefix⟩
      | cons e mid =>
        -- a read is no registration
        have hmem : e ∈ webServices.map .registerWebService := by
          rw [hservices]
          exact List.mem_append_right _ List.mem_cons_self
        obtain ⟨webService, -, he⟩ := List.mem_map.mp hmem
        rw [← he] at hread
        cases (List.cons.inj hread).1
  obtain ⟨mid, rfl, hmid⟩ := hfront
  have hservices : (webServices.map ThreadedEvent.registerWebService).filterMap
      ThreadedEvent.registers = webServices := by
    rw [List.filterMap_map]
    exact List.filterMap_some
  have hnone : mid.filterMap ThreadedEvent.registers = [] :=
    List.filterMap_eq_nil_iff.mpr fun e he => hfs e (hmid.subset he)
  have hregistered :
      (registered (webServices.map .registerWebService ++ mid)).webServices = webServices := by
    show List.filterMap _ _ = _
    rw [List.filterMap_append, hservices, hnone, List.append_nil]
  rw [consulted_all (by rw [hregistered]; exact hlength), hregistered]

end Refinement

/-! ## 8. Two handlers at once -/

/-- No call is under way. -/
def ThreadedServer.callOver (s : ThreadedServer) : Bool :=
  match s.call with
  | .none => true
  | .starting _ _ | .stopping => false

theorem callOver_iff {s : ThreadedServer} : s.callOver = true ↔ s.call = .none := by
  unfold ThreadedServer.callOver
  cases s.call <;> simp

/-- The second connection is accepted inside the handler of the first, and the accesses of the two
    alternate. -/
theorem threads_refine_two :
    let data : ReadData := ⟨ascii "GET /a HTTP/1.0\r\n\r\n", by decide, by decide⟩
    let webService : WebService := fun request =>
      some { Reply.ofStatus .ok with content := request.uri }
    let configuration := { Configuration.oneThread with threadPoolSize := 2 }
    let es : List ThreadedEvent :=
      [.registerWebService webService, .start .good, .createThread, .createThread, .createThread,
        .accept 0 0 false, .proceed 0, .accept 1 1 false, .complete 0 0 (.read data), .proceed 1,
        .complete 1 1 (.read data), .proceed 0, .proceed 1, .proceed 1, .proceed 0, .proceed 0,
        .proceed 1]
    ∃ s, Run (ThreadedServer.step configuration .reference .off .plain) .new es s ∧
      Run (BaseServer.step configuration ⟨.reference, [webService], .off⟩ .plain) .new (wholes es)
        s.base := by
  intro data webService configuration es
  have hend : (es.foldlM (ThreadedServer.step configuration .reference .off .plain) .new).any
      (fun s => s.callOver && s.allOutside && !s.base.crashed) = true := by decide +kernel
  obtain ⟨s, hrun, hs⟩ := (Option.any_eq_true _ _).mp hend
  have hsettled : Settled [webService] es := by
    show Settled [webService] ([webService].map .registerWebService ++ _)
    refine settled_of_first ?_ (by decide)
    simp [ThreadedEvent.registers]
  rw [Bool.and_eq_true, Bool.and_eq_true, Bool.not_eq_true'] at hs
  obtain ⟨⟨hover, hall⟩, hcrashed⟩ := hs
  exact ⟨s, hrun, threads_refine hrun hsettled hall (callOver_iff.mp hover) hcrashed⟩

end BoostAsioWebServer
